import ProofOfWork.Decimal.Layout
import ProofOfWork.Text.Hex
import ProofOfWork.Text.Unsigned
set_option autoImplicit false

namespace ProofOfWork
open Text

inductive InputFault where
  | emptyData
  | noAttempts
  | longData (limit : Nat)
  | noRounds
  | digestDigits (fault : Hex.Fault)
  | digestLength (bytes : Nat)
  | payloadDigits (fault : Hex.Fault)
  | described (text : String)

def InputFault.message : InputFault → String
  | .emptyData => "Data must not be empty"
  | .noAttempts => "Maximum attempts must be greater than 0"
  | .longData limit => "Argon2d input is limited to " ++ limit.repr ++ " bytes"
  | .noRounds => "Rounds must be greater than 0"
  | .digestDigits fault => "Invalid digest hex: " ++ fault.message
  | .digestLength bytes => "Expected 32 digest bytes, got " ++ bytes.repr
  | .payloadDigits fault => "Invalid hex payload: " ++ fault.message
  | .described text => text

inductive SettingFault where
  | noBatch
  | noAttempts
  | noSessionAttempts
  | noPeriod
  | badTolerance
  | unknownAlgorithm (name : List Char)
  | unknownExtension (extension : List Char)
  | described (text : String)

def SettingFault.message : SettingFault → String
  | .noBatch => "Batch size must be greater than 0"
  | .noAttempts => "max_attempts must be greater than 0"
  | .noSessionAttempts => "Session max_attempts must be greater than 0"
  | .noPeriod => "Session target_period must be greater than 0"
  | .badTolerance => "Session tolerance must be a non-negative number"
  | .unknownAlgorithm name => "Unknown hash algorithm: " ++ String.ofList name
  | .unknownExtension extension =>
    "Unsupported configuration file extension: " ++ quoteText extension
  | .described text => text

inductive TargetFault where
  | digits (fault : Hex.Fault)
  | length (bytes : Nat)
  | exponent (n : UInt32)
  | leadingZeros (n : UInt32)
  | compactOverflow (word : UInt32)
  | difficultyRange (difficulty : Float)
  | difficultySize (difficulty : Float)
  | malformed (spec : List Char) (fault : NumberFault)
  | unknownForm (form : List Char)
  | described (text : String)

def TargetFault.message : TargetFault → String
  | .digits fault => "Invalid hex: " ++ fault.message
  | .length bytes => "Expected 32 bytes, got " ++ bytes.repr
  | .exponent n => "Exponent " ++ n.toNat.repr ++ " exceeds the 256-bit digest range"
  | .leadingZeros n =>
    "Cannot require " ++ n.toNat.repr ++ " leading zero bits of a 256-bit digest"
  | .compactOverflow word =>
    "Compact target 0x" ++ String.ofList (padded 16 8 word.toNat) ++ " overflows 256 bits"
  | .difficultyRange difficulty =>
    "Difficulty must be a finite number >= 1, got " ++
      String.ofList (Decimal.plainLayout.text difficulty)
  | .difficultySize difficulty =>
    "Unrepresentable difficulty " ++ String.ofList (Decimal.plainLayout.text difficulty)
  | .malformed spec fault =>
    "Invalid target '" ++ String.ofList spec ++ "': " ++ fault.message
  | .unknownForm form => "Unknown target form: " ++ String.ofList form
  | .described text => text

/-- The errors of the library. Those of the document formats and of files carry the words of
whoever found them, which may be none. -/
inductive Error where
  | invalidInput (fault : InputFault)
  | setting (fault : SettingFault)
  | invalidTarget (fault : TargetFault)
  | worker (text : String)
  | cancelled (operation : String)
  | file (text : String)
  | json (text : String)
  | yaml (text : String)
  | toml (text : String)

namespace Error

/-- A stable name for the kind of error. -/
def category : Error → String
  | .invalidInput _ => "invalid_input"
  | .setting _ => "config"
  | .invalidTarget _ => "target"
  | .worker _ => "worker"
  | .cancelled _ => "cancelled"
  | .file _ => "io"
  | .json _ => "json"
  | .yaml _ => "yaml"
  | .toml _ => "toml"

/-- Whether the error lies in the configuration rather than in the request. -/
def isConfiguration : Error → Bool
  | .setting _ | .invalidTarget _ | .json _ | .yaml _ | .toml _ => true
  | .invalidInput _ | .worker _ | .cancelled _ | .file _ => false

def message : Error → String
  | .invalidInput fault => "Invalid input: " ++ fault.message
  | .setting fault => "Configuration error: " ++ fault.message
  | .invalidTarget fault => "Invalid target: " ++ fault.message
  | .worker text => "Worker error: " ++ text
  | .cancelled operation => "Operation was cancelled: " ++ operation
  | .file text => "I/O error: " ++ text
  | .json text => "JSON error: " ++ text
  | .yaml text => "YAML error: " ++ text
  | .toml text => "TOML error: " ++ text

end Error
end ProofOfWork
