import ProofOfWork.Decimal.Literal
import ProofOfWork.Target.Basic
import ProofOfWork.Target.Compact
set_option autoImplicit false

namespace ProofOfWork
open Text

inductive TargetSpec where
  | digits (target : Target)
  | leadingZeros (bits : UInt32)
  | powerOfTwo (exponent : UInt32)
  | compact (word : UInt32)
  | difficulty (value : Float)

namespace TargetSpec

instance : Inhabited TargetSpec := ⟨.leadingZeros 16⟩

def resolve : TargetSpec → Except Error Target
  | .digits target => .ok target
  | .leadingZeros bits => Target.ofLeadingZeros bits
  | .powerOfTwo exponent => Target.belowPowerOfTwo exponent
  | .compact word => Target.ofCompact word
  | .difficulty value => Target.ofDifficulty value

/-- A text without any number of copies of `start` at its front; each copy is not empty. -/
def dropStarts (start : List Char) : Nat → List Char → List Char
  | 0, text => text
  | fuel + 1, text =>
    match dropStart? start text with
    | some rest => dropStarts start fuel rest
    | none => text

/-- A compact word in hexadecimal, after any number of `0x` and then of `0X`. -/
def readCompact (value : List Char) : Except NumberFault UInt32 :=
  let bare := dropStarts ['0', 'x'] value.length value
  let bare := dropStarts ['0', 'X'] bare.length bare
  (readUnsigned 16 (2 ^ 32) bare).map Nat.toUInt32

/-- A value of a named form; a fault in it is told with the whole specification. -/
def readForm (spec form value : List Char) : Except Error TargetSpec :=
  let number {α : Type} (read : Except NumberFault α) (make : α → TargetSpec) :
      Except Error TargetSpec :=
    match read with
    | .ok n => .ok (make n)
    | .error fault => .error (.invalidTarget (.malformed spec fault))
  match String.ofList form with
  | "hex" => (Target.ofHex value).map .digits
  | "bits" => number (readWord32 value) .leadingZeros
  | "pow2" => number (readWord32 value) .powerOfTwo
  | "compact" => number (readCompact value) .compact
  | "difficulty" => number (Decimal.readReal value) .difficulty
  | _ => .error (.invalidTarget (.unknownForm form))

/-- A specification, with blanks around it allowed. -/
def read (text : List Char) : Except Error TargetSpec :=
  let spec := trimBlanks text
  match splitAt? ':' spec with
  | none => (Target.ofHex spec).map .digits
  | some (form, value) => readForm spec form value

def text : TargetSpec → List Char
  | .digits target => target.hex
  | .leadingZeros bits => "bits:".toList ++ decimal bits.toNat
  | .powerOfTwo exponent => "pow2:".toList ++ decimal exponent.toNat
  | .compact word => "compact:0x".toList ++ padded 16 8 word.toNat
  | .difficulty value => "difficulty:".toList ++ Decimal.plainLayout.text value

end TargetSpec
end ProofOfWork
