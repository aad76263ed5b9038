set_option autoImplicit false

namespace ProofOfWork

/-- How serious an event is, the most serious first. -/
inductive LogLevel where
  | error
  | warn
  | info
  | debug
  | trace
  deriving DecidableEq, Repr

namespace LogLevel

instance : Inhabited LogLevel := ⟨info⟩

def all : List LogLevel := [.error, .warn, .info, .debug, .trace]

def name : LogLevel → String
  | .error => "error"
  | .warn => "warn"
  | .info => "info"
  | .debug => "debug"
  | .trace => "trace"

def title : LogLevel → String
  | .error => "Error"
  | .warn => "Warn"
  | .info => "Info"
  | .debug => "Debug"
  | .trace => "Trace"

/-- The name in capitals, as events carry it. -/
def label (l : LogLevel) : String := l.name.map Char.toUpper

/-- One for errors, and one more for each level below. -/
def detail : LogLevel → Nat
  | .error => 1
  | .warn => 2
  | .info => 3
  | .debug => 4
  | .trace => 5

end LogLevel

inductive LogFormat where
  | plain
  | pretty
  | json
  deriving DecidableEq, Repr, Inhabited

namespace LogFormat

def all : List LogFormat := [.plain, .pretty, .json]

def name : LogFormat → String
  | .plain => "plain"
  | .pretty => "pretty"
  | .json => "json"

def title : LogFormat → String
  | .plain => "Plain"
  | .pretty => "Pretty"
  | .json => "Json"

end LogFormat
end ProofOfWork
