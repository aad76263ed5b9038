import ProofOfWork.Logging.Basic
set_option autoImplicit false

namespace ProofOfWork

inductive LogSource where
  | program
  | engine
  | worker
  | target
  | verifier
  | session
  | selfTest
  deriving DecidableEq, Repr

/-- The path by which filters know a source. -/
def LogSource.path : LogSource → String
  | .program => "plutonium"
  | .engine => "plutonium::engine"
  | .worker => "plutonium::engine::search"
  | .target => "plutonium::core::oracle"
  | .verifier => "plutonium::verifier"
  | .session => "plutonium::session"
  | .selfTest => "plutonium::binding"

/-- A value that an event carries beside its message. -/
inductive LogValue where
  | number (n : Nat)
  | flag (b : Bool)
  | real (x : Float)

structure LogEvent where
  level : LogLevel
  source : LogSource
  message : String
  fields : List (String × LogValue) := []

end ProofOfWork
