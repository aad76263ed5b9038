import ProofOfWork.Engine.Search
import ProofOfWork.Logging.Basic
import ProofOfWork.Session.Basic
import ProofOfWork.Target.Spec
set_option autoImplicit false

namespace ProofOfWork

structure LoggingConfig where
  level : LogLevel := default
  format : LogFormat := default
  deriving DecidableEq, Repr, Inhabited

structure Config where
  algorithm : HashAlgorithm := default
  target : TargetSpec := default
  /-- The nonces that a single search tries. -/
  maxAttempts : UInt64 := 10000000
  engine : EngineConfig := {}
  session : SessionConfig := {}
  logging : LoggingConfig := {}

namespace Config

instance : Inhabited Config := ⟨{}⟩

/-- A configuration is refused before anything is hashed. -/
def check (c : Config) : Except Error Unit := do
  let _ ← c.target.resolve
  if c.maxAttempts = 0 then throw (.setting .noAttempts)
  c.engine.check
  c.session.check

def makeEngine (c : Config) (cores : Nat) : Except Error Engine := do
  Engine.make (Hasher.of c.algorithm) (← c.target.resolve) c.engine cores

end Config
end ProofOfWork
