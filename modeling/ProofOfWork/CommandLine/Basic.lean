import ProofOfWork.Duration.Basic
import ProofOfWork.Hasher
import ProofOfWork.Logging.Basic
import ProofOfWork.Search.Basic
import ProofOfWork.Target.Spec
set_option autoImplicit false

namespace ProofOfWork

/-- The options that may stand before and after the name of a command. -/
structure CommonOptions where
  /-- The path of a configuration file. -/
  config : Option (List Char) := none
  algorithm : Option HashAlgorithm := none
  target : Option TargetSpec := none
  threads : Option UInt64 := none
  mode : Option SearchMode := none
  logLevel : Option LogLevel := none
  logFormat : Option LogFormat := none
  /-- The configuration is printed and nothing else is done. -/
  printConfig : Bool := false

/-- The options of `a`, and those of `b` that `a` does not have. -/
def CommonOptions.over (a b : CommonOptions) : CommonOptions where
  config := a.config <|> b.config
  algorithm := a.algorithm <|> b.algorithm
  target := a.target <|> b.target
  threads := a.threads <|> b.threads
  mode := a.mode <|> b.mode
  logLevel := a.logLevel <|> b.logLevel
  logFormat := a.logFormat <|> b.logFormat
  printConfig := a.printConfig || b.printConfig

inductive Command where
  /-- Searches nonces from `start` on. -/
  | mine (data : List Char) (maxAttempts : Option UInt64) (start : UInt64)
  /-- Checks a claimed solution. -/
  | verify (data : List Char) (nonce : UInt64) (digest : List Char)
  /-- Mines some rounds. -/
  | run (rounds : UInt64) (payload : List Char) (targetPeriod : Option Duration)
      (noRetarget json : Bool)
  /-- Mines a fixed payload and checks the solution. -/
  | test
  /-- Mines a fixed payload and prints the record. -/
  | miner

structure CommandLine extends CommonOptions where
  command : Option Command := none

instance : Inhabited CommandLine := ⟨{}⟩

inductive CommandName where
  | mine
  | verify
  | run
  | test
  | miner
  deriving DecidableEq, Repr

namespace CommandName

def all : List CommandName := [.mine, .verify, .run, .test, .miner]

def text : CommandName → String
  | .mine => "mine"
  | .verify => "verify"
  | .run => "run"
  | .test => "test"
  | .miner => "miner"

end CommandName
end ProofOfWork
