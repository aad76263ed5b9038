import ProofOfWork.Engine.Search
set_option autoImplicit false

namespace ProofOfWork.SelfTest

def payload : List UInt8 := Text.Hex.utf8 "plutonium".toList

def maxAttempts : UInt64 := 0x100000

/-- A target that one digest in sixty-four meets. -/
def target : Target := .ofNat (2 ^ 250 - 1)

/-- An engine over that target, with one worker on each core. -/
def engine (cores : Nat) : Except Error Engine := Engine.make default target {} cores

end SelfTest

/-- The plain facts of a mined payload. -/
structure MinerRecord where
  found : Bool
  nonce : Option Nonce
  digest : Option Digest
  attempts : UInt64
  algorithm : HashAlgorithm
  target : Target
  deriving DecidableEq

namespace SelfTest
variable {m : Type → Type} [Monad m]

/-- The search of the first nonces for data, without a token. -/
def request (data : List UInt8) (maxAttempts : UInt64) : SearchRequest where
  data
  start := ⟨0⟩
  maxAttempts

/-- Mines the fixed payload and checks the solution. -/
def passesOn (host : Host m) (e : Engine) : m (Except Error Bool × Engine) := do
  let searched ← e.searchOn host (request payload maxAttempts)
  match searched.answer with
  | .error fault => return (.error fault, searched.engine)
  | .ok o =>
    let passed ← match o.result with
      | .found nonce digest => do
        let v ← searched.engine.verdictOn host payload nonce digest
        pure v.isValid
      | .exhausted => pure false
    let outcome := if passed then "passed" else "failed"
    host.tell { level := .info, source := .selfTest, message := s!"Self-test {outcome}" }
    return (.ok passed, searched.engine)

def record (algorithm : HashAlgorithm) (o : SearchOutcome) : MinerRecord where
  found := o.result.isFound
  nonce := o.result.nonce?
  digest := o.result.digest?
  attempts := o.attempts
  algorithm
  target := o.target

def mineOn (host : Host m) (e : Engine) (data : List UInt8) (maxAttempts : UInt64) :
    m (Except Error MinerRecord × Engine) := do
  let searched ← e.searchOn host (request data maxAttempts)
  return (searched.answer.map (record e.hasher.algorithm), searched.engine)

/-- An action with an engine of its own over that target. -/
def onOwnEngine {α : Type} (host : Host m) (cores : Nat) (act : Engine → m (Except Error α × Engine)) :
    m (Except Error α) := do
  match engine cores with
  | .error fault => return .error fault
  | .ok e =>
    host.tell e.announcement
    return (← act e).1

/-- The answer of the self-test on an engine of its own: one if it passes. -/
def testOn (host : Host m) (cores : Nat) : m Nat := do
  let outcome ← onOwnEngine host cores (passesOn host)
  match outcome with
  | .ok true => return 1
  | .ok false => return 0
  | .error fault =>
    let reason := fault.message
    host.tell { level := .error, source := .selfTest, message := s!"Self-test failed: {reason}" }
    return 0

/-- The record of the fixed payload, mined on an engine of its own; without a solution if that
fails. -/
def minerOn (host : Host m) (cores : Nat) : m MinerRecord := do
  let outcome ← onOwnEngine host cores fun e => mineOn host e payload maxAttempts
  match outcome with
  | .ok made => return made
  | .error fault =>
    let reason := fault.message
    host.tell { level := .error, source := .selfTest, message := s!"Miner failed: {reason}" }
    return {
      found := false
      nonce := none
      digest := none
      attempts := 0
      algorithm := default
      target }

end SelfTest
end ProofOfWork
