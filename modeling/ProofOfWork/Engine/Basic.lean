import ProofOfWork.Difficulty
import ProofOfWork.Search.Schedule
set_option autoImplicit false

namespace ProofOfWork

structure EngineConfig where
  /-- The number of workers; zero for one on each core. -/
  threads : UInt64 := 0
  /-- How many nonces a worker hashes between two looks at the token. -/
  batch : UInt64 := 1000
  mode : SearchMode := .lowest
  deriving DecidableEq, Repr, Inhabited

namespace EngineConfig

/-- The number of workers on a machine with so many cores. -/
def workerCount (cores : Nat) (c : EngineConfig) : Nat :=
  if c.threads = 0 then cores else c.threads.toNat

def check (c : EngineConfig) : Except Error Unit :=
  if c.batch = 0 then .error (.setting .noBatch) else .ok ()

end EngineConfig

/-- What an engine has done since it was made. The counts start again at zero after the greatest
word. -/
structure Ledger where
  hashes : UInt64 := 0
  /-- Searches that found a solution. -/
  solutions : UInt64 := 0
  /-- Searches that ran out of nonces. -/
  exhausted : UInt64 := 0
  /-- Searches that were cancelled. -/
  cancelled : UInt64 := 0
  /-- The time spent searching. -/
  busy : Duration := .zero
  deriving DecidableEq, Repr

/-- A word where a number is wanted. -/
instance wordAsNumber : Coe UInt64 Nat := ⟨UInt64.toNat⟩

def Ledger.hashRate (l : Ledger) : HashRate := .measured l.hashes l.busy

/-- The ledger with more time spent. The addition fails if the sum is no duration, and then the time
stays as it was. -/
def Ledger.spend (l : Ledger) (elapsed : Duration) : Ledger :=
  { l with busy := (l.busy.add? elapsed).getD l.busy }

/-- What a search that was not cancelled comes to. -/
inductive SearchResult where
  | found (nonce : Nonce) (digest : Digest)
  | exhausted
  deriving DecidableEq, Repr

namespace SearchResult

def ofSlot : Option (Nonce × Digest) → SearchResult
  | some (nonce, digest) => .found nonce digest
  | none => .exhausted

def isFound : SearchResult → Bool
  | .found .. => true
  | .exhausted => false

def nonce? : SearchResult → Option Nonce
  | .found nonce _ => some nonce
  | .exhausted => none

def digest? : SearchResult → Option Digest
  | .found _ digest => some digest
  | .exhausted => none

end SearchResult

/-- A result, the target that it was searched against, and what it cost. -/
structure SearchOutcome where
  result : SearchResult
  target : Target
  attempts : UInt64
  elapsed : Duration
  deriving DecidableEq, Repr

def SearchOutcome.hashRate (o : SearchOutcome) : HashRate := .measured o.attempts.toNat o.elapsed

/-- The cancellation token of a search, as it stands when the search begins. -/
inductive Token where
  | absent
  | idle
  | fired
  deriving DecidableEq, Repr

structure SearchRequest where
  data : List UInt8
  start : Nonce
  maxAttempts : UInt64
  token : Token := .absent

namespace Search

/-- A search that may begin: its range in parts, one for each worker, and their task. -/
structure Plan where
  range : NonceRange
  parts : List NonceRange
  task : Task
  /-- The token had fired before the first step. -/
  fired : Bool := false
  /-- The engine's count of hashes before the first step. -/
  hashes : UInt64 := 0

/-- How a search went. -/
structure Course where
  /-- The board when all workers had ended. -/
  board : Board
  elapsed : Duration
  /-- The target that somebody else gave the engine meanwhile. -/
  replaced : Option Target := none

def Plan.start (p : Plan) : Crew := .start p.fired p.parts p.hashes

def Plan.run (p : Plan) (schedule : Schedule) : Board := Search.run p.task p.start schedule

/-- The plan for an engine that has counted so many hashes. -/
def Plan.counting (p : Plan) (hashes : UInt64) : Plan := { p with hashes }

end Search
end ProofOfWork
