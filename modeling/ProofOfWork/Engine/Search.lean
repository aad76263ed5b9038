import ProofOfWork.Engine.Basic
import ProofOfWork.Logging.Event
import ProofOfWork.Verdict
set_option autoImplicit false

/-!
The engine: it searches a range of nonces against its current target and keeps count. The target is
read once, when a search begins; nothing that happens later changes the task of its workers.
-/
namespace ProofOfWork

/-- What an engine leaves to the machine it runs on. -/
structure Host (m : Type → Type) where
  /-- Drives the workers of a search until all have ended. -/
  drive : Search.Plan → m Search.Course
  tell : LogEvent → m Unit

/-- All that a search does not decide itself. -/
structure Circumstances where
  schedule : Search.Schedule := []
  elapsed : Duration := .zero
  /-- The target that somebody else gives the engine while the search runs. -/
  replaced : Option Target := none

/-- The host on which everything goes by the script. -/
def Host.scripted (c : Circumstances) : Host Id where
  drive plan := { board := plan.run c.schedule, elapsed := c.elapsed, replaced := c.replaced }
  tell _ := ()

structure Engine where
  hasher : Hasher
  /-- The current target. -/
  target : Target
  config : EngineConfig
  /-- The number of workers. -/
  workers : Nat
  ledger : Ledger := {}

namespace Engine

/-- An engine with an empty ledger. -/
def make (hasher : Hasher) (target : Target) (config : EngineConfig) (cores : Nat) :
    Except Error Engine := do
  config.check
  return { hasher, target, config, workers := config.workerCount cores }

/-- The engine in the words of a debugger. -/
def summary (e : Engine) : String :=
  let algorithm := e.hasher.algorithm.title
  let mode := e.config.mode.title
  let workers := e.workers
  s!"MiningEngine \x7b algorithm: {algorithm}, workers: {workers}, mode: {mode} \x7d"

def announcement (e : Engine) : LogEvent :=
  let algorithm := e.hasher.algorithm.name
  let mode := e.config.mode.name
  let workers := e.workers
  { level := .info
    source := .engine
    message := s!"Initialized {algorithm} mining engine with {workers} workers ({mode} mode)" }

/-- The plan of a requested search, or why it cannot begin. -/
def prepare (e : Engine) (r : SearchRequest) : Except Error Search.Plan := do
  if r.data.isEmpty then throw (.invalidInput .emptyData)
  if r.maxAttempts = 0 then throw (.invalidInput .noAttempts)
  e.hasher.checkInput r.data
  if r.token = .fired then throw (.cancelled "mining")
  let range := NonceRange.upTo r.start.value r.maxAttempts
  return {
    range
    parts := range.partition e.workers
    task := {
      digest := e.hasher.digest r.data
      target := e.target
      mode := e.config.mode
      batch := max e.config.batch 1
      cancellable := r.token ≠ .absent } }

/-- The engine after a search that did not begin. -/
def refused (e : Engine) : Error → Engine
  | .cancelled _ => { e with ledger := { e.ledger with cancelled := e.ledger.cancelled + 1 } }
  | _ => e

/-- The engine with its count of hashes as the workers of a search have left it. -/
def counting (e : Engine) (hashes : UInt64) : Engine :=
  { e with ledger := { e.ledger with hashes } }

/-- What a search that began comes to. -/
def conclude (e : Engine) (plan : Search.Plan) (course : Search.Course) :
    Except Error SearchOutcome × Engine :=
  let board := course.board
  let ledger := e.ledger.spend course.elapsed
  let e := { e with target := course.replaced.getD e.target, ledger }
  if board.cancelled then
    (.error (.cancelled "mining"),
      { e with ledger := { ledger with cancelled := ledger.cancelled + 1 } })
  else
    let result := SearchResult.ofSlot board.slot
    (.ok {
      result
      target := plan.task.target
      attempts := board.attempts
      elapsed := course.elapsed },
      { e with ledger := match result with
        | .found .. => { ledger with solutions := ledger.solutions + 1 }
        | .exhausted => { ledger with exhausted := ledger.exhausted + 1 } })

end Engine

namespace Search

def Plan.opening (p : Plan) : List LogEvent :=
  let first := p.range.first.toNat
  let stop := p.range.stop.toNat
  let workers := p.parts.length
  let zeros := p.task.target.leadingZeroBits
  { level := .debug
    source := .engine
    message := s!"Searching nonces {first}..{stop} on {workers} workers, " ++
      s!"target {zeros} leading zero bits" } ::
  p.parts.zipIdx.map fun (part, worker) =>
    let first := part.first.toNat
    let stop := part.stop.toNat
    { level := .debug
      source := .worker
      message := s!"Worker {worker} scanning nonces {first}..{stop}" }

def Plan.ending (p : Plan) (board : Board) : List LogEvent :=
  (List.range p.parts.length).map (fun worker =>
    { level := .debug, source := .worker, message := s!"Worker {worker} stopped" }) ++
  let attempts := board.attempts.toNat
  if board.cancelled then
    [{ level := .info, source := .engine, message := s!"Mining cancelled after {attempts} attempts" }]
  else match board.slot with
    | some (nonce, digest) =>
      let nonce := nonce.text
      let digest := String.ofList digest.hex
      [{ level := .info
         source := .engine
         message := s!"Found solution! Nonce: {nonce}, digest: {digest}" }]
    | none =>
      [{ level := .warn, source := .engine, message := s!"Search exhausted after {attempts} attempts" }]

end Search

/-- What a requested search leaves behind. -/
structure Searched where
  answer : Except Error SearchOutcome
  engine : Engine
  token : Token

namespace Engine
variable {m : Type → Type} [Monad m]

/-- A search on a host. -/
def searchOn (host : Host m) (e : Engine) (r : SearchRequest) : m Searched := do
  match e.prepare r with
  | .error fault => return ⟨.error fault, e.refused fault, r.token⟩
  | .ok plan =>
    plan.opening.forM host.tell
    let course ← host.drive (plan.counting e.ledger.hashes)
    (plan.ending course.board).forM host.tell
    let (answer, engine) := (e.counting course.board.hashes).conclude plan course
    return ⟨answer, engine, if course.board.fired then .fired else r.token⟩

def search (e : Engine) (r : SearchRequest) (c : Circumstances) : Searched :=
  Id.run (e.searchOn (Host.scripted c) r)

/-- The result of a search of so many nonces from a first one on, without a token. -/
def mineFrom (e : Engine) (data : List UInt8) (start : Nonce) (maxAttempts : UInt64)
    (c : Circumstances) : Except Error SearchResult :=
  (e.search { data, start, maxAttempts } c).answer.map fun o => o.result

/-- The verdict on a claim by the engine's hasher and current target. -/
def verdict (e : Engine) (data : List UInt8) (nonce : Nonce) (claimed : Digest) : Verdict :=
  .of e.hasher e.target data nonce claimed

def verdictEvent (nonce : Nonce) (v : Verdict) : LogEvent :=
  let nonce := nonce.text
  let verdict := v.text
  { level := .debug, source := .verifier, message := s!"Verified nonce {nonce}: {verdict}" }

def verdictOn (host : Host m) (e : Engine) (data : List UInt8) (nonce : Nonce)
    (claimed : Digest) : m Verdict := do
  let v := e.verdict data nonce claimed
  host.tell (verdictEvent nonce v)
  return v

/-- Another target, for all searches that begin later. -/
def setTarget (e : Engine) (t : Target) : Engine := { e with target := t }

def targetEvent (old new : Target) : LogEvent :=
  let old := old.leadingZeroBits
  let new := new.leadingZeroBits
  { level := .debug
    source := .target
    message := s!"Target updated: {old} -> {new} leading zero bits" }

end Engine
end ProofOfWork
