import ProofOfWork.Engine.Search
import ProofOfWork.Session.Basic
set_option autoImplicit false

/-!
Sessions: rounds of searches, each over the payload followed by the number of the round. A solution
is checked again, and the target moves after each round towards the wanted time. A token that fires
ends the session, and the rounds that were completed stay.
-/
namespace ProofOfWork

/-- What a round searches: the payload and the eight bytes of the round. -/
def salted (payload : List UInt8) (round : UInt64) : List UInt8 := payload ++ littleEndian round

namespace Session
variable {m : Type → Type} [Monad m]

/-- The search of a round. -/
def request (config : SessionConfig) (payload : List UInt8) (token : Token) (round : UInt64) :
    SearchRequest where
  data := salted payload round
  start := ⟨0⟩
  maxAttempts := config.maxAttempts
  token

/-- The difficulty for the next round. -/
def nextDifficulty (config : SessionConfig) (o : RoundOutcome) : Difficulty :=
  .adjusted config.tolerance o.hashRate (.of config.targetPeriod) o.difficulty

/-- The target moved towards the wanted time, if the difficulty changes. -/
def retarget (config : SessionConfig) (e : Engine) (o : RoundOutcome) : Engine :=
  let next := nextDifficulty config o
  if config.retarget && next.value != o.difficulty.value then e.setTarget next.target else e

/-- What is told when the target moves. -/
def retargetEvents (config : SessionConfig) (e : Engine) (o : RoundOutcome) : List LogEvent :=
  let next := nextDifficulty config o
  if config.retarget && next.value != o.difficulty.value then
    let old := String.ofList (Decimal.fixedText 2 o.difficulty.value)
    let new := String.ofList (Decimal.fixedText 2 next.value)
    [{ level := .info, source := .session, message := s!"Retargeting difficulty {old} -> {new}" },
      Engine.targetEvent e.target next.target]
  else []

/-- What is told of a solution that was not found valid. -/
def doubtEvents (round : UInt64) (v : Verdict) : List LogEvent :=
  if v.isValid then []
  else
    let round := round.toNat
    let verdict := v.text
    [{ level := .error
       source := .session
       message := s!"Round {round} produced an unverifiable solution: {verdict}" }]

/-- What is told of a round. -/
def roundEvent (o : RoundOutcome) : LogEvent where
  level := .info
  source := .session
  message := "Round complete"
  fields := [("round", .number o.round.toNat), ("found", .flag o.result.isFound),
    ("attempts", .number o.attempts.toNat), ("difficulty", .real o.difficulty.value),
    ("hash_rate", .real o.hashRate.value)]

/-- The check of a round's solution. -/
def checkOn (host : Host m) (e : Engine) (data : List UInt8) (round : UInt64) :
    SearchResult → m (Option Verdict)
  | .exhausted => return none
  | .found nonce digest => do
    let v ← e.verdictOn host data nonce digest
    (doubtEvents round v).forM host.tell
    return some v

/-- What a round leaves behind: its outcome or why there is none. -/
structure Round where
  outcome : Except Error RoundOutcome
  engine : Engine
  token : Token

/-- One round. -/
def roundOn (host : Host m) (config : SessionConfig) (payload : List UInt8) (round : UInt64)
    (e : Engine) (token : Token) : m Round := do
  let r := request config payload token round
  let searched ← e.searchOn host r
  match searched.answer with
  | .error fault => return ⟨.error fault, searched.engine, searched.token⟩
  | .ok answer =>
    let e := searched.engine
    let verdict ← checkOn host e r.data round answer.result
    let o : RoundOutcome := {
      round
      result := answer.result
      verdict
      difficulty := .of answer.target
      attempts := answer.attempts
      elapsed := answer.elapsed
      hashRate := answer.hashRate }
    host.tell (roundEvent o)
    (retargetEvents config e o).forM host.tell
    return ⟨.ok o, retarget config e o, searched.token⟩

/-- What the rounds of a session leave behind. -/
structure Rounds where
  outcomes : List RoundOutcome
  /-- The error that ended them. -/
  ended : Option Error
  engine : Engine
  token : Token

/-- So many rounds, the first one with the number `round`; each has a host of its own. -/
def roundsOn (host : UInt64 → Host m) (config : SessionConfig) (payload : List UInt8) :
    Nat → UInt64 → Engine → Token → m Rounds
  | 0, _, e, token => return ⟨[], none, e, token⟩
  | count + 1, round, e, token => do
    let here ← roundOn (host round) config payload round e token
    match here.outcome with
    | .error fault => return ⟨[], some fault, here.engine, here.token⟩
    | .ok o =>
      let rest ← roundsOn host config payload count (round + 1) here.engine here.token
      return { rest with outcomes := o :: rest.outcomes }

/-- The report on rounds; an error other than a cancellation leaves none. -/
def Rounds.report (rs : Rounds) (requested : UInt64) (elapsed : Duration) :
    Except Error SessionReport :=
  let made (cancelled : Bool) : SessionReport := {
    algorithm := rs.engine.hasher.algorithm
    roundsRequested := requested
    rounds := rs.outcomes
    cancelled
    finalTarget := rs.engine.target
    elapsed }
  match rs.ended with
  | none => .ok (made false)
  | some (.cancelled _) => .ok (made true)
  | some fault => .error fault

end Session

/-- What a session leaves behind. -/
structure SessionEnd where
  report : Except Error SessionReport
  engine : Engine
  token : Token

namespace Session
variable {m : Type → Type} [Monad m]

/-- A session on hosts; `timed` tells how long its rounds take. -/
def runOn (host : UInt64 → Host m) (timed : {α : Type} → m α → m (α × Duration))
    (config : SessionConfig) (e : Engine) (payload : List UInt8) (rounds : UInt64) (token : Token) :
    m SessionEnd := do
  if rounds = 0 then return ⟨.error (.invalidInput .noRounds), e, token⟩
  else
    let (rs, elapsed) ← timed (roundsOn host config payload rounds.toNat 0 e token)
    return ⟨rs.report rounds elapsed, rs.engine, rs.token⟩

/-- A session under given circumstances of each round, which takes `elapsed` in all. -/
def run (config : SessionConfig) (e : Engine) (payload : List UInt8) (rounds : UInt64)
    (token : Token) (script : UInt64 → Circumstances) (elapsed : Duration) : SessionEnd :=
  Id.run <|
    runOn (fun round => Host.scripted (script round)) (fun rounds => (rounds, elapsed)) config e
      payload rounds token

end Session
end ProofOfWork
