import ProofOfWork.Engine.Basic
import ProofOfWork.Verdict
set_option autoImplicit false

namespace ProofOfWork

structure SessionConfig where
  /-- The nonces searched in a round. -/
  maxAttempts : UInt64 := 1000000
  /-- Whether the target moves between rounds. -/
  retarget : Bool := true
  /-- The wanted time of a round. -/
  targetPeriod : Duration := .ofSeconds 1
  /-- The relative deviation from the wanted time that is let pass. -/
  tolerance : Float := 0.25

namespace SessionConfig

instance : Inhabited SessionConfig := ⟨{}⟩

def check (c : SessionConfig) : Except Error Unit :=
  if c.maxAttempts = 0 then .error (.setting .noSessionAttempts)
  else if c.targetPeriod.nanos = 0 then .error (.setting .noPeriod)
  else if c.tolerance.isFinite && c.tolerance ≥ 0 then .ok ()
  else .error (.setting .badTolerance)

end SessionConfig

/-- What happened in a round. -/
structure RoundOutcome where
  round : UInt64
  result : SearchResult
  /-- The verdict on a solution that was found. -/
  verdict : Option Verdict
  /-- The difficulty of the target of the round. -/
  difficulty : Difficulty
  attempts : UInt64
  elapsed : Duration
  hashRate : HashRate

structure SessionReport where
  algorithm : HashAlgorithm
  roundsRequested : UInt64
  /-- The rounds that were completed, in order. -/
  rounds : List RoundOutcome
  /-- The session ended early because its token fired. -/
  cancelled : Bool
  /-- The target after the last round. -/
  finalTarget : Target
  elapsed : Duration

namespace SessionReport

/-- The rounds with a solution that was found valid. -/
def solutions (r : SessionReport) : Nat := r.rounds.countP fun o => o.verdict = some .valid

def totalAttempts (r : SessionReport) : UInt64 :=
  r.rounds.foldl (fun sum o => sum + o.attempts) 0

/-- The time of the rounds, if together they make up a duration. -/
def busy? (r : SessionReport) : Option Duration :=
  r.rounds.foldlM (fun busy o => busy.add? o.elapsed) .zero

/-- The hash rate over the time of the rounds; there is none without such a time. -/
def hashRate? (r : SessionReport) : Option HashRate := r.busy?.map (.measured r.totalAttempts)

/-- The hash rate as it is told, zero if there is none. -/
def hashRate (r : SessionReport) : HashRate := r.hashRate?.getD ⟨0⟩

end SessionReport
end ProofOfWork
