import ProofOfWork.Duration.Basic
import ProofOfWork.Target.Basic
set_option autoImplicit false

namespace ProofOfWork

structure Difficulty where
  value : Float

/-- Hashes per second. -/
structure HashRate where
  value : Float

/-- Seconds. -/
structure Period where
  value : Float

instance : Inhabited Difficulty := ⟨⟨1⟩⟩

/-- The rate at which `hashes` were made in some time; zero if no time has passed. -/
def HashRate.measured (hashes : Nat) (elapsed : Duration) : HashRate :=
  let seconds := elapsed.toFloat
  if seconds > 0 then ⟨Float.ofNat hashes / seconds⟩ else ⟨0⟩

def HashRate.units : List String := ["KH/s", "MH/s", "GH/s", "TH/s", "PH/s"]

/-- A rate in the largest unit in which it is at least one, with two decimals. -/
def HashRate.text (rate : HashRate) : String := go rate.value "H/s" units
where
  go (rate : Float) (unit : String) : List String → String
    | [] => String.ofList (Decimal.fixedText 2 rate) ++ " " ++ unit
    | next :: rest =>
      if rate ≥ 1000 then go (rate / 1000) next rest
      else String.ofList (Decimal.fixedText 2 rate) ++ " " ++ unit

def Period.of (d : Duration) : Period := ⟨d.toFloat⟩

namespace Difficulty

def least : Float := 1
def greatest : Float := 1e15

def of (t : Target) : Difficulty := ⟨t.difficulty⟩

/-- The target of a difficulty, or the greatest target if there is none. -/
def target (d : Difficulty) : Target :=
  match Target.ofDifficulty d.value with
  | .ok t => t
  | .error _ => Target.max

/-- The difficulty moved between the bounds; what is not a number stays as it is. -/
def pruned (d : Difficulty) : Difficulty :=
  if d.value < least then ⟨least⟩ else if d.value > greatest then ⟨greatest⟩ else d

/-- The difficulty at which a search takes `period` at the given rate. It stays unchanged while the
expected period is within the tolerance, and when there is nothing to measure. -/
def adjusted (tolerance : Float) (rate : HashRate) (period : Period) (current : Difficulty) :
    Difficulty :=
  if rate.value > 0 && period.value > 0 && current.value > 0 then
    let expected := current.value / rate.value
    let deviation := (expected - period.value).abs / period.value
    if deviation ≤ tolerance then current else pruned ⟨rate.value * period.value⟩
  else current

/-- The difficulty of a share for a miner of so many kilohashes per second. -/
def ofShares (kilohashes sharesPerSecond : Float) : Difficulty :=
  let raw := 1000 * kilohashes * sharesPerSecond / 65536
  if raw.isFinite && raw > least then pruned ⟨raw⟩ else ⟨least⟩

end Difficulty
end ProofOfWork
