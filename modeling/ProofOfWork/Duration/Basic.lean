import ProofOfWork.Basic
set_option autoImplicit false

namespace ProofOfWork

def nanosPerSecond : Nat := 1000000000

/-- The first number of nanoseconds that is no longer a duration. -/
def durationLimit : Nat := 2 ^ 64 * nanosPerSecond

structure Duration where
  nanos : Nat
  nanos_lt : nanos < durationLimit
  deriving DecidableEq, Repr

namespace Duration

def ofNanos? (nanos : Nat) : Option Duration :=
  if h : nanos < durationLimit then some ⟨nanos, h⟩ else none

def zero : Duration := ⟨0, by decide⟩

instance : Inhabited Duration := ⟨zero⟩

def ofSeconds (seconds : UInt64) : Duration :=
  ⟨seconds.toNat * nanosPerSecond,
    Nat.mul_lt_mul_of_pos_right seconds.toNat_lt (by decide)⟩

/-- A duration of seconds and nanoseconds, at most the greatest one. -/
def ofParts (seconds nanos : Nat) : Duration :=
  ⟨min (seconds * nanosPerSecond + nanos) (durationLimit - 1), by
    have : durationLimit = 18446744073709551616000000000 := by decide
    omega⟩

def seconds (d : Duration) : Nat := d.nanos / nanosPerSecond

def subsecond (d : Duration) : Nat := d.nanos % nanosPerSecond

/-- The two durations one after the other, if they make up a duration. -/
def add? (a b : Duration) : Option Duration := ofNanos? (a.nanos + b.nanos)

/-- The seconds as a binary64 number: whole seconds and the nanoseconds after them are converted on
their own. -/
def toFloat (d : Duration) : Float :=
  Float.ofNat d.seconds + Float.ofNat d.subsecond / 1000000000

end Duration
end ProofOfWork
