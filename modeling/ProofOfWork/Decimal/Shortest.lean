import ProofOfWork.Decimal.Binary64
set_option autoImplicit false

/-!
The shortest decimal that reads back as a given binary64 number. The decimals with one, two, up to
seventeen digits are tried in turn: on each grid only the two neighbours of the exact value can lie
in the interval of reals that round to the number, and the first grid with a hit decides.
-/
namespace ProofOfWork.Decimal

/-- Which of two equally near decimals is taken. -/
inductive Tie where
  | up
  | even
  deriving DecidableEq, Repr

structure Scaled where
  digits : Nat
  exponent : Int
  deriving DecidableEq, Repr

/-- An exact value `num / den` with the bounds `low / den` and `high / den` of the reals that round
to it; the bounds themselves belong to the interval when `closed`. -/
structure Interval where
  low : Nat
  num : Nat
  high : Nat
  den : Nat
  closed : Bool

/-- The interval of the number `mantissa * 2 ^ exponent`. Below a power of two the neighbour is at
half the distance. -/
def Interval.of (mantissa : Nat) (exponent : Int) : Interval :=
  let gap := if mantissa = 2 ^ 52 ∧ exponent > -1074 then 1 else 2
  let (up, down) := match exponent - 2 with
    | .ofNat k => (2 ^ k, 1)
    | .negSucc k => (1, 2 ^ (k + 1))
  { low := (4 * mantissa - gap) * up
    num := 4 * mantissa * up
    high := (4 * mantissa + 2) * up
    den := down
    closed := mantissa % 2 = 0 }

/-- Whether `n / d` lies in the interval, for `n` already over the denominator `scale * den`. -/
def Interval.has (i : Interval) (n scale : Nat) : Bool :=
  let low := i.low * scale
  let high := i.high * scale
  if i.closed then low ≤ n && n ≤ high else low < n && n < high

/-- How many places to shift `num / den`, which is below one, for its first digit to be units. -/
def smallPlaces (num den : Nat) : Nat → Nat
  | 0 => 0
  | fuel + 1 => if num ≥ den then 0 else smallPlaces (num * 10) den fuel + 1

/-- The `p` with `10 ^ (p - 1) ≤ num / den < 10 ^ p`. -/
def pointPosition (num den : Nat) : Int :=
  if num ≥ den then (Nat.toDigits 10 (num / den)).length
  else 1 - Int.ofNat (smallPlaces num den 400)

/-- The decimal of the grid `10 ^ exponent` that stands for the interval, if one does. -/
def Interval.onGrid? (i : Interval) (tie : Tie) (exponent : Int) : Option Scaled :=
  let (up, down) := match exponent with
    | .ofNat k => (1, 10 ^ k)
    | .negSucc k => (10 ^ (k + 1), 1)
  -- over the common denominator `den`, the point `c` of the grid is `c * down * den / up`
  let unit := down * i.den
  let value := i.num * up
  let below := value / unit
  let rest := value % unit
  let hitBelow := i.has (below * unit) up
  let hitAbove := i.has ((below + 1) * unit) up
  let above := if 2 * rest = unit then
      match tie with
      | .up => true
      | .even => below % 2 = 1
    else 2 * rest > unit
  match hitBelow, hitAbove with
  | true, true => some ⟨if above then below + 1 else below, exponent⟩
  | true, false => some ⟨below, exponent⟩
  | false, true => some ⟨below + 1, exponent⟩
  | false, false => none

/-- The decimal without zeros at its end; at most `fuel` of them are dropped. -/
def Scaled.stripped (fuel : Nat) (s : Scaled) : Scaled :=
  match fuel with
  | 0 => s
  | fuel + 1 =>
    if s.digits % 10 = 0 ∧ s.digits ≠ 0 then
      Scaled.stripped fuel ⟨s.digits / 10, s.exponent + 1⟩
    else s

/-- The shortest decimal for a number of magnitude `mantissa * 2 ^ exponent`, which is not zero. -/
def shortest (tie : Tie) (mantissa : Nat) (exponent : Int) : Scaled :=
  let i := Interval.of mantissa exponent
  let point := pointPosition i.num i.den
  let hit := (List.range 17).findSome? fun (n : Nat) => i.onGrid? tie (point - Int.ofNat (n + 1))
  (hit.getD ⟨mantissa, exponent⟩).stripped 20

end ProofOfWork.Decimal
