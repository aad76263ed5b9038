import ProofOfWork.Proofs.Decimal.Exact
import ProofOfWork.Proofs.Decimal.Magnitude
import ProofOfWork.Proofs.Target.Difficulty
set_option autoImplicit false

namespace ProofOfWork.Target
open Decimal Difficulty

/-! The numbers that are divided. -/

section Numbers
variable {v w : Nat}

def numberUnits (v : Nat) : Nat := rounded (v * one) 1

theorem numberUnits_mono (le : v ≤ w) : numberUnits v ≤ numberUnits w := by
  apply rounded_mono Nat.one_pos Nat.one_pos
  exact Nat.mul_le_mul_right 1 (Nat.mul_le_mul_right one le)

theorem canonical_power : Canonical (2 ^ 52) 204 :=
  ⟨by decide, by decide, by decide, .inl (Nat.le_refl _)⟩

theorem magnitude_power : magnitude (2 ^ 52) 204 = 2 ^ 256 * one := by
  have exponent : (0 : Int) + (204 : Nat) = 204 := rfl
  have bits : 52 + 204 = 256 := rfl
  have scaled := magnitude_scaled (2 ^ 52) (e := 0) 204 (by decide)
  rwa [exponent, magnitude_zero, Nat.mul_right_comm, ← Nat.pow_add, bits] at scaled

theorem power_lt_beyond : 2 ^ 256 * one < beyond := by
  rw [← magnitude_power]
  exact magnitude_lt_beyond canonical_power

/-- The number of the greatest target is rounded up to a power of two. -/
@[simp] theorem numberUnits_maxValue : numberUnits maxValue = 2 ^ 256 * one := by
  have inside := power_lt_beyond
  have units : (shape (Float.ofNat maxValue)).units = some (magnitude (2 ^ 52) 204 : Int) := by
    rw [shape_maxValue]
    rfl
  rw [shape_ofNat, units_ofUnits Nat.one_pos, magnitude_power] at units
  have same : min (numberUnits maxValue) beyond = 2 ^ 256 * one := Int.ofNat.inj (Option.some.inj units)
  omega

theorem numberUnits_bounds (pos : 0 < v) (fits : v ≤ maxValue) :
    one ≤ numberUnits v ∧ numberUnits v ≤ 2 ^ 256 * one := by
  have low := numberUnits_mono (show 1 ≤ v from pos)
  have high := numberUnits_mono fits
  have least : numberUnits 1 = 1 * one := rounded_ones (by decide)
  rw [numberUnits_maxValue] at high
  omega

theorem units_number (fits : v ≤ maxValue) :
    (shape (Float.ofNat v)).units = some (numberUnits v : Int) := by
  have high := numberUnits_mono fits
  have inside := power_lt_beyond
  rw [numberUnits_maxValue] at high
  rw [shape_ofNat, units_ofUnits Nat.one_pos, Nat.min_eq_left]
  · rfl
  · change numberUnits v ≤ beyond
    omega

/-- The units of the quotient of the greatest number by another one. -/
def quotientUnits (v : Nat) : Nat := rounded (numberUnits maxValue * one) (numberUnits v)

theorem quotientUnits_anti (pos : 0 < v) (le : v ≤ w) (fits : w ≤ maxValue) :
    quotientUnits w ≤ quotientUnits v := by
  have low := numberUnits_bounds pos (Nat.le_trans le fits)
  have high := numberUnits_bounds (Nat.lt_of_lt_of_le pos le) fits
  have unit := Decimal.one_pos
  apply rounded_mono (by omega) (by omega)
  exact Nat.mul_le_mul_left _ (numberUnits_mono le)

theorem quotientUnits_bounds (pos : 0 < v) (fits : v ≤ maxValue) :
    one ≤ quotientUnits v ∧ quotientUnits v ≤ 2 ^ 256 * one := by
  obtain ⟨low, high⟩ := numberUnits_bounds pos fits
  rw [quotientUnits, numberUnits_maxValue]
  apply rounded_bounds (Nat.lt_of_lt_of_le Decimal.one_pos low) high
  exact Nat.mul_le_mul_left _ low

theorem quotientUnits_maxValue : quotientUnits maxValue = one := by
  have pos : 0 < numberUnits maxValue := by
    simpa using Nat.mul_pos (Nat.two_pow_pos 256) Decimal.one_pos
  have same : rounded (numberUnits maxValue * one) (numberUnits maxValue) = rounded (1 * one) 1 := by
    apply rounded_congr pos Nat.one_pos
    rw [Nat.one_mul, Nat.mul_one, Nat.mul_comm]
  rw [quotientUnits, same, rounded_ones (by decide), Nat.one_mul]

end Numbers

/-! The difficulties. -/

section Range
variable {s t : Target}

theorem value_le (t : Target) : t.value ≤ maxValue := by
  have below : t.value < 2 ^ 256 := Word256.value_lt t.word
  rw [maxValue]
  omega

/-- The difficulty of a target in its units, each step rounded to the nearest number. -/
theorem units_difficulty (pos : 0 < t.value) :
    (shape t.difficulty).units = some (quotientUnits t.value : Int) := by
  have dividend := units_number (Nat.le_refl maxValue)
  have divisor := units_number t.value_le
  obtain ⟨low, high⟩ := numberUnits_bounds pos t.value_le
  obtain ⟨-, most⟩ := quotientUnits_bounds pos t.value_le
  have inside := power_lt_beyond
  have unit := Decimal.one_pos
  have greatest := numberUnits_maxValue
  have quotient := units_div dividend divisor (by omega) (by omega) (by omega)
  rw [difficulty, if_neg (Nat.ne_of_gt pos), quotient, ← quotientUnits, Nat.min_eq_left (by omega)]

@[simp] theorem difficulty_zero : zero.difficulty = Decimal.greatest := by
  rw [difficulty, if_pos value_zero]

theorem units_greatest_finite :
    (shape Decimal.greatest).units = some (magnitude (2 ^ 53 - 1) 971 : Int) := by
  rw [shape_constants.2.2.2.2]
  rfl

theorem difficulty_units (t : Target) : ∃ n : Nat, (shape t.difficulty).units = some (n : Int) ∧
    one ≤ n ∧ n ≤ magnitude (2 ^ 53 - 1) 971 := by
  have far := magnitude_le_greatest canonical_power
  rw [magnitude_power] at far
  rcases Nat.eq_zero_or_pos t.value with nothing | pos
  · refine ⟨magnitude (2 ^ 53 - 1) 971, ?_, ?_, Nat.le_refl _⟩
    · rw [eq_zero_iff.mpr nothing, difficulty_zero]
      exact units_greatest_finite
    · exact Nat.le_trans (Nat.le_mul_of_pos_left _ (Nat.two_pow_pos 256)) far
  · obtain ⟨low, high⟩ := quotientUnits_bounds pos t.value_le
    exact ⟨quotientUnits t.value, units_difficulty pos, low, Nat.le_trans high far⟩

theorem difficulty_range (t : Target) : t.difficulty.isFinite = true ∧ 1 ≤ t.difficulty := by
  obtain ⟨n, units, low, high⟩ := t.difficulty_units
  have inside := magnitude_lt_beyond canonical_greatest
  refine ⟨(isFinite_iff_lt units).mpr (Nat.lt_of_le_of_lt high inside), ?_⟩
  exact (Decimal.le_iff units_least units).mpr (Int.ofNat_le.mpr low)

theorem difficulty_anti (le : s ≤ t) : t.difficulty ≤ s.difficulty := by
  have values := Target.le_iff.mp le
  rcases Nat.eq_zero_or_pos s.value with nothing | pos
  · obtain ⟨n, units, -, high⟩ := t.difficulty_units
    rw [eq_zero_iff.mpr nothing, difficulty_zero]
    exact (Decimal.le_iff units units_greatest_finite).mpr (Int.ofNat_le.mpr high)
  · have easier := units_difficulty (Nat.lt_of_lt_of_le pos values)
    have harder := units_difficulty pos
    exact (Decimal.le_iff easier harder).mpr
      (Int.ofNat_le.mpr (quotientUnits_anti pos values t.value_le))

theorem difficulty_max : max.difficulty = 1 := by
  have greatest : max.value = maxValue := value_max
  have units := units_difficulty (t := max) (by rw [greatest]; decide)
  rw [greatest, quotientUnits_maxValue] at units
  have inside := ones_lt_beyond (show 1 < 2 ^ 53 by decide)
  rw [Nat.one_mul] at inside
  exact eq_of_units units units_least Decimal.one_pos inside

/-- A harder target has no lower difficulty. Every difficulty is a finite number from one on, and the
greatest target has the difficulty one. But for the target zero, whose difficulty is the greatest
finite number, the difficulty is the rounded quotient of the rounded numbers. -/
theorem difficulty_of_harder :
    (∀ s t : Target, s ≤ t → t.difficulty ≤ s.difficulty) ∧
    (∀ t : Target, t.difficulty.isFinite = true ∧ 1 ≤ t.difficulty) ∧
    max.difficulty = 1 ∧ zero.difficulty = Decimal.greatest ∧
    ∀ t : Target, t ≠ zero → (shape t.difficulty).units =
      some (rounded (rounded (maxValue * one) 1 * one) (rounded (t.value * one) 1) : Int) := by
  refine ⟨fun s t le => difficulty_anti le, difficulty_range, difficulty_max, difficulty_zero, ?_⟩
  intro t other
  have pos : 0 < t.value := Nat.pos_of_ne_zero fun nothing => other (eq_zero_iff.mpr nothing)
  have units := units_difficulty pos
  rwa [quotientUnits, numberUnits, numberUnits] at units

/-- Two neighbours of which the lesser is rounded down, to an even number. -/
theorem difficulty_of_harder_neighbours :
    (ofNat (2 ^ 53 + 1) ≤ ofNat (2 ^ 53 + 2) ∧ ofNat (2 ^ 53 + 1) ≠ zero) ∧
    (ofNat (2 ^ 53 + 2)).difficulty ≤ (ofNat (2 ^ 53 + 1)).difficulty ∧
    (ofNat (2 ^ 53 + 1)).difficulty.isFinite = true := by
  obtain ⟨ordered, range, -, -, -⟩ := difficulty_of_harder
  have lesser : (ofNat (2 ^ 53 + 1)).value = 2 ^ 53 + 1 := Word256.value_ofNat _
  have greater : (ofNat (2 ^ 53 + 2)).value = 2 ^ 53 + 2 := Word256.value_ofNat _
  have le : ofNat (2 ^ 53 + 1) ≤ ofNat (2 ^ 53 + 2) := by
    rw [Target.le_iff, lesser, greater]
    decide
  have other : ofNat (2 ^ 53 + 1) ≠ zero := by
    intro nothing
    rw [eq_zero_iff, lesser] at nothing
    cases nothing
  exact ⟨⟨le, other⟩, ordered _ _ le, (range _).1⟩

end Range
end ProofOfWork.Target
