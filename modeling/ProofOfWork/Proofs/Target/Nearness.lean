import ProofOfWork.Difficulty
import ProofOfWork.Proofs.Target.FixedPoint
set_option autoImplicit false

/-!
A target taken from the difficulty of a target. The number of a target is rounded, the greatest
target is divided by it and the quotient is rounded; then the quotient is cut off after 32 binary
places and the greatest target is divided by the rest. What comes back is near the target, but for
the target zero, whose difficulty overflows in fixed point.
-/
namespace ProofOfWork.Target
open Decimal

/-- A difficulty is near the exact quotient, and so is its product with what it was divided by. -/
theorem product_error {n v a d : ℚ} (pos : 0 < a) (some : 0 ≤ d) (whole : 0 ≤ n)
    (value : |a - v| ≤ v / 2 ^ 53) (quotient : |d - n / a| ≤ n / a / 2 ^ 53) :
    |d * v - n| ≤ n / 2 ^ 51 := by
  have first : |d * a - n| ≤ n / 2 ^ 53 := by
    have scaled : d * a - n = (d - n / a) * a := by
      rw [sub_mul, div_mul_cancel₀ _ pos.ne']
    calc |d * a - n| = |d - n / a| * a := by rw [scaled, abs_mul, abs_of_pos pos]
      _ ≤ n / a / 2 ^ 53 * a := mul_le_mul_of_nonneg_right quotient pos.le
      _ = n / 2 ^ 53 := by rw [div_right_comm, div_mul_cancel₀ _ pos.ne']
  have second : |d * a - d * v| ≤ d * v / 2 ^ 53 := by
    calc |d * a - d * v| = d * |a - v| := by rw [← mul_sub, abs_mul, abs_of_nonneg some]
      _ ≤ d * (v / 2 ^ 53) := mul_le_mul_of_nonneg_left value some
      _ = d * v / 2 ^ 53 := (mul_div_assoc _ _ _).symm
  rw [abs_le] at first second ⊢
  constructor <;> linarith

/-- Cutting off the difficulty and rounding down move the target by at most one part in `2 ^ 31`
and by one. -/
theorem threshold_error {v d : ℚ} (least : 1 ≤ d)
    (product : |d * v - 2 ^ 256| ≤ 2 ^ 256 / 2 ^ 51) :
    |(⌊(maxValue : ℚ) / cut difficultyPlaces d⌋₊ : ℚ) - v| ≤ v / 2 ^ 31 + 1 := by
  have low := one_le_cut difficultyPlaces least
  have most := cut_le difficultyPlaces (zero_le_one.trans least)
  have rest := lt_cut difficultyPlaces d
  have greatest : (maxValue : ℚ) = 2 ^ 256 - 1 := by
    rw [maxValue]
    norm_num
  rw [greatest]
  generalize cut difficultyPlaces d = c at *
  rw [difficultyPlaces] at rest
  have pos : 0 < c := zero_lt_one.trans_le low
  have whole : (0 : ℚ) ≤ (2 ^ 256 - 1) / c := div_nonneg (by norm_num) pos.le
  have below := (le_div_iff₀ pos).mp (Nat.floor_le whole)
  have above := (div_lt_iff₀ pos).mp (Nat.lt_floor_add_one ((2 ^ 256 - 1 : ℚ) / c))
  have nonneg : (0 : ℚ) ≤ ⌊(2 ^ 256 - 1 : ℚ) / c⌋₊ := Nat.cast_nonneg _
  generalize (⌊(2 ^ 256 - 1 : ℚ) / c⌋₊ : ℚ) = r at *
  have d_pos : 0 < d := pos.trans_le most
  rw [abs_le] at product
  -- cutting off raises the quotient, and rounding down lowers it by less than one
  have upper : r ≤ v + v / 2 ^ 31 := by
    have fixed : r * d ≤ r * (c + c / 2 ^ 32) := by
      apply mul_le_mul_of_nonneg_left _ nonneg
      linarith
    apply le_of_mul_le_mul_right _ d_pos
    linarith
  have lower : v - v / 2 ^ 31 ≤ r + 1 := by
    have fixed : (r + 1) * c ≤ (r + 1) * d := mul_le_mul_of_nonneg_left most (by linarith)
    apply le_of_mul_le_mul_right _ d_pos
    linarith
  rw [abs_le]
  constructor <;> linarith

theorem target_near {t : Target} (some : 0 < t.value) :
    |((Difficulty.of t).target.value : ℚ) - t.value| ≤ (t.value : ℚ) / 2 ^ 31 + 1 := by
  have below : t.value < 2 ^ 256 := Word256.value_lt t.word
  have number := near_ofNat some below.le (by decide)
  have power : exact (Float.ofNat maxValue) = 2 ^ 256 := by
    rw [exact_of_shape shape_maxValue]
    norm_num
  have positive : 0 < exact (Float.ofNat t.value) := zero_lt_one.trans_le number.low
  have quotient : Near (Float.ofNat maxValue / Float.ofNat t.value) 256
      (2 ^ 256 / exact (Float.ofNat t.value)) := by
    rw [← power]
    apply near_div (isFinite_of_shape shape_maxValue) number.finite positive
    · rw [power]
      exact number.high
    · rw [power]
      exact le_mul_of_one_le_right (by positivity) number.low
    · decide
  have inside : exact (Float.ofNat maxValue / Float.ofNat t.value) < 2 ^ Difficulty.widest :=
    quotient.high.trans_lt (pow_lt_pow_right₀ one_lt_two (by decide))
  obtain ⟨u, made, value⟩ := ofDifficulty_exact quotient.finite quotient.low inside
  have same : (Difficulty.of t).target = u := by
    rw [Difficulty.target, Difficulty.of, difficulty, if_neg (Nat.ne_of_gt some), made]
  rw [same, value]
  apply threshold_error quotient.low
  exact product_error positive (zero_le_one.trans quotient.low) (by positivity) number.error
    quotient.error

/-- The difficulty of the target zero overflows, and the fallback is the greatest target. -/
@[simp] theorem target_zero : (Difficulty.of zero).target = max := by
  rw [Difficulty.target, Difficulty.of, difficulty, if_pos value_zero, ofDifficulty_overflow]

theorem target_zero_far :
    ¬ |((Difficulty.of zero).target.value : ℚ) - zero.value| ≤
      (zero.value : ℚ) / 2 ^ 31 + 1 := by
  rw [target_zero, value_zero, value_max]
  norm_num

/-- Every target but zero comes back from its difficulty up to one part in `2 ^ 31` and one. -/
theorem target_near_iff (t : Target) :
    |((Difficulty.of t).target.value : ℚ) - t.value| ≤ (t.value : ℚ) / 2 ^ 31 + 1 ↔
      t ≠ zero := by
  constructor
  · rintro close rfl
    exact target_zero_far close
  · intro other
    apply target_near
    apply Nat.pos_of_ne_zero
    intro nothing
    exact other (eq_zero_iff.mpr nothing)

/-- The target that only the digest zero meets comes back as the one that every digest meets. -/
theorem zero_comes_back_greatest :
    (∀ digest, zero.accepts digest = true ↔ digest.value = 0) ∧
      (∀ digest, (Difficulty.of zero).target.accepts digest = true) ∧
      ¬ |((Difficulty.of zero).target.value : ℚ) - zero.value| ≤
        (zero.value : ℚ) / 2 ^ 31 + 1 := by
  refine ⟨zero_accepts_iff, ?_, target_zero_far⟩
  intro digest
  simpa using max_accepts digest

end ProofOfWork.Target
