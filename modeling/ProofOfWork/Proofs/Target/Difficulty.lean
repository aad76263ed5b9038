import ProofOfWork.Difficulty
import ProofOfWork.Proofs.Decimal.Binary64
import ProofOfWork.Proofs.Word256
set_option autoImplicit false

namespace ProofOfWork
open Decimal

namespace Difficulty

/-- The numbers that the bounds and the scale are. The number of the greatest target is rounded up to
a power of two. -/
theorem shape_constants : shape least = .finite false (2 ^ 52) (-52) ∧
    shape greatest = .finite false (10 ^ 15 * 2 ^ 3) (-3) ∧
    shape (Float.ofNat (2 ^ Target.difficultyPlaces)) = .finite false (2 ^ 52) (32 - 52) ∧
    shape (Float.ofNat Target.maxValue) = .finite false (2 ^ 52) 204 ∧
    shape Decimal.greatest = .finite false (2 ^ 53 - 1) 971 := by
  decide +kernel

theorem units_least : (shape least).units = some (one : Int) := by
  have power : magnitude (2 ^ 52) (-52) = one := by
    have scaled := magnitude_scaled (2 ^ 52) (e := -52) 52 (by decide)
    have whole := magnitude_zero (2 ^ 52)
    change magnitude (2 ^ 52) 0 = _ at scaled
    omega
  rw [shape_constants.1, Shape.units, power]
  rfl

theorem magnitude_greatest : magnitude (10 ^ 15 * 2 ^ 3) (-3) = 10 ^ 15 * one := by
  have scaled := magnitude_scaled (10 ^ 15 * 2 ^ 3) (e := -3) 3 (by decide)
  have whole := magnitude_zero (10 ^ 15 * 2 ^ 3)
  change magnitude (10 ^ 15 * 2 ^ 3) 0 = _ at scaled
  omega

theorem units_greatest : (shape greatest).units = some ((10 ^ 15 * one : Nat) : Int) := by
  rw [shape_constants.2.1, Shape.units, magnitude_greatest]
  rfl

/-- A number between the bounds. -/
def Bounded (d : Float) : Prop :=
  ∃ units : Nat, (shape d).units = some (units : Int) ∧ one ≤ units ∧ units ≤ 10 ^ 15 * one

theorem pruned_bounded {d : Difficulty} (number : shape d.value ≠ .notANumber) :
    Bounded d.pruned.value := by
  obtain ⟨a, units⟩ := units_of_number number
  have low := lt_iff units units_least
  have high := lt_iff units_greatest units
  have far : one ≤ 10 ^ 15 * one := Nat.le_mul_of_pos_left _ (by decide)
  rw [pruned]
  by_cases below : d.value < least
  · rw [if_pos below]
    exact ⟨one, units_least, Nat.le_refl _, far⟩
  · rw [if_neg below]
    by_cases above : d.value > greatest
    · rw [if_pos above]
      exact ⟨10 ^ 15 * one, units_greatest, far, Nat.le_refl _⟩
    · rw [if_neg above]
      have least_le : (one : Int) ≤ a := Int.not_lt.mp fun less => below (low.mpr less)
      have le_greatest : a ≤ ((10 ^ 15 * one : Nat) : Int) :=
        Int.not_lt.mp fun more => above (high.mpr more)
      refine ⟨a.toNat, ?_, by omega, by omega⟩
      rw [units]
      exact congrArg some (by omega)

theorem adjusted_cases (tolerance : Float) (rate : HashRate) (period : Period)
    (current : Difficulty) :
    adjusted tolerance rate period current = current ∨
      Bounded (adjusted tolerance rate period current).value := by
  unfold adjusted
  split
  · rename_i positive
    simp only [Bool.and_eq_true, decide_eq_true_eq] at positive
    dsimp only
    split
    · exact .inl rfl
    · exact .inr (pruned_bounded (mul_positive_number positive.1.1 positive.1.2))
  · exact .inl rfl

/-- The exponent of the least difficulty that cannot be put into fixed point: moved by 32 binary
places, it is beyond all finite numbers. -/
def widest : Nat := 992

def tooLarge : Nat := 2 ^ widest * one

theorem greatest_lt_tooLarge : 10 ^ 15 * one < tooLarge := by
  have digits : 10 ^ 15 < 2 ^ widest :=
    Nat.lt_of_lt_of_le (show 10 ^ 15 < 2 ^ 50 by decide)
      (Nat.pow_le_pow_right (by decide) (show 50 ≤ widest by decide))
  rw [tooLarge]
  exact Nat.mul_lt_mul_of_pos_right digits Decimal.one_pos

theorem tooLarge_le_magnitude {m : Nat} {e : Int} (leading : 2 ^ 52 ≤ m) (large : 940 ≤ e) :
    tooLarge ≤ magnitude m e := by
  have wide : 940 + places ≤ (e + 1074).toNat := by
    rw [places]
    omega
  have split : widest = 52 + 940 := rfl
  calc tooLarge = 2 ^ (widest + places) := by rw [tooLarge, one, ← Nat.pow_add]
    _ = 2 ^ 52 * 2 ^ (940 + places) := by rw [split, Nat.add_assoc, Nat.pow_add]
    _ ≤ m * 2 ^ (e + 1074).toNat :=
        Nat.mul_le_mul leading (Nat.pow_le_pow_right (by decide) wide)

theorem tooLarge_le_beyond : tooLarge ≤ beyond :=
  tooLarge_le_magnitude (Nat.pow_le_pow_right (by decide) (by decide)) (by decide)

theorem shape_of_least {d : Float} (finite : d.isFinite = true) (low : ¬ d < least) :
    ∃ m e, shape d = .finite false m e ∧ one ≤ magnitude m e := by
  obtain ⟨negative, m, e, shown⟩ := exists_shape finite
  have units : (shape d).units = some (signed negative (magnitude m e)) := by
    rw [shown]
    rfl
  have far : (one : Int) ≤ signed negative (magnitude m e) :=
    Int.not_lt.mp fun less => low ((lt_iff units units_least).mpr less)
  have pos := Decimal.one_pos
  cases negative with
  | true =>
      simp only [signed, if_true] at far
      omega
  | false =>
      simp only [signed, Bool.false_eq_true, if_false] at far
      exact ⟨m, e, shown, Int.ofNat_le.mp far⟩

theorem shape_scale : shape (Float.ofNat (2 ^ Target.difficultyPlaces)) =
    .finite false (2 ^ 52) (32 - 52) := shape_constants.2.2.1

/-- The scaled difficulty is whole in its units, so it is truncated without rounding. -/
theorem scaled_of_shape {d : Float} {m : Nat} {e : Int} (value : shape d = .finite false m e)
    (low : one ≤ magnitude m e) (high : magnitude m e < tooLarge) :
    shape (d * Float.ofNat (2 ^ Target.difficultyPlaces)) = .finite false m (e + 32) ∧
      truncated m (e + 32) = magnitude m e * 2 ^ Target.difficultyPlaces / one := by
  have canonical := canonical_of_shape value
  have normal : e ≠ -1074 := by
    rintro rfl
    have few := magnitude_subnormal canonical.bits
    omega
  have leading := canonical.leading.resolve_right normal
  have small : e < 940 := by
    refine Int.not_le.mp fun large => ?_
    have many := tooLarge_le_magnitude leading large
    omega
  have least := canonical.least
  refine ⟨shape_mul_power value leading shape_scale (by omega) (by omega), ?_⟩
  have scaled := magnitude_scaled m 32 least
  rw [truncated_eq (by omega), Target.difficultyPlaces, ← scaled]
  rfl

theorem scaled_of_units {d : Float} {units : Nat} (shown : (shape d).units = some (units : Int))
    (low : one ≤ units) (high : units < tooLarge) :
    d.isFinite = true ∧
    ∃ m e, shape (d * Float.ofNat (2 ^ Target.difficultyPlaces)) = .finite false m e ∧
      truncated m e = units * 2 ^ Target.difficultyPlaces / one := by
  obtain ⟨m, e, value, rfl⟩ := shape_of_units shown (Nat.lt_of_lt_of_le Decimal.one_pos low)
    (Nat.lt_of_lt_of_le high tooLarge_le_beyond)
  exact ⟨isFinite_of_shape value, m, e + 32, scaled_of_shape value low high⟩

end Difficulty

namespace Target
open Difficulty

def hardest : Target := ofNat (maxValue / 10 ^ 15)

@[simp] theorem value_hardest : hardest.value = maxValue / 10 ^ 15 := by
  rw [value, hardest, ofNat, Word256.value_ofNat]
  exact Nat.mod_eq_of_lt (by decide)

/-- Neither harder than the greatest difficulty is nor easier than the greatest target. -/
structure InBounds (t : Target) : Prop where
  hard : hardest.value ≤ t.value
  easy : t.value ≤ max.value

theorem InBounds.pos {t : Target} (bounds : t.InBounds) : 0 < t.value := by
  have hard := bounds.hard
  rw [value_hardest] at hard
  have some_hard : 0 < maxValue / 10 ^ 15 := by decide
  omega

/-- The target of a difficulty that can be put into fixed point, in whole numbers. -/
theorem ofDifficulty_eq {d : Float} {units : Nat} (shown : (shape d).units = some (units : Int))
    (low : one ≤ units) (high : units < tooLarge) :
    ofDifficulty d = .ok (ofNat
      (maxValue * 2 ^ difficultyPlaces / (units * 2 ^ difficultyPlaces / one))) := by
  obtain ⟨finite, m, e, scaled, whole⟩ := scaled_of_units shown low high
  have least_le : ¬ d < 1 := by
    intro below
    have less := (lt_iff shown units_least).mp below
    omega
  rw [ofDifficulty, scaled, ← whole]
  simp only [finite, least_le, decide_false, Bool.not_true, Bool.or_false, Bool.false_eq_true,
    if_false]

theorem le_denominator {units : Nat} (low : one ≤ units) (places : Nat) :
    2 ^ places ≤ units * 2 ^ places / one := by
  rw [Nat.le_div_iff_mul_le Decimal.one_pos, Nat.mul_comm]
  exact Nat.mul_le_mul_right _ low

theorem denominator_le {units : Nat} (high : units ≤ 10 ^ 15 * one) (places : Nat) :
    units * 2 ^ places / one ≤ 10 ^ 15 * 2 ^ places := by
  refine Nat.div_le_of_le_mul ?_
  calc units * 2 ^ places ≤ 10 ^ 15 * one * 2 ^ places := Nat.mul_le_mul_right _ high
    _ = one * (10 ^ 15 * 2 ^ places) := by
      rw [Nat.mul_comm (10 ^ 15) one, Nat.mul_assoc]

theorem quotient_le {denominator : Nat} (least : 2 ^ difficultyPlaces ≤ denominator) :
    maxValue * 2 ^ difficultyPlaces / denominator ≤ maxValue :=
  calc maxValue * 2 ^ difficultyPlaces / denominator
      ≤ maxValue * 2 ^ difficultyPlaces / 2 ^ difficultyPlaces :=
        Nat.div_le_div_left least (Nat.two_pow_pos _)
    _ = maxValue := Nat.mul_div_cancel _ (Nat.two_pow_pos _)

theorem value_quotient {denominator : Nat} (least : 2 ^ difficultyPlaces ≤ denominator) :
    (ofNat (maxValue * 2 ^ difficultyPlaces / denominator)).value =
      maxValue * 2 ^ difficultyPlaces / denominator := by
  have fits := Nat.lt_of_le_of_lt (quotient_le least) (show maxValue < 2 ^ 256 by decide)
  rw [value, ofNat, Word256.value_ofNat, Nat.mod_eq_of_lt fits]

/-- A difficulty between the bounds has a target between those of the bounds. -/
theorem ofDifficulty_bounded {d : Float} (bounded : Bounded d) :
    ∃ t, ofDifficulty d = .ok t ∧ t.InBounds := by
  obtain ⟨units, shown, low, high⟩ := bounded
  have least := le_denominator low difficultyPlaces
  have most := denominator_le high difficultyPlaces
  refine ⟨_, ofDifficulty_eq shown low (Nat.lt_of_le_of_lt high greatest_lt_tooLarge), ?_⟩
  generalize units * 2 ^ difficultyPlaces / one = denominator at least most
  have scale : 0 < 2 ^ difficultyPlaces := Nat.two_pow_pos _
  have lower : maxValue / 10 ^ 15 ≤ maxValue * 2 ^ difficultyPlaces / denominator := by
    calc maxValue / 10 ^ 15
        = maxValue * 2 ^ difficultyPlaces / (10 ^ 15 * 2 ^ difficultyPlaces) :=
          (Nat.mul_div_mul_right _ _ scale).symm
      _ ≤ maxValue * 2 ^ difficultyPlaces / denominator :=
          Nat.div_le_div_left most (Nat.lt_of_lt_of_le scale least)
  have greatest : max.value = maxValue := value_max
  constructor
  · simpa [value_quotient least] using lower
  · rw [greatest, value_quotient least]
    exact quotient_le least

theorem target_bounded {d : Difficulty} (bounded : Bounded d.value) :
    ofDifficulty d.value = .ok d.target ∧ d.target.InBounds := by
  obtain ⟨t, made, bounds⟩ := ofDifficulty_bounded bounded
  have same : d.target = t := by
    rw [Difficulty.target, made]
  rw [same]
  exact ⟨made, bounds⟩

@[simp] theorem ofDifficulty_greatest : ofDifficulty Difficulty.greatest = .ok hardest := by
  have far : one ≤ 10 ^ 15 * one := Nat.le_mul_of_pos_left _ (by decide)
  rw [ofDifficulty_eq units_greatest far greatest_lt_tooLarge]
  have exact_places :
      10 ^ 15 * one * 2 ^ difficultyPlaces / one = 10 ^ 15 * 2 ^ difficultyPlaces := by
    rw [Nat.mul_right_comm, Nat.mul_div_cancel _ Decimal.one_pos]
  rw [exact_places, Nat.mul_div_mul_right _ _ (Nat.two_pow_pos _), hardest]

theorem shape_maxValue : shape (Float.ofNat maxValue) = .finite false (2 ^ 52) 204 :=
  shape_constants.2.2.2.1

theorem difficulty_number (t : Target) : shape t.difficulty ≠ .notANumber := by
  unfold difficulty
  split
  · rw [shape_constants.2.2.2.2]
    exact nofun
  · exact div_number shape_maxValue (by decide) (ofNat_number t.value)

end Target
end ProofOfWork
