import ProofOfWork.Proofs.Decimal.Exact
import ProofOfWork.Proofs.Target.Difficulty
set_option autoImplicit false

namespace ProofOfWork
open Decimal

namespace Decimal

/-- A number that is not negative, without what lies behind so many binary places. -/
def cut (places : Nat) (x : ℚ) : ℚ := ⌊x * 2 ^ places⌋₊ / 2 ^ places

section Cut
variable (places : Nat) {x : ℚ}

theorem cut_le (nonneg : 0 ≤ x) : cut places x ≤ x := by
  have power : (0 : ℚ) < 2 ^ places := by positivity
  rw [cut, div_le_iff₀ power]
  exact Nat.floor_le (by positivity)

theorem lt_cut (x : ℚ) : x < cut places x + 1 / 2 ^ places := by
  have power : (0 : ℚ) < 2 ^ places := by positivity
  rw [cut, ← add_div, lt_div_iff₀ power]
  exact Nat.lt_floor_add_one _

theorem one_le_cut (least : 1 ≤ x) : 1 ≤ cut places x := by
  have power : (0 : ℚ) < 2 ^ places := by positivity
  have whole : 2 ^ places ≤ ⌊x * 2 ^ places⌋₊ := by
    rw [Nat.le_floor_iff (by positivity), Nat.cast_pow]
    exact le_mul_of_one_le_left power.le least
  rw [cut, le_div_iff₀ power, one_mul]
  exact_mod_cast whole

variable {places}

theorem cut_whole {n : Nat} (whole : x * 2 ^ places = n) : cut places x = x := by
  rw [cut, whole, Nat.floor_natCast, ← whole, mul_div_cancel_right₀ _ (by positivity)]

theorem cut_div (n d : Nat) : cut places (n / d) = (n * 2 ^ places / d : Nat) / 2 ^ places := by
  have scaled : (n / d * 2 ^ places : ℚ) = ((n * 2 ^ places : Nat) : ℚ) / d := by
    push_cast
    ring
  rw [cut, scaled, Nat.floor_div_eq_div]

end Cut

/-- A number of 53 bits that is not below `2 ^ 20` has at most 32 binary places. -/
theorem exact_whole {x : Float} (finite : x.isFinite = true) (large : 2 ^ 20 ≤ exact x) :
    ∃ n : Nat, exact x * 2 ^ 32 = n := by
  obtain ⟨m, e, shown, -, -⟩ := shape_of_pos finite (lt_of_lt_of_le (by norm_num) large)
  have bits : (m : ℚ) < 2 ^ 53 := by exact_mod_cast (canonical_of_shape shown).bits
  have number : exact x = m * 2 ^ e := by
    rw [exact_of_shape shown, if_neg Bool.false_ne_true, one_mul]
  rw [number] at large ⊢
  have places : -32 ≤ e := by
    by_contra small
    have below : (m : ℚ) * 2 ^ e < 2 ^ 20 :=
      calc (m : ℚ) * 2 ^ e ≤ m * 2 ^ (-33 : ℤ) :=
            mul_le_mul_of_nonneg_left (zpow_le_zpow_right₀ (by norm_num) (by omega))
              (Nat.cast_nonneg m)
        _ < 2 ^ 53 * 2 ^ (-33 : ℤ) := mul_lt_mul_of_pos_right bits (by positivity)
        _ = 2 ^ 20 := by norm_num
    exact absurd large (not_le_of_gt below)
  obtain ⟨k, known⟩ := Int.eq_ofNat_of_zero_le (show 0 ≤ e + 32 by omega)
  have power : (2 : ℚ) ^ e * 2 ^ 32 = 2 ^ k := by
    rw [← zpow_natCast, ← zpow_natCast, ← zpow_add₀ (by norm_num)]
    congr 1
  refine ⟨m * 2 ^ k, ?_⟩
  rw [mul_assoc, power, Nat.cast_mul, Nat.cast_pow, Nat.cast_ofNat]

end Decimal

namespace Target

theorem exists_units {d : Float} (finite : d.isFinite = true) (low : 1 ≤ exact d)
    (high : exact d < 2 ^ Difficulty.widest) :
    ∃ units : Nat, (shape d).units = some (units : Int) ∧ one ≤ units ∧
      units < Difficulty.tooLarge ∧ exact d = units / one := by
  obtain ⟨a, shown⟩ := units_of_finite finite
  have same := exact_of_units finite shown
  have least : (one : Int) ≤ a := by
    rw [same, le_div_iff₀ one_pos_rat, one_mul] at low
    exact_mod_cast low
  obtain ⟨units, rfl⟩ := Int.eq_ofNat_of_zero_le (Int.le_trans (Int.natCast_nonneg one) least)
  rw [Int.cast_natCast] at same
  refine ⟨units, shown, Int.ofNat_le.mp least, ?_, same⟩
  have limit : ((Difficulty.tooLarge : Nat) : ℚ) = 2 ^ Difficulty.widest * one := by
    rw [Difficulty.tooLarge, Nat.cast_mul, Nat.cast_pow, Nat.cast_ofNat]
  rw [same, div_lt_iff₀ one_pos_rat, ← limit] at high
  exact Nat.cast_lt.mp high

/-- Dividing by a number in fixed point is dividing by the number, moved by its places. -/
theorem floor_fixed (places n : Nat) :
    ⌊(maxValue : ℚ) / (n / 2 ^ places)⌋₊ = maxValue * 2 ^ places / n := by
  have quotient : (maxValue : ℚ) / (n / 2 ^ places) = ((maxValue * 2 ^ places : Nat) : ℚ) / n := by
    push_cast
    rw [div_div_eq_mul_div]
  rw [quotient, Nat.floor_div_eq_div]

theorem ofDifficulty_exact {d : Float} (finite : d.isFinite = true) (low : 1 ≤ exact d)
    (high : exact d < 2 ^ Difficulty.widest) :
    ∃ t, ofDifficulty d = .ok t ∧
      t.value = ⌊(maxValue : ℚ) / cut difficultyPlaces (exact d)⌋₊ := by
  obtain ⟨units, shown, least, most, same⟩ := exists_units finite low high
  refine ⟨_, ofDifficulty_eq shown least most, ?_⟩
  rw [value_quotient (le_denominator least difficultyPlaces), same, cut_div, floor_fixed]

@[simp] theorem exact_one : exact 1 = 1 := by
  have finite : (1 : Float).isFinite = true := isFinite_of_shape Difficulty.shape_constants.1
  rw [exact_of_units finite Difficulty.units_least, Int.cast_natCast, div_self one_pos_rat.ne']

theorem ofDifficulty_refused {d : Float} (outside : ¬ (d.isFinite = true ∧ 1 ≤ exact d)) :
    ofDifficulty d = .error (.invalidTarget (.difficultyRange d)) := by
  have refused : (!d.isFinite || decide (d < 1)) = true := by
    cases finite : d.isFinite
    · rfl
    · have below : exact d < exact 1 := by
        simpa using lt_of_not_ge fun low => outside ⟨finite, low⟩
      have one : (1 : Float).isFinite = true := isFinite_of_shape Difficulty.shape_constants.1
      have less := (exact_lt_iff finite one).mp below
      rw [decide_eq_true less]
      rfl
  rw [ofDifficulty, if_pos refused]

/-- The greatest target is divided by a difficulty below `2 ^ 992` without the places behind the
32nd, so exactly where there are none; what is below one or not finite is refused. -/
theorem ofDifficulty_cut (d : Float) :
    (d.isFinite = true ∧ 1 ≤ exact d ∧ exact d < 2 ^ 992 →
      ∃ t, ofDifficulty d = .ok t ∧
        t.value = ⌊(maxValue : ℚ) / cut difficultyPlaces (exact d)⌋₊ ∧
        ((∃ n : Nat, exact d * 2 ^ difficultyPlaces = n) ∨ 2 ^ 20 ≤ exact d →
          t.value = ⌊(maxValue : ℚ) / exact d⌋₊)) ∧
    (¬ (d.isFinite = true ∧ 1 ≤ exact d) →
      ofDifficulty d = .error (.invalidTarget (.difficultyRange d))) := by
  refine ⟨?_, ofDifficulty_refused⟩
  rintro ⟨finite, low, high⟩
  obtain ⟨t, made, number⟩ := ofDifficulty_exact finite low high
  refine ⟨t, made, number, fun few => ?_⟩
  obtain ⟨n, whole⟩ := few.elim id (exact_whole finite)
  rw [number, cut_whole whole]

/-- A third of the greatest target, and a difficulty that is too low. -/
theorem ofDifficulty_cut_of_three :
    (∃ t, ofDifficulty 3 = .ok t ∧ t.value = (2 ^ 256 - 1) / 3) ∧
    ofDifficulty 0.5 = .error (.invalidTarget (.difficultyRange 0.5)) := by
  have three : exact 3 = 3 := by
    rw [exact_of_shape (show shape 3 = .finite false (3 * 2 ^ 51) (-51) by decide +kernel)]
    norm_num
  have half : exact 0.5 = 1 / 2 := by
    rw [exact_of_shape (show shape 0.5 = .finite false (2 ^ 52) (-53) by decide +kernel)]
    norm_num
  obtain ⟨made, -⟩ := ofDifficulty_cut 3
  obtain ⟨-, refused⟩ := ofDifficulty_cut 0.5
  have high : (3 : ℚ) < 2 ^ 992 := by
    calc (3 : ℚ) < 2 ^ 2 := by norm_num
      _ ≤ 2 ^ 992 := pow_le_pow_right₀ (by norm_num) (by decide)
  constructor
  · obtain ⟨t, answer, -, whole⟩ :=
      made ⟨by decide +kernel, by rw [three]; norm_num, by rw [three]; exact high⟩
    have places : exact 3 * 2 ^ difficultyPlaces = (3 * 2 ^ difficultyPlaces : Nat) := by
      rw [three]
      norm_num
    refine ⟨t, answer, (whole (.inl ⟨_, places⟩)).trans ?_⟩
    rw [three]
    exact Nat.floor_div_eq_div maxValue 3
  · refine refused fun ⟨_, low⟩ => ?_
    rw [half] at low
    norm_num at low

/-- A scaled difficulty that overflows has no target, although the difficulty is finite. -/
theorem ofDifficulty_overflow :
    ofDifficulty Decimal.greatest = .error (.invalidTarget (.difficultySize Decimal.greatest)) := by
  have inside : (!Decimal.greatest.isFinite || decide (Decimal.greatest < 1)) = false := by
    decide +kernel
  have scaled : shape (Decimal.greatest * Float.ofNat (2 ^ difficultyPlaces)) = .infinite false := by
    decide +kernel
  rw [ofDifficulty, if_neg (by rw [inside]; exact Bool.false_ne_true), scaled]

/-- A difficulty with 33 binary places. -/
def oneAndPlace : Float := Float.ofBits 0x3FF0000000080000

theorem shape_oneAndPlace : shape oneAndPlace = .finite false (2 ^ 52 + 2 ^ 19) (-52) := by
  decide +kernel

theorem exact_oneAndPlace : exact oneAndPlace = 1 + 1 / 2 ^ 33 := by
  rw [exact_of_shape shape_oneAndPlace]
  norm_num

theorem cut_oneAndPlace : cut difficultyPlaces (exact oneAndPlace) = 1 := by
  have whole : ⌊((1 + 1 / 2 ^ 33) * 2 ^ 32 : ℚ)⌋₊ = 2 ^ 32 := by
    rw [Nat.floor_eq_iff (by norm_num)]
    norm_num
  rw [exact_oneAndPlace, cut, difficultyPlaces, whole]
  norm_num

theorem ofDifficulty_oneAndPlace : ofDifficulty oneAndPlace = .ok max := by
  have low : 1 ≤ exact oneAndPlace := by
    rw [exact_oneAndPlace]
    norm_num
  have high : exact oneAndPlace < 2 ^ Difficulty.widest := by
    rw [exact_oneAndPlace]
    calc (1 + 1 / 2 ^ 33 : ℚ) < 2 ^ 1 := by norm_num
      _ ≤ 2 ^ Difficulty.widest := pow_le_pow_right₀ (by norm_num) (by decide)
  obtain ⟨t, made, number⟩ := ofDifficulty_exact (isFinite_of_shape shape_oneAndPlace) low high
  have same : t.value = max.value := by
    rw [number, cut_oneAndPlace, div_one, Nat.floor_natCast, value_max, maxValue]
  rw [made, eq_of_value same]

/-- The last place of such a difficulty is lost, and the greatest finite number is refused. -/
theorem ofDifficulty_inexact :
    (oneAndPlace.isFinite = true ∧ exact oneAndPlace = 1 + 1 / 2 ^ 33 ∧
      ofDifficulty oneAndPlace = .ok max ∧
      max.value ≠ ⌊(maxValue : ℚ) / exact oneAndPlace⌋₊) ∧
    (Decimal.greatest.isFinite = true ∧ 1 ≤ exact Decimal.greatest ∧
      ∀ t, ofDifficulty Decimal.greatest ≠ .ok t) := by
  have number := exact_oneAndPlace
  refine ⟨⟨isFinite_of_shape shape_oneAndPlace, number, ofDifficulty_oneAndPlace, ?_⟩,
    by decide +kernel, ?_, ?_⟩
  · rw [value_max, number]
    apply Nat.ne_of_gt
    rw [Nat.floor_lt (by positivity), div_lt_iff₀ (by norm_num), maxValue]
    norm_num
  · rw [← exact_one]
    apply le_of_not_gt
    intro less
    have below := (exact_lt_iff (by decide +kernel) (by decide +kernel)).mp less
    exact absurd below (by decide +kernel)
  · intro t made
    rw [ofDifficulty_overflow] at made
    cases made

end Target
end ProofOfWork
