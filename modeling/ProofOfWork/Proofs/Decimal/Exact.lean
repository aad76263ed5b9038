import ProofOfWork.Proofs.Decimal.Operations
set_option autoImplicit false

namespace ProofOfWork.Decimal

/-- The rational number that a finite number is; zero for what is not finite. -/
def exact (x : Float) : ℚ :=
  match shape x with
  | .finite negative m e => (if negative then -1 else 1) * m * 2 ^ e
  | _ => 0

theorem one_pos_rat : (0 : ℚ) < one := Nat.cast_pos.mpr Decimal.one_pos

section Exact
variable {x y : Float}

theorem exact_of_shape {negative : Bool} {m : Nat} {e : Int}
    (shown : shape x = .finite negative m e) :
    exact x = (if negative then -1 else 1) * m * 2 ^ e := by
  rw [exact, shown]

theorem magnitude_eq_mul {m : Nat} {e : Int} (least : -1074 ≤ e) :
    (magnitude m e : ℚ) = m * 2 ^ e * one := by
  have exponent : ((e + 1074).toNat : Int) = e + (places : Nat) := by
    rw [places]
    omega
  rw [magnitude, one, Nat.cast_mul, Nat.cast_pow, Nat.cast_pow, ← zpow_natCast, exponent,
    zpow_add₀ (by norm_num), zpow_natCast, mul_assoc]
  rfl

/-- A finite number is its units, divided by those of the number one. -/
theorem exact_of_units {a : Int} (finite : x.isFinite = true)
    (units : (shape x).units = some a) : exact x = a / one := by
  obtain ⟨negative, m, e, shown⟩ := exists_shape finite
  have whole := magnitude_eq_mul (m := m) (canonical_of_shape shown).least
  rw [shown, Shape.units, Option.some.injEq] at units
  rw [exact_of_shape shown, eq_div_iff (ne_of_gt one_pos_rat), ← units]
  cases negative
  · simp only [signed, Bool.false_eq_true, if_false, one_mul, Int.cast_natCast, whole]
  · simp only [signed, if_true, Int.cast_neg, Int.cast_natCast, whole, neg_mul, one_mul]

theorem units_of_finite (finite : x.isFinite = true) : ∃ a, (shape x).units = some a := by
  obtain ⟨negative, m, e, shown⟩ := exists_shape finite
  rw [shown]
  exact ⟨_, rfl⟩

theorem exact_lt_iff (left : x.isFinite = true) (right : y.isFinite = true) :
    exact x < exact y ↔ x < y := by
  obtain ⟨a, xs⟩ := units_of_finite left
  obtain ⟨b, ys⟩ := units_of_finite right
  rw [exact_of_units left xs, exact_of_units right ys, lt_iff xs ys,
    div_lt_div_iff_of_pos_right one_pos_rat, Int.cast_lt]

theorem shape_of_pos (finite : x.isFinite = true) (pos : 0 < exact x) :
    ∃ m e, shape x = .finite false m e ∧ 0 < m ∧ exact x * one = magnitude m e := by
  obtain ⟨negative, m, e, shown⟩ := exists_shape finite
  have number := exact_of_shape shown
  cases negative
  · simp only [Bool.false_eq_true, if_false, one_mul] at number
    refine ⟨m, e, shown, ?_, ?_⟩
    · refine Nat.pos_of_ne_zero fun zero => ?_
      rw [number, zero, Nat.cast_zero, zero_mul] at pos
      exact lt_irrefl 0 pos
    · rw [number, magnitude_eq_mul (canonical_of_shape shown).least]
  · have nonneg : (0 : ℚ) ≤ m * 2 ^ e := by positivity
    simp only [if_true, neg_mul, one_mul] at number
    linarith

end Exact

/-! Numbers near the exact ones. -/

/-- A finite number from one to `2 ^ k` that is `q` up to one part in `2 ^ 53`. -/
structure Near (x : Float) (k : Nat) (q : ℚ) : Prop where
  finite : x.isFinite = true
  low : 1 ≤ exact x
  high : exact x ≤ 2 ^ k
  error : |exact x - q| ≤ q / 2 ^ 53

section Near
variable {x y : Float} {a b k : Nat}

theorem rounded_bounds (pos : 0 < b) (low : b ≤ a) (high : a ≤ 2 ^ k * b) :
    one ≤ rounded (a * one) b ∧ rounded (a * one) b ≤ 2 ^ k * one := by
  have power : 2 ^ k * one = 1 * 2 ^ (k + places) := by rw [one, Nat.one_mul, Nat.pow_add]
  constructor
  · calc one = rounded (1 * one) 1 := by rw [rounded_ones (by decide), Nat.one_mul]
      _ ≤ rounded (a * one) b := by
        apply rounded_mono Nat.one_pos pos
        rw [Nat.one_mul, Nat.mul_one, Nat.mul_comm]
        exact Nat.mul_le_mul_right one low
  · calc rounded (a * one) b ≤ rounded (2 ^ k * one) 1 := by
          apply rounded_mono pos Nat.one_pos
          rw [Nat.mul_one, Nat.mul_right_comm]
          exact Nat.mul_le_mul_right one high
      _ = 2 ^ k * one := by rw [power, rounded_whole (by decide)]

/-- The bounds of a rounded number in its units, as a distance. -/
theorem error_of_scaled {n a b unit : ℚ} (unit_pos : 0 < unit) (pos : 0 < b)
    (above : 2 ^ 53 * (n * b) ≤ 2 ^ 53 * (a * unit) + a * unit)
    (below : 2 ^ 53 * (a * unit) ≤ 2 ^ 53 * (n * b) + a * unit) :
    |n / unit - a / b| ≤ a / b / 2 ^ 53 := by
  have divisor : 0 < unit * b := mul_pos unit_pos pos
  have scaled : a / b / 2 ^ 53 * (unit * b) = a * unit / 2 ^ 53 := by
    field_simp
  rw [div_sub_div _ _ unit_pos.ne' pos.ne', abs_div, abs_of_pos divisor, div_le_iff₀ divisor,
    scaled, abs_le]
  constructor <;> linarith

theorem near_of_rounded (pos : 0 < b) (low : b ≤ a) (high : a ≤ 2 ^ k * b) (few : k < 1024)
    (shown : shape x = .ofUnits false (rounded (a * one) b)) : Near x k (a / b) := by
  obtain ⟨least, most⟩ := rounded_bounds pos low high
  have inside : rounded (a * one) b < beyond := by
    apply Nat.lt_of_le_of_lt most
    rw [one, beyond, magnitude, ← Nat.pow_add, ← Nat.pow_add]
    apply Nat.pow_lt_pow_right (by decide)
    rw [places]
    omega
  obtain ⟨m, e, value, same⟩ := finite_of_units pos shown inside
  have finite := isFinite_of_shape value
  have number : exact x = rounded (a * one) b / one := by
    have units : (shape x).units = some ((rounded (a * one) b : Nat) : Int) := by
      rw [value, Shape.units, same]
      rfl
    rw [exact_of_units finite units, Int.cast_natCast]
  have normal : 2 ^ 52 * b ≤ a * one := by
    rw [Nat.mul_comm a]
    exact Nat.mul_le_mul (Nat.pow_le_pow_right (by decide) (by decide)) low
  obtain ⟨above, below⟩ := rounded_near pos normal
  generalize rounded (a * one) b = n at *
  refine ⟨finite, ?_, ?_, ?_⟩
  · rw [number, le_div_iff₀ one_pos_rat, one_mul]
    exact Nat.cast_le.mpr least
  · rw [number, div_le_iff₀ one_pos_rat]
    exact_mod_cast most
  · rw [number]
    exact error_of_scaled one_pos_rat (Nat.cast_pos.mpr pos) (by exact_mod_cast above)
      (by exact_mod_cast below)

theorem near_ofNat {n : Nat} (pos : 0 < n) (fits : n ≤ 2 ^ k) (few : k < 1024) :
    Near (Float.ofNat n) k n := by
  have shown := near_of_rounded Nat.one_pos pos (by rwa [Nat.mul_one]) few (shape_ofNat n)
  rwa [Nat.cast_one, div_one] at shown

/-- A quotient from one on is near the exact one. -/
theorem near_div (dividend : x.isFinite = true) (divisor : y.isFinite = true)
    (pos : 0 < exact y) (low : exact y ≤ exact x) (high : exact x ≤ 2 ^ k * exact y)
    (few : k < 1024) : Near (x / y) k (exact x / exact y) := by
  obtain ⟨m, e, xs, -, xu⟩ := shape_of_pos dividend (lt_of_lt_of_le pos low)
  obtain ⟨n, f, ys, some, yu⟩ := shape_of_pos divisor pos
  have least : (magnitude n f : ℚ) ≤ magnitude m e := by
    rw [← xu, ← yu]
    exact mul_le_mul_of_nonneg_right low one_pos_rat.le
  have most : (magnitude m e : ℚ) ≤ 2 ^ k * magnitude n f := by
    rw [← xu, ← yu, ← mul_assoc]
    exact mul_le_mul_of_nonneg_right high one_pos_rat.le
  have same : (magnitude m e / magnitude n f : ℚ) = exact x / exact y := by
    rw [← xu, ← yu, mul_div_mul_right _ _ one_pos_rat.ne']
  have shown := shape_div xs ys some
  rw [← same]
  exact near_of_rounded (magnitude_pos f some) (Nat.cast_le.mp least) (by exact_mod_cast most)
    few shown

end Near
end ProofOfWork.Decimal
