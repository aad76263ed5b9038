import ProofOfWork.Document.Json.Number
import ProofOfWork.Proofs.Decimal.Text
set_option autoImplicit false

/-!
The power of ten that is applied to the digits of a number. The digits, the power and their product
are rounded one after another, so the number may come out another one than it was. It is finite all
the same, and exact as long as digits and power are numbers themselves.
-/
namespace ProofOfWork.Document.Json
open Decimal

variable {f : Float} {m : Nat} {e : Int}

/-! Powers of ten. -/

def powerUnits (k : Nat) : Nat := rounded (10 ^ k * one) 1

theorem one_le_powerUnits (k : Nat) : one ≤ powerUnits k := by
  have single : 1 < 2 ^ 53 := by decide
  have unit : rounded (1 * one) 1 = 1 * one := rounded_ones single
  calc one = rounded (1 * one) 1 := by rw [unit, Nat.one_mul]
    _ ≤ powerUnits k := by
      apply rounded_mono Nat.one_pos Nat.one_pos
      exact Nat.mul_le_mul_right _ (Nat.mul_le_mul_right _ (Nat.pow_pos (by decide)))

theorem powerUnits_mono {j k : Nat} (le : j ≤ k) : powerUnits j ≤ powerUnits k := by
  apply rounded_mono Nat.one_pos Nat.one_pos
  exact Nat.mul_le_mul_right _ (Nat.mul_le_mul_right _ (Nat.pow_le_pow_right (by decide) le))

theorem powerUnits_lt {k : Nat} (few : k ≤ scaleStep) : powerUnits k < beyond := by
  have most : powerUnits scaleStep < beyond := by decide +kernel
  exact Nat.lt_of_le_of_lt (powerUnits_mono few) most

theorem shape_powerOfTen {k : Nat} (few : k ≤ scaleStep) : ∃ m e,
    shape (powerOfTen k) = .finite false m e ∧ magnitude m e = powerUnits k := by
  have shown := shape_nearest 1 (k : Int)
  have whole : (-(k : Int)).toNat = 0 := by omega
  rw [Nat.one_mul, Int.toNat_natCast, whole, Nat.pow_zero] at shown
  exact finite_of_units Nat.one_pos shown (powerUnits_lt few)

/-! Steps of scaling. -/

theorem shape_div_power (shown : shape f = .finite false m e) {k : Nat} (few : k ≤ scaleStep) :
    ∃ n t, shape (f / powerOfTen k) = .finite false n t ∧
      magnitude n t = rounded (magnitude m e * one) (powerUnits k) := by
  have canonical := canonical_of_shape shown
  obtain ⟨a, b, power, units⟩ := shape_powerOfTen few
  have least := one_le_powerUnits k
  have pos : 0 < powerUnits k := Nat.lt_of_lt_of_le Decimal.one_pos least
  have some : 0 < a := by
    apply Nat.pos_of_ne_zero
    rintro rfl
    rw [magnitude, Nat.zero_mul] at units
    omega
  have quotient := shape_div shown power some
  rw [units] at quotient
  apply finite_of_units pos quotient
  have same : rounded (magnitude m e) 1 = magnitude m e := rounded_whole canonical.bits
  calc rounded (magnitude m e * one) (powerUnits k) ≤ rounded (magnitude m e) 1 := by
        apply rounded_mono pos Nat.one_pos
        rw [Nat.mul_one]
        exact Nat.mul_le_mul_left _ least
    _ = magnitude m e := same
    _ < beyond := magnitude_lt_beyond canonical

theorem shape_mul_power (shown : shape f = .finite false m e) {k : Nat} (few : k ≤ scaleStep)
    (below : rounded (magnitude m e * powerUnits k) one < beyond) :
    ∃ n t, shape (f * powerOfTen k) = .finite false n t ∧
      magnitude n t = rounded (magnitude m e * powerUnits k) one := by
  obtain ⟨a, b, power, units⟩ := shape_powerOfTen few
  have product := shape_mul shown power
  rw [units] at product
  exact finite_of_units Decimal.one_pos product below

/-- The digits times a power of ten. -/
theorem scaled_up (shown : shape f = .finite false m e) {k : Nat} (few : k ≤ scaleStep)
    (below : rounded (magnitude m e * powerUnits k) one < beyond) (fuel : Nat) :
    ∃ y n t, scaled? fuel f k = some y ∧ shape y = .finite false n t ∧
      magnitude n t = rounded (magnitude m e * powerUnits k) one := by
  obtain ⟨n, t, product, units⟩ := shape_mul_power shown few below
  refine ⟨_, n, t, ?_, product, units⟩
  have within : (k : Int).natAbs ≤ scaleStep := few
  have up : (k : Int) ≥ 0 := Int.natCast_nonneg k
  rw [scaled?.eq_def, if_pos within, if_pos up]
  simp only [Int.natAbs_natCast, isInf_of_shape product, Bool.false_eq_true, if_false]

/-- The digits divided by a power of ten that is a number. -/
theorem scaled_down (shown : shape f = .finite false m e) {k : Nat} (pos : 0 < k)
    (few : k ≤ scaleStep) (fuel : Nat) :
    ∃ y n t, scaled? fuel f (-(k : Int)) = some y ∧ shape y = .finite false n t ∧
      magnitude n t = rounded (magnitude m e * one) (powerUnits k) := by
  obtain ⟨n, t, quotient, units⟩ := shape_div_power shown few
  refine ⟨_, n, t, ?_, quotient, units⟩
  have within : (-(k : Int)).natAbs ≤ scaleStep := by omega
  have down : ¬(-(k : Int)) ≥ 0 := by omega
  rw [scaled?.eq_def, if_pos within, if_neg down]
  simp only [Int.natAbs_neg, Int.natAbs_natCast]

/-- Any negative power leaves a finite number; a very small one is applied in steps. -/
theorem scaled_finite (shown : shape f = .finite false m e) {k : Nat} (pos : 0 < k) (fuel : Nat) :
    ∃ y n t, scaled? fuel f (-(k : Int)) = some y ∧ shape y = .finite false n t := by
  -- each step of the fuel takes the largest power of the table off
  induction fuel generalizing f m e k with
  | zero =>
      by_cases few : k ≤ scaleStep
      · obtain ⟨y, n, t, scaled, quotient, -⟩ := scaled_down shown pos few 0
        exact ⟨y, n, t, scaled, quotient⟩
      · have far : ¬(-(k : Int)).natAbs ≤ scaleStep := by omega
        have down : ¬(-(k : Int)) ≥ 0 := by omega
        rw [scaled?, if_neg far, if_neg down]
        split
        · exact ⟨f, m, e, rfl, shown⟩
        · exact ⟨0, 0, -1074, rfl, shape_zero⟩
  | succ fuel ih =>
      by_cases few : k ≤ scaleStep
      · obtain ⟨y, n, t, scaled, quotient, -⟩ := scaled_down shown pos few (fuel + 1)
        exact ⟨y, n, t, scaled, quotient⟩
      · have far : ¬(-(k : Int)).natAbs ≤ scaleStep := by omega
        have down : ¬(-(k : Int)) ≥ 0 := by omega
        rw [scaled?, if_neg far, if_neg down]
        split
        · exact ⟨f, m, e, rfl, shown⟩
        · obtain ⟨n, t, step, -⟩ := shape_div_power shown (Nat.le_refl scaleStep)
          have rest : -(k : Int) + scaleStep = -((k - scaleStep : Nat) : Int) := by omega
          have some : 0 < k - scaleStep := by omega
          rw [rest]
          exact ih step some

/-! The decimals of numbers. -/

/-- The number that the text of a number is read as. -/
def reread (x : Float) : Float :=
  match shape x with
  | .finite negative m e =>
    let s := jsonLayout.decimal m e
    let y := (scaled? 8 (Float.ofNat s.digits) s.exponent).getD 0
    if negative then -y else y
  | _ => x

/-- The greatest whole number that is rounded to less than the greatest finite number. -/
def edge : Nat := 2 ^ 1024 - 2 ^ 971 - 2 ^ 970

/-- Digits times a power of ten, each of them and the product rounded. -/
def productUnits (d k : Nat) : Nat := rounded (rounded (d * one) 1 * powerUnits k) one

theorem productUnits_mono {c d j k : Nat} (digits : c ≤ d) (power : j ≤ k) :
    productUnits c j ≤ productUnits d k := by
  apply rounded_mono Decimal.one_pos Decimal.one_pos
  apply Nat.mul_le_mul_right
  apply Nat.mul_le_mul _ (powerUnits_mono power)
  apply rounded_mono Nat.one_pos Nat.one_pos
  exact Nat.mul_le_mul_right _ (Nat.mul_le_mul_right _ digits)

/-- From the power on at which digits may be too many, the most digits of each power. -/
theorem productUnits_table : 10 ^ 17 * 10 ^ 290 ≤ edge ∧ ∀ j : Fin 19,
    productUnits (min (edge / 10 ^ (290 + j.val)) (10 ^ 17)) (290 + j.val) < beyond := by
  decide +kernel

theorem productUnits_lt {d k : Nat} (few : k ≤ scaleStep) (digits : d ≤ 10 ^ 17)
    (below : d * 10 ^ k ≤ edge) : productUnits d k < beyond := by
  -- below the rows of the table, the first one is a bound
  have first : d * 10 ^ (max k 290) ≤ edge := by
    rcases Nat.le_total k 290 with small | large
    · rw [Nat.max_eq_right small]
      exact Nat.le_trans (Nat.mul_le_mul_right _ digits) productUnits_table.1
    · rw [Nat.max_eq_left large]
      exact below
  have row := productUnits_table.2 ⟨max k 290 - 290, by rw [scaleStep] at few; omega⟩
  have same : 290 + (max k 290 - 290) = max k 290 := by omega
  dsimp only at row
  rw [same] at row
  refine Nat.lt_of_le_of_lt (productUnits_mono (Nat.le_min.mpr ⟨?_, digits⟩) (Nat.le_max_left k 290)) row
  exact (Nat.le_div_iff_mul_le (Nat.pow_pos (by decide))).mpr first

theorem shape_digits {d : Nat} (few : d < 10 ^ 17) : ∃ m e,
    shape (Float.ofNat d) = .finite false m e ∧ magnitude m e = rounded (d * one) 1 := by
  have below : powerUnits 17 < beyond := powerUnits_lt (by decide)
  apply finite_of_units Nat.one_pos (shape_ofNat d)
  refine Nat.lt_of_le_of_lt (rounded_mono Nat.one_pos Nat.one_pos ?_) below
  exact Nat.mul_le_mul_right _ (Nat.mul_le_mul_right _ (Nat.le_of_lt few))

section
variable {x : Float} {negative : Bool}

theorem exponent_bounds {s : Scaled} (pos : 0 < s.digits) (few : s.digits < 10 ^ 17)
    (some : 0 < s.rounded) (below : s.rounded < beyond) : -347 ≤ s.exponent ∧ s.exponent ≤ 310 := by
  have length : (Nat.toDigits 10 s.digits).length ≤ 17 :=
    (Nat.length_toDigits_le_iff (by decide) (by decide)).mpr few
  have filled : 0 < (Nat.toDigits 10 s.digits).length := Nat.length_toDigits_pos
  have near : ¬310 < ((Nat.toDigits 10 s.digits).length : Int) + s.exponent := fun large =>
    Nat.not_lt.mpr (beyond_le_rounded pos large) below
  have far : ¬((Nat.toDigits 10 s.digits).length : Int) + s.exponent < -330 := fun small =>
    Nat.ne_of_gt some (rounded_tiny small)
  omega

theorem decimal_rounded (shown : shape x = .finite negative m e) :
    (jsonLayout.decimal m e).rounded = magnitude m e := by
  rw [Layout.decimal]
  rcases Nat.eq_zero_or_pos m with rfl | pos
  · rw [if_pos rfl, magnitude_zero_mantissa, Scaled.rounded, Nat.zero_mul, Nat.zero_mul, rounded_zero]
  · rw [if_neg (Nat.ne_of_gt pos), Layout.written_rounded]
    exact (shortest_spec _ (canonical_of_shape shown) pos).2.2

/-- The digits of a number's decimal all fit, and its exponent is near. -/
theorem decimal_bounds (shown : shape x = .finite negative m e) :
    (jsonLayout.decimal m e).digits < 10 ^ 17 ∧ -347 ≤ (jsonLayout.decimal m e).exponent ∧
      (jsonLayout.decimal m e).exponent ≤ 310 := by
  have canonical := canonical_of_shape shown
  rw [Layout.decimal]
  have keeps : jsonLayout.keepsPoint = true := rfl
  rcases Nat.eq_zero_or_pos m with rfl | pos
  · rw [if_pos rfl, keeps, if_pos rfl]
    decide
  · rw [if_neg (Nat.ne_of_gt pos)]
    obtain ⟨some, few, same⟩ := shortest_spec jsonLayout.tie canonical pos
    generalize shortest jsonLayout.tie m e = s at some few same
    obtain ⟨least, most⟩ := exponent_bounds some few (same ▸ magnitude_pos e pos)
      (same ▸ magnitude_lt_beyond canonical)
    rw [Layout.written]
    split
    · rename_i positional
      have point : s.exponent + (Text.decimal s.digits).length ≤ 16 := by
        have within := positional.1
        simp only [Layout.inside, jsonLayout, Bool.and_eq_true, decide_eq_true_eq] at within
        exact within.2
      refine ⟨?_, by dsimp only; decide, by dsimp only; decide⟩
      have digits := lt_pow_digits s.digits
      have power : (Nat.toDigits 10 s.digits).length + (s.exponent.toNat + 1) ≤ 17 := by
        have whole := positional.2
        rw [Text.decimal] at point
        omega
      calc s.digits * 10 ^ (s.exponent.toNat + 1)
          < 10 ^ (Nat.toDigits 10 s.digits).length * 10 ^ (s.exponent.toNat + 1) :=
            Nat.mul_lt_mul_of_pos_right digits (Nat.pow_pos (by decide))
        _ = 10 ^ ((Nat.toDigits 10 s.digits).length + (s.exponent.toNat + 1)) := (Nat.pow_add ..).symm
        _ ≤ 10 ^ 17 := Nat.pow_le_pow_right (by decide) power
    · exact ⟨few, least, most⟩

/-- The decimal of the greatest number is not the largest that is rounded to it. -/
theorem decimal_greatest : jsonLayout.decimal (2 ^ 53 - 1) 971 = ⟨17976931348623157, 292⟩ ∧
    productUnits 17976931348623157 292 < beyond ∧
    magnitude (2 ^ 53 - 1) 971 ≤ rounded ((edge + 1) * one) 1 := by
  decide +kernel

theorem product_decimal (shown : shape x = .finite negative m e) {k : Nat}
    (power : (jsonLayout.decimal m e).exponent = k) :
    k ≤ scaleStep ∧ productUnits (jsonLayout.decimal m e).digits k < beyond := by
  have canonical := canonical_of_shape shown
  have same := decimal_rounded shown
  obtain ⟨few, -, -⟩ := decimal_bounds shown
  have whole : (-(k : Int)).toNat = 0 := by omega
  rw [Scaled.rounded, power, Int.toNat_natCast, whole, Nat.pow_zero] at same
  have limit := magnitude_lt_beyond canonical
  rw [← same] at limit
  have some : 0 < (jsonLayout.decimal m e).digits := by
    apply Nat.pos_of_ne_zero
    intro none
    rw [none, Nat.zero_mul, Nat.zero_mul, rounded_zero] at same
    obtain rfl : m = 0 := Nat.eq_zero_of_not_pos fun pos => Nat.ne_of_lt (magnitude_pos e pos) same
    rw [Layout.decimal, if_pos rfl] at power
    cases power
  have step : k ≤ scaleStep := by
    apply Nat.le_of_not_lt
    intro large
    have far : beyond ≤ powerUnits 309 := beyond_le_ten_pow
    have more : powerUnits k ≤ rounded ((jsonLayout.decimal m e).digits * 10 ^ k * one) 1 := by
      apply rounded_mono Nat.one_pos Nat.one_pos
      exact Nat.mul_le_mul_right 1 (Nat.mul_le_mul_right one (Nat.le_mul_of_pos_left _ some))
    exact Nat.not_lt.mpr (Nat.le_trans far (Nat.le_trans (powerUnits_mono large) more)) limit
  refine ⟨step, ?_⟩
  -- the decimal of the greatest number lies above the edge that bounds all others
  by_cases top : magnitude m e = magnitude (2 ^ 53 - 1) 971
  · have greatest : Canonical (2 ^ 53 - 1) 971 := ⟨by decide, by decide, by decide, .inl (by decide)⟩
    have shapes := ofUnits_magnitude false canonical
    rw [top, ofUnits_magnitude false greatest] at shapes
    obtain ⟨-, rfl, rfl⟩ := Shape.finite.inj shapes
    rw [decimal_greatest.1] at power ⊢
    obtain rfl : 292 = k := Int.ofNat.inj power
    exact decimal_greatest.2.1
  · have below := Nat.lt_of_le_of_ne (magnitude_le_greatest canonical) top
    refine productUnits_lt step (Nat.le_of_lt few) ?_
    apply Nat.le_of_not_lt
    intro large
    have far := decimal_greatest.2.2
    rw [← same] at below
    refine Nat.not_lt.mpr (Nat.le_trans far (rounded_mono Nat.one_pos Nat.one_pos ?_)) below
    have next : edge + 1 ≤ (jsonLayout.decimal m e).digits * 10 ^ k :=
      Nat.lt_iff_add_one_le.mp large
    exact Nat.mul_le_mul_right _ (Nat.mul_le_mul_right _ next)

theorem scaled_decimal (shown : shape x = .finite negative m e) :
    ∃ y n t, scaled? 8 (Float.ofNat (jsonLayout.decimal m e).digits)
      (jsonLayout.decimal m e).exponent = some y ∧ shape y = .finite false n t := by
  obtain ⟨few, -, -⟩ := decimal_bounds shown
  obtain ⟨a, b, digits, units⟩ := shape_digits few
  rcases Int.lt_or_le (jsonLayout.decimal m e).exponent 0 with negative | whole
  · have some : 0 < (jsonLayout.decimal m e).exponent.natAbs := by omega
    obtain ⟨y, n, t, scaled, finite⟩ := scaled_finite digits some 8
    have power : -((jsonLayout.decimal m e).exponent.natAbs : Int) =
        (jsonLayout.decimal m e).exponent := by omega
    rw [power] at scaled
    exact ⟨y, n, t, scaled, finite⟩
  · obtain ⟨k, power⟩ := Int.eq_ofNat_of_zero_le whole
    obtain ⟨step, below⟩ := product_decimal shown power
    rw [productUnits, ← units] at below
    obtain ⟨y, n, t, scaled, finite, -⟩ := scaled_up digits step below 8
    rw [power]
    exact ⟨y, n, t, scaled, finite⟩

/-- A number is read as a finite number of its sign. -/
theorem reread_finite (shown : shape x = .finite negative m e) :
    ∃ n t, shape (reread x) = .finite negative n t := by
  obtain ⟨y, n, t, scaled, finite⟩ := scaled_decimal shown
  rw [reread, shown]
  dsimp only
  rw [scaled, Option.getD_some]
  cases negative with
  | true => exact ⟨n, t, shape_neg finite⟩
  | false => exact ⟨n, t, finite⟩

theorem powerUnits_exact {k : Nat} (few : k ≤ 22) : powerUnits k = 10 ^ k * one :=
  (shape_powers_table ⟨k, Nat.lt_succ_of_le few⟩).2.1

/-- Digits of 53 bits and a power of ten that is a number are rounded only once. -/
theorem scaled_exact (shown : shape x = .finite negative m e)
    (digits : (jsonLayout.decimal m e).digits < 2 ^ 53)
    (power : (jsonLayout.decimal m e).exponent.natAbs ≤ 22) :
    ∃ y n t, scaled? 8 (Float.ofNat (jsonLayout.decimal m e).digits)
      (jsonLayout.decimal m e).exponent = some y ∧ shape y = .finite false n t ∧
        magnitude n t = magnitude m e := by
  rw [← decimal_rounded shown, Scaled.rounded]
  obtain ⟨few, -, -⟩ := decimal_bounds shown
  have product (k : Nat) := product_decimal (k := k) shown
  generalize jsonLayout.decimal m e = s at digits power few product ⊢
  obtain ⟨d, p⟩ := s
  dsimp only at digits power few product ⊢
  obtain ⟨a, b, number, units⟩ := shape_digits few
  have whole := rounded_ones digits
  rw [whole] at units
  have tens (k : Nat) : 0 < 10 ^ k := Nat.pow_pos (by decide)
  rcases Int.lt_or_le p 0 with below | above
  · obtain ⟨k, rfl⟩ : ∃ k : Nat, p = -(k : Int) := ⟨p.natAbs, by omega⟩
    have few : k ≤ 22 := by omega
    obtain ⟨y, n, t, scaled, shown, same⟩ :=
      scaled_down number (by omega) (Nat.le_trans few (by decide)) 8
    refine ⟨y, n, t, scaled, shown, same.trans ?_⟩
    have none : (-(k : Int)).toNat = 0 := by omega
    rw [units, powerUnits_exact few, none, Int.neg_neg, Int.toNat_natCast, Nat.pow_zero, Nat.mul_one]
    apply rounded_congr (Nat.mul_pos (tens k) Decimal.one_pos) (tens k)
    ring
  · obtain ⟨k, rfl⟩ := Int.eq_ofNat_of_zero_le above
    have few : k ≤ 22 := by omega
    obtain ⟨step, limit⟩ := product k rfl
    rw [productUnits, whole, ← units] at limit
    obtain ⟨y, n, t, scaled, shown, same⟩ := scaled_up number step limit 8
    refine ⟨y, n, t, scaled, shown, same.trans ?_⟩
    have none : (-(k : Int)).toNat = 0 := by omega
    rw [units, powerUnits_exact few, none, Int.toNat_natCast, Nat.pow_zero]
    apply rounded_congr Decimal.one_pos Nat.one_pos
    ring

theorem reread_exact (shown : shape x = .finite negative m e)
    (digits : (jsonLayout.decimal m e).digits < 2 ^ 53)
    (power : (jsonLayout.decimal m e).exponent.natAbs ≤ 22) : reread x = x := by
  obtain ⟨y, n, t, scaled, finite, same⟩ := scaled_exact shown digits power
  have read : shape (reread x) = shape x := by
    have parts : Shape.finite false n t = .finite false m e := by
      rw [← ofUnits_magnitude false (canonical_of_shape finite), same,
        ofUnits_magnitude false (canonical_of_shape shown)]
    obtain ⟨-, rfl, rfl⟩ := Shape.finite.inj parts
    rw [reread, shown]
    dsimp only
    rw [scaled, Option.getD_some]
    cases negative with
    | true => exact shape_neg finite
    | false => exact finite
  refine eq_of_shape ?_ read
  rw [read, shown]
  exact nofun

/-- Whether the digits of a number's text and their power of ten are numbers themselves. -/
def scalesExactly (x : Float) : Bool :=
  match shape x with
  | .finite _ m e =>
    let s := jsonLayout.decimal m e
    s.digits < 2 ^ 53 && s.exponent.natAbs ≤ 22
  | _ => false

theorem reread_of_scalesExactly (exact : scalesExactly x = true) : reread x = x := by
  unfold scalesExactly at exact
  split at exact
  · rename_i shown
    simp only [Bool.and_eq_true, decide_eq_true_eq] at exact
    exact reread_exact shown exact.1 exact.2
  · cases exact

end

end ProofOfWork.Document.Json
