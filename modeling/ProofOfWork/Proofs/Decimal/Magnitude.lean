import ProofOfWork.Proofs.Decimal.Operations
set_option autoImplicit false

namespace ProofOfWork.Decimal
open Float.Model

section Units
variable {x y : Float} {n k : Nat}

/-- A finite number that is not negative has some number of units. A zero may have a sign. -/
theorem finite_units (finite : x.isFinite = true) (least : 0 ≤ x) :
    ∃ n : Nat, (shape x).units = some (n : Int) ∧ n < beyond := by
  obtain ⟨negative, m, e, shown⟩ := exists_shape finite
  have units : (shape x).units = some (signed negative (magnitude m e)) := by
    rw [shown]
    rfl
  have signs := (le_iff units_zero units).mp least
  have below := magnitude_lt_beyond (canonical_of_shape shown)
  cases negative with
  | false => exact ⟨magnitude m e, units, below⟩
  | true =>
      simp only [signed, if_true] at signs units
      have nothing : magnitude m e = 0 := by omega
      exact ⟨0, by rw [units, nothing]; rfl, beyond_pos⟩

theorem finite_of_lt_beyond (units : (shape x).units = some (n : Int)) (inside : n < beyond) :
    ∃ negative m e, shape x = .finite negative m e ∧ magnitude m e = n ∧
      (negative = true → n = 0) := by
  cases shown : shape x with
  | notANumber =>
      rw [shown] at units
      cases units
  | infinite negative =>
      rw [shown, Shape.units, Option.some.injEq] at units
      cases negative <;> simp only [signed] at units <;> omega
  | finite negative m e =>
      rw [shown, Shape.units, Option.some.injEq] at units
      refine ⟨negative, m, e, rfl, ?_⟩
      cases negative with
      | true =>
          simp only [signed, if_true] at units
          exact ⟨by omega, fun _ => by omega⟩
      | false =>
          simp only [signed, Bool.false_eq_true, if_false] at units
          exact ⟨Int.ofNat_inj.mp units, Bool.noConfusion⟩

theorem isFinite_iff_lt (units : (shape x).units = some (n : Int)) :
    x.isFinite = true ↔ n < beyond := by
  constructor
  · intro finite
    obtain ⟨negative, m, e, shown⟩ := exists_shape finite
    have below := magnitude_lt_beyond (canonical_of_shape shown)
    rw [shown, Shape.units, Option.some.injEq] at units
    cases negative <;> simp only [signed] at units <;> omega
  · intro inside
    obtain ⟨negative, m, e, shown, -⟩ := finite_of_lt_beyond units inside
    exact isFinite_of_shape shown

theorem units_ofUnits {n d : Nat} (pos : 0 < d) (negative : Bool) :
    (Shape.ofUnits negative (rounded n d)).units =
      some (signed negative (min (rounded n d) beyond)) := by
  by_cases inside : rounded n d < beyond
  · obtain ⟨m, e, canonical, same⟩ := exists_of_rounded pos inside
    rw [← same, ofUnits_magnitude negative canonical, Shape.units,
      Nat.min_eq_left (Nat.le_of_lt (magnitude_lt_beyond canonical))]
  · have far := Nat.le_of_not_lt inside
    rw [Shape.ofUnits, if_pos far, Shape.units, Nat.min_eq_right far]

/-- What has a sign is zero, and then the sign does not count. -/
theorem units_unsigned {n d : Nat} (pos : 0 < d) {negative : Bool}
    (shown : shape x = .ofUnits negative (rounded n d)) (zero : negative = true → n = 0) :
    (shape x).units = some ((min (rounded n d) beyond : Nat) : Int) := by
  rw [shown, units_ofUnits pos]
  cases negative with
  | false => rfl
  | true =>
      rw [zero rfl, rounded_zero, Nat.zero_min]
      rfl

theorem units_mul (left : (shape x).units = some (n : Int)) (right : (shape y).units = some (k : Int))
    (inside : n < beyond) (inside' : k < beyond) :
    (shape (x * y)).units = some ((min (rounded (n * k) one) beyond : Nat) : Int) := by
  obtain ⟨negative, m, e, shown, rfl, zero⟩ := finite_of_lt_beyond left inside
  obtain ⟨other, m', e', shown', rfl, zero'⟩ := finite_of_lt_beyond right inside'
  refine units_unsigned one_pos (shape_mul shown shown') fun signs => ?_
  cases negative with
  | true => rw [zero rfl, Nat.zero_mul]
  | false => rw [zero' (by simpa using signs), Nat.mul_zero]

theorem units_div (left : (shape x).units = some (n : Int)) (right : (shape y).units = some (k : Int))
    (inside : n < beyond) (pos : 0 < k) (inside' : k < beyond) :
    (shape (x / y)).units = some ((min (rounded (n * one) k) beyond : Nat) : Int) := by
  obtain ⟨negative, m, e, shown, rfl, zero⟩ := finite_of_lt_beyond left inside
  obtain ⟨m', e', shown', rfl⟩ := shape_of_units right pos inside'
  have divisor : 0 < m' := by
    apply Nat.pos_of_ne_zero
    rintro rfl
    rw [magnitude_zero_mantissa] at pos
    exact Nat.lt_irrefl 0 pos
  refine units_unsigned pos (shape_div shown shown' divisor) fun signs => ?_
  rw [zero (by simpa using signs), Nat.zero_mul]

end Units

/-! Products and quotients keep the order of numbers that are not negative. -/

section Order
variable {x x' y y' : Float}

theorem ones_lt_beyond {n : Nat} (bits : n < 2 ^ 53) : n * one < beyond := by
  rw [beyond, magnitude]
  exact Nat.mul_lt_mul_of_lt_of_le bits (Nat.pow_le_pow_right (by decide) (by decide))
    (Nat.two_pow_pos _)

theorem units_ofNat {n : Nat} (bits : n < 2 ^ 53) :
    (shape (Float.ofNat n)).units = some ((n * one : Nat) : Int) := by
  rw [shape_ofNat, units_ofUnits Nat.one_pos, rounded_ones bits,
    Nat.min_eq_left (Nat.le_of_lt (ones_lt_beyond bits))]
  rfl

theorem isFinite_ofNat {n : Nat} (bits : n < 2 ^ 53) : (Float.ofNat n).isFinite = true :=
  (isFinite_iff_lt (units_ofNat bits)).mpr (ones_lt_beyond bits)

theorem ofNat_le {n k : Nat} (le : n ≤ k) (bits : k < 2 ^ 53) : Float.ofNat n ≤ Float.ofNat k :=
  (le_iff (units_ofNat (Nat.lt_of_le_of_lt le bits)) (units_ofNat bits)).mpr
    (Int.ofNat_le.mpr (Nat.mul_le_mul_right one le))

theorem ofNat_lt {n k : Nat} (less : n < k) (bits : k < 2 ^ 53) : Float.ofNat n < Float.ofNat k :=
  (lt_iff (units_ofNat (Nat.lt_trans less bits)) (units_ofNat bits)).mpr
    (Int.ofNat_lt.mpr (Nat.mul_lt_mul_of_pos_right less one_pos))

theorem finite_units_le (least : 0 ≤ x) (le : x ≤ x') (finite : x'.isFinite = true) :
    ∃ n n' : Nat, (shape x).units = some (n : Int) ∧ (shape x').units = some (n' : Int) ∧
      n ≤ n' ∧ n' < beyond := by
  obtain ⟨a, units⟩ := units_of_number (number_of_le le).1
  obtain ⟨b, units'⟩ := units_of_number (number_of_le le).2
  have low := (le_iff units_zero units).mp least
  have high := (le_iff units units').mp le
  obtain ⟨n, rfl⟩ := Int.eq_ofNat_of_zero_le low
  obtain ⟨n', rfl⟩ := Int.eq_ofNat_of_zero_le (Int.le_trans low high)
  exact ⟨n, n', units, units', Int.ofNat_le.mp high, (isFinite_iff_lt units').mp finite⟩

theorem float_le_trans {z : Float} (left : x ≤ y) (right : y ≤ z) : x ≤ z := by
  obtain ⟨a, low⟩ := units_of_number (number_of_le left).1
  obtain ⟨b, middle⟩ := units_of_number (number_of_le left).2
  obtain ⟨c, high⟩ := units_of_number (number_of_le right).2
  exact (le_iff low high).mpr
    (Int.le_trans ((le_iff low middle).mp left) ((le_iff middle high).mp right))

theorem isFinite_of_le (least : 0 ≤ x) (le : x ≤ x') (finite : x'.isFinite = true) :
    x.isFinite = true := by
  obtain ⟨n, n', units, -, near, inside⟩ := finite_units_le least le finite
  exact (isFinite_iff_lt units).mpr (Nat.lt_of_le_of_lt near inside)

theorem mul_le_mul (least : 0 ≤ x) (le : x ≤ x') (finite : x'.isFinite = true)
    (least' : 0 ≤ y) (le' : y ≤ y') (finite' : y'.isFinite = true) :
    0 ≤ x * y ∧ x * y ≤ x' * y' := by
  obtain ⟨n, n', units, units', near, inside⟩ := finite_units_le least le finite
  obtain ⟨k, k', other, other', near', inside'⟩ := finite_units_le least' le' finite'
  have product := units_mul units other (Nat.lt_of_le_of_lt near inside)
    (Nat.lt_of_le_of_lt near' inside')
  have product' := units_mul units' other' inside inside'
  have order : rounded (n * k) one ≤ rounded (n' * k') one :=
    rounded_mono one_pos one_pos (Nat.mul_le_mul_right _ (Nat.mul_le_mul near near'))
  refine ⟨(le_iff units_zero product).mpr (Int.natCast_nonneg _), ?_⟩
  exact (le_iff product product').mpr (Int.ofNat_le.mpr (by omega))

theorem div_le_div (least : 0 ≤ x) (le : x ≤ x') (finite : x'.isFinite = true)
    (pos : 0 < y) (finite' : y.isFinite = true) : 0 ≤ x / y ∧ x / y ≤ x' / y := by
  obtain ⟨n, n', units, units', near, inside⟩ := finite_units_le least le finite
  obtain ⟨a, other⟩ := units_of_number (number_of_lt pos).2
  have some_units := (lt_iff units_zero other).mp pos
  obtain ⟨k, rfl⟩ := Int.eq_ofNat_of_zero_le (Int.le_of_lt some_units)
  have divisor : 0 < k := Int.ofNat_lt.mp some_units
  have inside' := (isFinite_iff_lt other).mp finite'
  have quotient := units_div units other (Nat.lt_of_le_of_lt near inside) divisor inside'
  have quotient' := units_div units' other inside divisor inside'
  have order : rounded (n * one) k ≤ rounded (n' * one) k :=
    rounded_mono divisor divisor (Nat.mul_le_mul_right _ (Nat.mul_le_mul_right _ near))
  refine ⟨(le_iff units_zero quotient).mpr (Int.natCast_nonneg _), ?_⟩
  exact (le_iff quotient quotient').mpr (Int.ofNat_le.mpr (by omega))

theorem isFinite_div {n : Nat} (pos : 0 < n) (bits : n < 2 ^ 53) (least : 0 ≤ x)
    (finite : x.isFinite = true) : (x / Float.ofNat n).isFinite = true := by
  obtain ⟨units, some_units, inside⟩ := finite_units finite least
  have divisor : 0 < n * one := Nat.mul_pos pos one_pos
  have quotient := units_div some_units (units_ofNat bits) inside divisor (ones_lt_beyond bits)
  refine (isFinite_iff_lt quotient).mpr ?_
  obtain ⟨negative, m, e, shown, same, -⟩ := finite_of_lt_beyond some_units inside
  have settled : rounded units 1 = units := by
    rw [← same]
    exact rounded_whole (canonical_of_shape shown).bits
  have less : rounded (units * one) (n * one) ≤ rounded units 1 := by
    refine rounded_mono divisor Nat.one_pos ?_
    rw [Nat.mul_one]
    exact Nat.mul_le_mul_left _ (Nat.le_mul_of_pos_left _ pos)
  omega

theorem eq_of_units {n : Nat} (units : (shape x).units = some (n : Int))
    (units' : (shape y).units = some (n : Int)) (pos : 0 < n) (inside : n < beyond) : x = y := by
  obtain ⟨m, e, shown, rfl⟩ := shape_of_units units pos inside
  obtain ⟨m', e', shown', same⟩ := shape_of_units units' pos inside
  have left := ofUnits_magnitude false (canonical_of_shape shown)
  have right := ofUnits_magnitude false (canonical_of_shape shown')
  rw [same, left] at right
  apply eq_of_shape
  · rw [shown]
    exact nofun
  · rw [shown, shown', right]

end Order

/-! What is not finite stays so. -/

section Infinite
variable {x y : Float}

theorem not_isFinite_pack {f : UnpackedFloat} (endless : f = .notANumber ∨ ∃ s, f = .infinity s) :
    (Float.ofModel (.pack f)).isFinite = false := by
  rcases endless with rfl | ⟨s, rfl⟩
  · rfl
  · cases s <;> rfl

theorem endless_of_not_isFinite (endless : x.isFinite = false) :
    x.toModel.unpack = .notANumber ∨ ∃ s, x.toModel.unpack = .infinity s := by
  change x.toModel.unpack.isFinite = false at endless
  cases unpacked : x.toModel.unpack with
  | notANumber => exact .inl rfl
  | infinity s => exact .inr ⟨s, rfl⟩
  | zero s | finite s m e pos =>
      rw [unpacked] at endless
      cases endless

theorem isFinite_of_mul (finite : (x * y).isFinite = true) : x.isFinite = true := by
  by_contra endless
  rw [Bool.not_eq_true] at endless
  have product : (x * y).isFinite = false := by
    refine not_isFinite_pack ?_
    rcases endless_of_not_isFinite endless with unpacked | ⟨s, unpacked⟩
    · rw [unpacked]
      exact .inl rfl
    · rw [unpacked]
      cases y.toModel.unpack with
      | notANumber | zero t => exact .inl rfl
      | infinity t | finite t m e pos => exact .inr ⟨_, rfl⟩
  rw [product] at finite
  cases finite

theorem isFinite_of_div (finite : (x / y).isFinite = true) : x.isFinite = true := by
  by_contra endless
  rw [Bool.not_eq_true] at endless
  have quotient : (x / y).isFinite = false := by
    refine not_isFinite_pack ?_
    rcases endless_of_not_isFinite endless with unpacked | ⟨s, unpacked⟩
    · rw [unpacked]
      exact .inl rfl
    · rw [unpacked]
      cases y.toModel.unpack with
      | notANumber | infinity t => exact .inl rfl
      | zero t | finite t m e pos => exact .inr ⟨_, rfl⟩
  rw [quotient] at finite
  cases finite

end Infinite
end ProofOfWork.Decimal
