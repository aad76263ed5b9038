import ProofOfWork.Proofs.Decimal.Rounding
set_option autoImplicit false

namespace ProofOfWork.Decimal
open Float.Model Float.Model.UnpackedFloat

@[simp]
theorem isNegative_mul (s t : Sign) : isNegative (s * t) = (isNegative s ^^ isNegative t) := by
  cases s <;> cases t <;> rfl

@[simp]
theorem isNegative_div (s t : Sign) : isNegative (s / t) = (isNegative s ^^ isNegative t) := by
  cases s <;> cases t <;> rfl

theorem shape_round_exact (s : Sign) {m : Nat} {e : Int} (wide : 2 ^ 52 ≤ m ∨ e ≤ -1074) :
    shape (.ofModel (.pack (roundWithAccuracy Format.binary64 s m e .exact))) =
      .ofUnits (isNegative s)
        (rounded (m * 2 ^ (e + 1074).toNat) (2 ^ (-(e + 1074)).toNat)) := by
  have rounds := shape_roundWithAccuracy (n := m) (e := e) s Nat.one_pos
    (by rw [Nat.div_one]; exact wide)
  have whole : accuracyOfFraction (m % 1) 1 = .exact := by
    rw [Nat.mod_one]
    rfl
  rw [whole, Nat.div_one, Nat.one_mul] at rounds
  exact rounds

/-- The product of unpacked numbers, which need not have 53 bits each. -/
theorem shape_mul_unpacked (s t : Sign) {m n : Nat} {e f : Int} (pos : 0 < m) (pos' : 0 < n)
    (wide : 2 ^ 52 ≤ m * n ∨ e + f ≤ -1074) :
    shape (.ofModel (.pack (UnpackedFloat.mul Format.binary64 (.finite s m e pos)
      (.finite t n f pos')))) =
      .ofUnits (isNegative s ^^ isNegative t)
        (rounded (m * n * 2 ^ (e + f + 1074).toNat) (2 ^ (-(e + f + 1074)).toNat)) := by
  rw [← isNegative_mul]
  exact shape_round_exact (s * t) wide

/-- The quotient of unpacked numbers. -/
theorem shape_div_unpacked (s t : Sign) {m n : Nat} {e f : Int} (pos : 0 < m) (pos' : 0 < n) :
    shape (.ofModel (.pack (UnpackedFloat.div Format.binary64 (.finite s m e pos)
      (.finite t n f pos')))) =
      .ofUnits (isNegative s ^^ isNegative t)
        (rounded (m * 2 ^ (e - f + 1074).toNat) (n * 2 ^ (-(e - f + 1074)).toNat)) := by
  have target : Format.binary64.targetExponent (totalExponent m e - totalExponent n f) =
      max (((m.log2 : Int) - n.log2) + (e - f) - 53) (-1074) := by
    have bits : Format.binary64.mantissaBits = 53 := rfl
    have least : Format.binary64.minExponent = -1074 := rfl
    rw [Format.targetExponent, totalExponent, totalExponent, bits, least]
    omega
  rw [← isNegative_div]
  change shape (.ofModel (.pack (roundWithAccuracy Format.binary64 (s / t)
    ((m <<< (e - f - min (e - f) (Format.binary64.targetExponent
      (totalExponent m e - totalExponent n f))).toNat) / n) _ (accuracyOfFraction (_ % n) n)))) = _
  rw [target]
  obtain ⟨g, known⟩ : ∃ g, g = min (e - f) (max (((m.log2 : Int) - n.log2) + (e - f) - 53) (-1074)) :=
    ⟨_, rfl⟩
  rw [← known, Nat.shiftLeft_eq]
  -- the dividend is shifted until the quotient has its bits, or as far as the least exponent
  have wide : 2 ^ 52 ≤ m * 2 ^ (e - f - g).toNat / n ∨ g ≤ -1074 := by
    by_cases least : g ≤ -1074
    · exact .inr least
    · left
      rw [Nat.le_div_iff_mul_le pos']
      have above := Nat.log2_self_le (Nat.ne_of_gt pos)
      have below : n < 2 ^ (n.log2 + 1) := Nat.lt_log2_self
      calc 2 ^ 52 * n ≤ 2 ^ 52 * 2 ^ (n.log2 + 1) := Nat.mul_le_mul_left _ (Nat.le_of_lt below)
        _ = 2 ^ (52 + (n.log2 + 1)) := (Nat.pow_add 2 52 _).symm
        _ ≤ 2 ^ (m.log2 + (e - f - g).toNat) := by
            apply Nat.pow_le_pow_right (by decide)
            omega
        _ = 2 ^ m.log2 * 2 ^ (e - f - g).toNat := Nat.pow_add 2 _ _
        _ ≤ m * 2 ^ (e - f - g).toNat := Nat.mul_le_mul_right _ above
  rw [shape_roundWithAccuracy (s / t) pos' wide]
  refine congrArg (Shape.ofUnits _) ?_
  apply rounded_congr (Nat.mul_pos pos' (Nat.two_pow_pos _)) (Nat.mul_pos pos' (Nat.two_pow_pos _))
  calc m * 2 ^ (e - f - g).toNat * 2 ^ (g + 1074).toNat * (n * 2 ^ (-(e - f + 1074)).toNat)
      = m * n * 2 ^ ((e - f - g).toNat + (g + 1074).toNat + (-(e - f + 1074)).toNat) := by ring
    _ = m * n * 2 ^ ((e - f + 1074).toNat + (-(g + 1074)).toNat) := by
        congr 2
        omega
    _ = m * 2 ^ (e - f + 1074).toNat * (n * 2 ^ (-(g + 1074)).toNat) := by ring

section Floats
variable {x y : Float} {negative other : Bool} {m n : Nat} {e f : Int}

@[simp] theorem rounded_zero (d : Nat) : rounded 0 d = 0 := by
  have grid : gridOf 0 d = 0 := by
    rw [gridOf, Nat.zero_div]
    rfl
  have nearest : roundHalfEven 0 (d * 2 ^ 0) = 0 := by
    unfold roundHalfEven
    rw [Nat.zero_div, Nat.zero_mod]
    exact if_neg (by omega)
  rw [rounded, grid, nearest, Nat.zero_mul]

@[simp] theorem magnitude_zero_mantissa (e : Int) : magnitude 0 e = 0 := Nat.zero_mul _

theorem shape_mul (left : shape x = .finite negative m e) (right : shape y = .finite other n f) :
    shape (x * y) = .ofUnits (negative ^^ other)
      (rounded (magnitude m e * magnitude n f) one) := by
  change shape (.ofModel (.pack (UnpackedFloat.mul _ x.toModel.unpack y.toModel.unpack))) = _
  have first := canonical_of_shape left
  have second := canonical_of_shape right
  rcases Nat.eq_zero_or_pos m with rfl | pos
  · obtain ⟨s, rfl, unpacked⟩ := unpack_zero left
    rw [unpacked, magnitude_zero_mantissa, Nat.zero_mul, rounded_zero]
    rcases Nat.eq_zero_or_pos n with rfl | pos'
    · obtain ⟨t, rfl, unpacked⟩ := unpack_zero right
      rw [unpacked, ← isNegative_mul]
      exact shape_pack_zero (s * t)
    · obtain ⟨t, rfl, unpacked⟩ := unpack_finite right pos'
      rw [unpacked, ← isNegative_mul]
      exact shape_pack_zero (s * t)
  · obtain ⟨s, rfl, unpacked⟩ := unpack_finite left pos
    rw [unpacked]
    rcases Nat.eq_zero_or_pos n with rfl | pos'
    · obtain ⟨t, rfl, unpacked⟩ := unpack_zero right
      rw [unpacked, magnitude_zero_mantissa, Nat.mul_zero, rounded_zero, ← isNegative_mul]
      exact shape_pack_zero (s * t)
    · obtain ⟨t, rfl, unpacked⟩ := unpack_finite right pos'
      have wide : 2 ^ 52 ≤ m * n ∨ e + f ≤ -1074 := by
        rcases first.leading with set | rfl
        · exact .inl (Nat.le_trans set (Nat.le_mul_of_pos_right m pos'))
        · rcases second.leading with set | rfl
          · exact .inl (Nat.le_trans set (Nat.le_mul_of_pos_left n pos))
          · exact .inr (by decide)
      rw [unpacked, shape_mul_unpacked s t pos pos' wide]
      refine congrArg (Shape.ofUnits _) ?_
      apply rounded_congr (Nat.two_pow_pos _) one_pos
      have least := first.least
      have least' := second.least
      calc m * n * 2 ^ (e + f + 1074).toNat * one
          = m * n * 2 ^ ((e + f + 1074).toNat + places) := by rw [one]; ring
        _ = m * n * 2 ^ ((e + 1074).toNat + (f + 1074).toNat + (-(e + f + 1074)).toNat) := by
            congr 2
            rw [places]
            omega
        _ = magnitude m e * magnitude n f * 2 ^ (-(e + f + 1074)).toNat := by
            rw [magnitude, magnitude]
            ring

theorem shape_div (left : shape x = .finite negative m e) (right : shape y = .finite other n f)
    (pos' : 0 < n) : shape (x / y) = .ofUnits (negative ^^ other)
      (rounded (magnitude m e * one) (magnitude n f)) := by
  change shape (.ofModel (.pack (UnpackedFloat.div _ x.toModel.unpack y.toModel.unpack))) = _
  have first := canonical_of_shape left
  have second := canonical_of_shape right
  obtain ⟨t, rfl, divisor⟩ := unpack_finite right pos'
  rw [divisor]
  rcases Nat.eq_zero_or_pos m with rfl | pos
  · obtain ⟨s, rfl, unpacked⟩ := unpack_zero left
    rw [unpacked, magnitude_zero_mantissa, Nat.zero_mul, rounded_zero, ← isNegative_div]
    exact shape_pack_zero (s / t)
  · obtain ⟨s, rfl, unpacked⟩ := unpack_finite left pos
    rw [unpacked, shape_div_unpacked s t pos pos']
    refine congrArg (Shape.ofUnits _) ?_
    apply rounded_congr (Nat.mul_pos pos' (Nat.two_pow_pos _)) (magnitude_pos f pos')
    have least := first.least
    have least' := second.least
    calc m * 2 ^ (e - f + 1074).toNat * magnitude n f
        = m * n * 2 ^ ((e - f + 1074).toNat + (f + 1074).toNat) := by rw [magnitude]; ring
      _ = m * n * 2 ^ ((e + 1074).toNat + places + (-(e - f + 1074)).toNat) := by
          congr 2
          rw [places]
          omega
      _ = magnitude m e * one * (n * 2 ^ (-(e - f + 1074)).toNat) := by
          rw [magnitude, one]
          ring

end Floats

/-! The shape of a number tells its bits. -/

theorem eq_of_toBits {x y : Float} (same : x.toBits.toNat = y.toBits.toNat) : x = y := by
  obtain ⟨⟨a, _⟩⟩ := x
  obtain ⟨⟨b, _⟩⟩ := y
  obtain rfl : a = b := UInt64.toNat_inj.mp same
  rfl

theorem eq_of_shape {x y : Float} (number : shape x ≠ .notANumber) (same : shape x = shape y) :
    x = y := by
  apply eq_of_toBits
  have left := x.toBits.toNat_lt
  have right := y.toBits.toNat_lt
  unfold shape at number same
  dsimp only at number same
  generalize x.toBits.toNat = a at *
  generalize y.toBits.toNat = b at *
  have sign (c d : Nat) (equal : decide (c / 2 ^ 63 % 2 = 1) = decide (d / 2 ^ 63 % 2 = 1)) :
      c / 2 ^ 63 % 2 = d / 2 ^ 63 % 2 := by
    have either := decide_eq_decide.mp equal
    omega
  -- exponents with all bits set and with none are read in their own ways
  by_cases top : a / 2 ^ 52 % 2 ^ 11 = 2047
  · rw [if_pos top] at number same
    split at same
    · rename_i blank
      split at same
      · split at same
        · have signs := sign a b (Shape.infinite.inj same)
          omega
        · cases same
      · split at same <;> cases same
    · rename_i marked
      exact absurd (if_neg marked) number
  · rw [if_neg top] at same
    by_cases bottom : a / 2 ^ 52 % 2 ^ 11 = 0
    · rw [if_pos bottom] at same
      split at same
      · split at same <;> cases same
      · split at same
        · obtain ⟨signs, fraction, -⟩ := Shape.finite.inj same
          have signs := sign a b signs
          omega
        · obtain ⟨-, fraction, -⟩ := Shape.finite.inj same
          omega
    · rw [if_neg bottom] at same
      split at same
      · split at same <;> cases same
      · split at same
        · obtain ⟨-, fraction, -⟩ := Shape.finite.inj same
          omega
        · obtain ⟨signs, fraction, exponent⟩ := Shape.finite.inj same
          have signs := sign a b signs
          rw [Int.ofNat_eq_natCast, Int.ofNat_eq_natCast] at exponent
          omega

section Negation
variable {x : Float} {negative : Bool} {m : Nat} {e : Int}

@[simp] theorem isNegative_neg (s : Sign) : isNegative (-s) = !isNegative s := by
  cases s <;> rfl

theorem shape_neg (shown : shape x = .finite negative m e) : shape (-x) = .finite (!negative) m e := by
  have canonical := canonical_of_shape shown
  change shape (.ofModel (.pack (UnpackedFloat.neg x.toModel.unpack))) = _
  rcases Nat.eq_zero_or_pos m with rfl | pos
  · obtain ⟨s, rfl, unpacked⟩ := unpack_zero shown
    rw [unpacked]
    change shape (.ofModel (.pack (.zero (-s)))) = _
    have units := ofUnits_magnitude (!isNegative s) canonical
    rw [magnitude_zero_mantissa] at units
    rw [shape_pack_zero, isNegative_neg, units]
  · obtain ⟨s, rfl, unpacked⟩ := unpack_finite shown pos
    rw [unpacked]
    change shape (.ofModel (.pack (.finite (-s) m e pos))) = _
    rw [shape_pack_finite (-s) pos canonical.bits canonical.least canonical.leading, isNegative_neg,
      ofUnits_magnitude _ canonical]

theorem neg_neg (shown : shape x = .finite negative m e) : - -x = x := by
  have same : shape (- -x) = shape x := by
    rw [shape_neg (shape_neg shown), Bool.not_not, shown]
  apply eq_of_shape _ same
  rw [same, shown]
  exact nofun

end Negation

/-! Whole numbers and powers of ten. -/

theorem exists_of_rounded {n d : Nat} (pos : 0 < d) (below : rounded n d < beyond) :
    ∃ m e, Canonical m e ∧ magnitude m e = rounded n d := by
  have few := roundHalfEven_grid_le (n := n) pos
  have many := le_roundHalfEven_grid (n := n) pos
  unfold rounded at below ⊢
  generalize roundHalfEven n (d * 2 ^ gridOf n d) = r at *
  generalize gridOf n d = g at *
  have power : ((g : Int) - 1074 + 1074).toNat = g := by omega
  rcases Nat.lt_or_eq_of_le few with bits | rfl
  · have same : magnitude r ((g : Int) - 1074) = r * 2 ^ g := by rw [magnitude, power]
    refine ⟨r, (g : Int) - 1074, ⟨bits, by omega, ?_, ?_⟩, same⟩
    · apply Int.le_of_not_gt
      intro far
      have set := many.resolve_left (by omega)
      have past := beyond_le_magnitude set far
      omega
    · exact many.symm.imp_right (by omega)
  · have power' : ((g : Int) + 1 - 1074 + 1074).toNat = g + 1 := by omega
    have same : magnitude (2 ^ 52) ((g : Int) + 1 - 1074) = 2 ^ 53 * 2 ^ g := by
      rw [magnitude, power', Nat.pow_succ 2 g]
      omega
    refine ⟨2 ^ 52, (g : Int) + 1 - 1074, ⟨by decide, by omega, ?_, .inl (Nat.le_refl _)⟩, same⟩
    apply Int.le_of_not_gt
    intro far
    have past := beyond_le_magnitude (Nat.le_refl (2 ^ 52)) far
    omega

/-- A whole number of 53 bits times a power of two lies on its grid. -/
theorem rounded_whole {n k : Nat} (bits : n < 2 ^ 53) : rounded (n * 2 ^ k) 1 = n * 2 ^ k := by
  have coarse : gridOf (n * 2 ^ k) 1 ≤ k := by
    rcases gridOf_low (n := n * 2 ^ k) Nat.one_pos with zero | above
    · omega
    · have below : n * 2 ^ k < 1 * 2 ^ (53 + k) := by
        rw [Nat.one_mul, Nat.pow_add]
        exact Nat.mul_lt_mul_of_pos_right bits (Nat.two_pow_pos k)
      have less := pow_mul_lt (Nat.lt_of_le_of_lt above below)
      omega
  unfold rounded
  generalize gridOf (n * 2 ^ k) 1 = g at coarse
  have split : n * 2 ^ k = n * 2 ^ (k - g) * (1 * 2 ^ g) := by
    rw [Nat.one_mul, Nat.mul_assoc, ← Nat.pow_add]
    congr 2
    omega
  rw [split, roundHalfEven_whole _ (Nat.mul_pos Nat.one_pos (Nat.two_pow_pos g)), Nat.one_mul]

theorem rounded_ones {n : Nat} (bits : n < 2 ^ 53) : rounded (n * one) 1 = n * one :=
  rounded_whole bits

theorem rounded_beyond : rounded beyond 1 = beyond := by
  have power : beyond = 1 * 2 ^ (53 + (971 + 1074 : Int).toNat) := by
    rw [beyond, magnitude, Nat.pow_add, Nat.one_mul]
  rw [power]
  exact rounded_whole (by decide)

theorem finite_of_units {x : Float} {negative : Bool} {n d : Nat} (pos : 0 < d)
    (shown : shape x = .ofUnits negative (rounded n d)) (below : rounded n d < beyond) :
    ∃ m e, shape x = .finite negative m e ∧ magnitude m e = rounded n d := by
  obtain ⟨m, e, canonical, same⟩ := exists_of_rounded pos below
  refine ⟨m, e, ?_, same⟩
  rw [shown, ← same, ofUnits_magnitude negative canonical]

theorem shape_ofUInt64 (n : UInt64) :
    shape n.toFloat = .ofUnits false (rounded (n.toNat * one) 1) := by
  change shape (.ofModel (.pack (UnpackedFloat.normalize _ (n.toNat : Int) 0 .positive))) = _
  rcases Nat.eq_zero_or_pos n.toNat with zero | pos
  · rw [zero, Nat.zero_mul, rounded_zero]
    exact shape_pack_zero .positive
  · have sign : compare (n.toNat : Int) 0 = .gt := Int.compare_eq_gt.mpr (by omega)
    have round : UnpackedFloat.normalize Format.binary64 (n.toNat : Int) 0 .positive =
        UnpackedFloat.round Format.binary64 .positive n.toNat 0 := by
      rw [UnpackedFloat.normalize, sign]
      rfl
    have log := n.toNat_lt
    have bits : n.toNat.log2 < 64 := (Nat.log2_lt (Nat.ne_of_gt pos)).mpr log
    rw [round, UnpackedFloat.round, targetExponent_eq]
    obtain ⟨g, known⟩ : ∃ g : Nat, g = (0 - max ((n.toNat.log2 : Int) + 0 - 52) (-1074)).toNat :=
      ⟨_, rfl⟩
    simp only [decreaseExponent, ← known, Nat.shiftLeft_eq]
    have above := Nat.log2_self_le (Nat.ne_of_gt pos)
    have wide : 2 ^ 52 ≤ n.toNat * 2 ^ g :=
      calc 2 ^ 52 ≤ 2 ^ (n.toNat.log2 + g) := Nat.pow_le_pow_right (by decide) (by omega)
        _ = 2 ^ n.toNat.log2 * 2 ^ g := Nat.pow_add 2 _ _
        _ ≤ n.toNat * 2 ^ g := Nat.mul_le_mul_right _ above
    rw [shape_round_exact .positive (.inl wide)]
    refine congrArg (Shape.ofUnits false) ?_
    apply rounded_congr (Nat.two_pow_pos _) Nat.one_pos
    have small : (-(0 - (g : Int) + 1074)).toNat = 0 := by omega
    have large : g + (0 - (g : Int) + 1074).toNat = places := by
      rw [places]
      omega
    rw [small, Nat.mul_one, Nat.mul_assoc, ← Nat.pow_add, large, one, Nat.pow_zero, Nat.mul_one]

theorem shape_powers_table : ∀ k : Fin Float.exactlyRepresentablePowersOfTen.size,
    shape Float.exactlyRepresentablePowersOfTen[k.val] =
        .ofUnits false (rounded (10 ^ k.val * one) 1) ∧
      rounded (10 ^ k.val * one) 1 = 10 ^ k.val * one ∧ 10 ^ k.val * one < beyond := by
  decide +kernel

/-- The powers of ten of the table are whole numbers of 53 bits times a power of two. -/
theorem shape_powers {k : Nat} (few : k < Float.exactlyRepresentablePowersOfTen.size) :
    ∃ m e, shape Float.exactlyRepresentablePowersOfTen[k] = .finite false m e ∧
      magnitude m e = 10 ^ k * one := by
  obtain ⟨shown, whole, below⟩ := shape_powers_table ⟨k, few⟩
  obtain ⟨m, e, shown, same⟩ := finite_of_units Nat.one_pos shown (by rw [whole]; exact below)
  exact ⟨m, e, shown, same.trans whole⟩

section Scientific
variable {m k : Nat}

theorem shape_small (bits : m < 2 ^ 53) :
    ∃ a e, shape m.toUInt64.toFloat = .finite false a e ∧ magnitude a e = m * one := by
  have number : m.toUInt64.toNat = m := by
    rw [Nat.toUInt64_eq, UInt64.toNat_ofNat']
    exact Nat.mod_eq_of_lt (by omega)
  have shown := shape_ofUInt64 m.toUInt64
  have whole : rounded (m * one) 1 = m * one := rounded_ones bits
  have below : m * one < beyond := by
    have wide : places ≤ (971 + 1074 : Int).toNat := by decide
    exact Nat.mul_lt_mul_of_lt_of_le bits (Nat.pow_le_pow_right (by decide) wide)
      (Nat.two_pow_pos _)
  rw [number] at shown
  obtain ⟨a, e, shown, same⟩ := finite_of_units Nat.one_pos shown (by rw [whole]; exact below)
  exact ⟨a, e, shown, same.trans whole⟩

theorem ofScientific_zero (e : Int) :
    UnpackedFloat.ofScientific Format.binary64 0 e = .zero .positive := dif_pos rfl

theorem shape_times_power (bits : m < 2 ^ 53)
    (few : k < Float.exactlyRepresentablePowersOfTen.size) :
    shape (m.toUInt64.toFloat * Float.exactlyRepresentablePowersOfTen[k]) =
      .ofUnits false (rounded (m * 10 ^ k * one) 1) := by
  obtain ⟨a, e, left, number⟩ := shape_small bits
  obtain ⟨b, f, right, power⟩ := shape_powers few
  refine (shape_mul left right).trans (congrArg (Shape.ofUnits false) ?_)
  rw [number, power]
  apply rounded_congr one_pos Nat.one_pos
  ring

theorem shape_by_power (bits : m < 2 ^ 53)
    (few : k < Float.exactlyRepresentablePowersOfTen.size) :
    shape (m.toUInt64.toFloat / Float.exactlyRepresentablePowersOfTen[k]) =
      .ofUnits false (rounded (m * one) (10 ^ k)) := by
  have power : 0 < 10 ^ k := Nat.pow_pos (by decide)
  obtain ⟨a, e, left, number⟩ := shape_small bits
  obtain ⟨b, f, right, tens⟩ := shape_powers few
  have divisor : 0 < b := by
    apply Nat.pos_of_ne_zero
    intro zero
    rw [zero, magnitude_zero_mantissa] at tens
    exact absurd tens (Nat.ne_of_lt (Nat.mul_pos power one_pos))
  refine (shape_div left right divisor).trans (congrArg (Shape.ofUnits false) ?_)
  rw [number, tens]
  apply rounded_congr (Nat.mul_pos power one_pos) power
  ring

/-- The digits and the power of ten are multiplied as whole numbers, and the product is rounded. -/
theorem shape_packed_up (pos : 0 < m) (few : k ≤ 2048) :
    shape (.ofModel (.pack (UnpackedFloat.ofScientific Format.binary64 m (Int.ofNat k)))) =
      .ofUnits false (rounded (m * 10 ^ k * one) 1) := by
  have zero : m ≠ 0 := Nat.ne_of_gt pos
  have bits : Format.binary64.mantissaBits = 53 := rfl
  have wide : 2 ^ 52 ≤ m <<< Format.binary64.mantissaBits * 10 ^ k := by
    rw [Nat.shiftLeft_eq, bits]
    calc 2 ^ 52 ≤ 1 * 2 ^ 53 * 1 := by decide
      _ ≤ m * 2 ^ 53 * 10 ^ k :=
        Nat.mul_le_mul (Nat.mul_le_mul_right _ pos) (Nat.one_le_pow _ _ (by decide))
  have inside : ¬ Int.ofNat k > 2 ^ Format.binary64.exponentBits := by
    change ¬ Int.ofNat k > 2048
    rw [Int.ofNat_eq_natCast]
    omega
  have above : ¬ Int.ofNat k < -(2 ^ Format.binary64.exponentBits + (m.log2 : Int)) := by
    change ¬ Int.ofNat k < -(2048 + (m.log2 : Int))
    rw [Int.ofNat_eq_natCast]
    omega
  have whole : 0 ≤ Int.ofNat k := Int.natCast_nonneg k
  simp only [UnpackedFloat.ofScientific, zero, inside, above, whole, dif_neg, if_neg, if_true,
    not_false_eq_true]
  refine (shape_mul_unpacked .positive .positive _ _ (.inl wide)).trans
    (congrArg (Shape.ofUnits false) ?_)
  apply rounded_congr (Nat.two_pow_pos _) Nat.one_pos
  have small : (-(-(Format.binary64.mantissaBits : Int) + 0 + 1074)).toNat = 0 := rfl
  have large : (-(Format.binary64.mantissaBits : Int) + 0 + 1074).toNat = places - 53 := rfl
  have split : places = 53 + (places - 53) := rfl
  have unit : one = 2 ^ 53 * 2 ^ (places - 53) := by rw [one, ← Nat.pow_add, ← split]
  rw [small, large, Nat.shiftLeft_eq, bits, unit]
  generalize 2 ^ (places - 53) = u
  ring

/-- The digits are divided by the power of ten as whole numbers, and the quotient is rounded. -/
theorem shape_packed_down (pos : 0 < m) (some : 0 < k) (few : k ≤ 2048 + m.log2) :
    shape (.ofModel (.pack (UnpackedFloat.ofScientific Format.binary64 m (-(k : Int))))) =
      .ofUnits false (rounded (m * one) (10 ^ k)) := by
  have zero : m ≠ 0 := Nat.ne_of_gt pos
  have power : 0 < 10 ^ k := Nat.pow_pos (by decide)
  have inside : ¬ -(k : Int) > 2 ^ Format.binary64.exponentBits := by
    change ¬ -(k : Int) > 2048
    omega
  have above : ¬ -(k : Int) < -(2 ^ Format.binary64.exponentBits + (m.log2 : Int)) := by
    change ¬ -(k : Int) < -(2048 + (m.log2 : Int))
    omega
  have negative : ¬ 0 ≤ -(k : Int) := by omega
  have back : (-(-(k : Int))).toNat = k := by omega
  simp only [UnpackedFloat.ofScientific, zero, inside, above, negative, dif_neg, if_neg,
    not_false_eq_true]
  refine (shape_div_unpacked .positive .positive _ _).trans (congrArg (Shape.ofUnits false) ?_)
  rw [back]
  apply rounded_congr (Nat.mul_pos power (Nat.two_pow_pos _)) power
  have small : (-((0 : Int) - 0 + 1074)).toNat = 0 := rfl
  have large : ((0 : Int) - 0 + 1074).toNat = places := rfl
  rw [small, large, ← one]
  ring

theorem shape_ofScientific_up (few : k ≤ 2048) :
    shape (Float.ofScientific m false k) = .ofUnits false (rounded (m * 10 ^ k * one) 1) := by
  unfold Float.ofScientific
  split
  · rename_i fast
    exact shape_times_power fast.1 (Nat.lt_succ_of_le fast.2)
  · change shape (.ofModel (.pack (UnpackedFloat.ofScientific _ m (Int.ofNat k)))) = _
    rcases Nat.eq_zero_or_pos m with rfl | pos
    · rw [ofScientific_zero, Nat.zero_mul, Nat.zero_mul, rounded_zero]
      exact shape_pack_zero .positive
    · exact shape_packed_up pos few

theorem shape_ofScientific_down (some : 0 < k) (few : k ≤ 2048 + m.log2) :
    shape (Float.ofScientific m true k) = .ofUnits false (rounded (m * one) (10 ^ k)) := by
  unfold Float.ofScientific
  split
  · rename_i fast
    exact shape_by_power fast.1 (Nat.lt_succ_of_le fast.2)
  · have sign : (if true = true then Int.negOfNat k else Int.ofNat k) = -(k : Int) := by
      rw [if_pos rfl, Int.negOfNat_eq, Int.ofNat_eq_natCast]
    change shape (.ofModel (.pack (UnpackedFloat.ofScientific _ m
      (if true = true then Int.negOfNat k else Int.ofNat k)))) = _
    rw [sign]
    rcases Nat.eq_zero_or_pos m with rfl | pos
    · rw [ofScientific_zero, Nat.zero_mul, rounded_zero]
      exact shape_pack_zero .positive
    · exact shape_packed_down pos some few

end Scientific

/-! Numbers written in decimal. -/

theorem shape_ofNat (n : Nat) : shape (Float.ofNat n) = .ofUnits false (rounded (n * one) 1) := by
  have up := shape_ofScientific_up (m := n) (k := 0) (by decide)
  rw [Nat.pow_zero, Nat.mul_one] at up
  exact up

theorem lt_pow_digits (m : Nat) : m < 10 ^ (Nat.toDigits 10 m).length :=
  (Nat.length_toDigits_le_iff (by decide) Nat.length_toDigits_pos).mp (Nat.le_refl _)

theorem pow_digits_le {m : Nat} (pos : 0 < m) : 10 ^ ((Nat.toDigits 10 m).length - 1) ≤ m := by
  by_cases single : (Nat.toDigits 10 m).length - 1 = 0
  · rw [single]
    exact pos
  · apply Nat.le_of_not_lt
    intro less
    have shorter := (Nat.length_toDigits_le_iff (by decide) (Nat.pos_of_ne_zero single)).mpr less
    omega

theorem digits_le_log2 (m : Nat) : (Nat.toDigits 10 m).length ≤ m.log2 + 1 := by
  rw [Nat.length_toDigits_le_iff (by decide) (Nat.succ_pos _)]
  exact Nat.lt_of_lt_of_le Nat.lt_log2_self (Nat.pow_le_pow_left (by decide) _)

section Decimals
variable {m : Nat} {p : Int}

theorem beyond_le_ten_pow : beyond ≤ rounded (10 ^ 309 * one) 1 := by decide +kernel

theorem beyond_le_rounded (pos : 0 < m)
    (large : 310 < ((Nat.toDigits 10 m).length : Int) + p) :
    beyond ≤ rounded (m * 10 ^ p.toNat * one) (10 ^ (-p).toNat) := by
  apply Nat.le_trans beyond_le_ten_pow
  apply rounded_mono Nat.one_pos (Nat.pow_pos (by decide))
  have most : 10 ^ (309 + (-p).toNat) ≤ m * 10 ^ p.toNat :=
    calc 10 ^ (309 + (-p).toNat) ≤ 10 ^ ((Nat.toDigits 10 m).length - 1 + p.toNat) := by
          apply Nat.pow_le_pow_right (by decide)
          omega
      _ = 10 ^ ((Nat.toDigits 10 m).length - 1) * 10 ^ p.toNat := Nat.pow_add 10 _ _
      _ ≤ m * 10 ^ p.toNat := Nat.mul_le_mul_right _ (pow_digits_le pos)
  rw [Nat.pow_add] at most
  calc 10 ^ 309 * one * 10 ^ (-p).toNat = 10 ^ 309 * 10 ^ (-p).toNat * one :=
        Nat.mul_right_comm _ _ _
    _ ≤ m * 10 ^ p.toNat * one := Nat.mul_le_mul_right _ most
    _ = m * 10 ^ p.toNat * one * 1 := (Nat.mul_one _).symm

theorem rounded_tiny (small : ((Nat.toDigits 10 m).length : Int) + p < -330) :
    rounded (m * 10 ^ p.toNat * one) (10 ^ (-p).toNat) = 0 := by
  have near : rounded one (10 ^ 331) = 0 := by decide +kernel
  apply Nat.eq_zero_of_le_zero
  rw [← near]
  apply rounded_mono (Nat.pow_pos (by decide)) (Nat.pow_pos (by decide))
  have least : m * 10 ^ p.toNat * 10 ^ 331 ≤ 10 ^ (-p).toNat :=
    calc m * 10 ^ p.toNat * 10 ^ 331
        ≤ 10 ^ (Nat.toDigits 10 m).length * 10 ^ p.toNat * 10 ^ 331 :=
          Nat.mul_le_mul_right _ (Nat.mul_le_mul_right _ (Nat.le_of_lt (lt_pow_digits m)))
      _ = 10 ^ ((Nat.toDigits 10 m).length + p.toNat + 331) := by rw [Nat.pow_add, Nat.pow_add]
      _ ≤ 10 ^ (-p).toNat := by
          apply Nat.pow_le_pow_right (by decide)
          omega
  calc m * 10 ^ p.toNat * one * 10 ^ 331 = m * 10 ^ p.toNat * 10 ^ 331 * one :=
        Nat.mul_right_comm _ _ _
    _ ≤ 10 ^ (-p).toNat * one := Nat.mul_le_mul_right _ least
    _ = one * 10 ^ (-p).toNat := Nat.mul_comm _ _

/-- A decimal is the nearest number, also where its digit count alone settles it. -/
theorem shape_nearest (m : Nat) (p : Int) :
    shape (nearest m p) =
      .ofUnits false (rounded (m * 10 ^ p.toNat * one) (10 ^ (-p).toNat)) := by
  have nothing : shape 0 = .ofUnits false 0 := by
    have units := ofUnits_magnitude false (canonical_of_shape shape_zero)
    rw [magnitude_zero_mantissa] at units
    exact shape_zero.trans units.symm
  unfold nearest
  by_cases zero : m = 0
  · subst zero
    rw [if_pos rfl, Nat.zero_mul, Nat.zero_mul, rounded_zero, nothing]
  · have pos := Nat.pos_of_ne_zero zero
    rw [if_neg zero]
    dsimp only
    by_cases large : ((Nat.toDigits 10 m).length : Int) + p > 310
    · rw [if_pos large, Shape.ofUnits, if_pos (beyond_le_rounded pos large), shape_infinity]
    · rw [if_neg large]
      by_cases small : ((Nat.toDigits 10 m).length : Int) + p < -330
      · rw [if_pos small, rounded_tiny small, nothing]
      · rw [if_neg small]
        have digits := digits_le_log2 m
        cases p with
        | ofNat k =>
            have none : (-(Int.ofNat k)).toNat = 0 := by
              rw [Int.ofNat_eq_natCast]
              omega
            rw [Int.ofNat_eq_natCast] at large
            rw [none, Nat.pow_zero]
            exact shape_ofScientific_up (by omega)
        | negSucc k =>
            have some : (-(Int.negSucc k)).toNat = k + 1 := rfl
            have none : (Int.negSucc k).toNat = 0 := rfl
            rw [some, none, Nat.pow_zero, Nat.mul_one]
            exact shape_ofScientific_down (Nat.succ_pos k) (by omega)

theorem nearest_eq {x : Float} {n : Nat} {e : Int} (shown : shape x = .finite false n e)
    (near : rounded (m * 10 ^ p.toNat * one) (10 ^ (-p).toNat) = magnitude n e) :
    nearest m p = x := by
  have same : shape (nearest m p) = shape x := by
    rw [shape_nearest, near, shown, ofUnits_magnitude false (canonical_of_shape shown)]
  apply eq_of_shape _ same
  rw [same, shown]
  exact nofun

end Decimals
end ProofOfWork.Decimal
