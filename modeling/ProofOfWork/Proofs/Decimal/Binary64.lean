import Mathlib
import ProofOfWork.Decimal.Binary64
set_option autoImplicit false

/-!
Binary64 numbers as integers. In units of the least positive number every finite one is an integer,
and numbers are ordered as these integers are. What is not a number comes from few operations, and
a power of two multiplies without rounding.
-/
namespace ProofOfWork.Decimal
open Float.Model Float.Model.UnpackedFloat

def isNegative : Sign → Bool
  | .negative => true
  | .positive => false

def Shape.ofUnpacked : UnpackedFloat → Shape
  | .notANumber => .notANumber
  | .infinity s => .infinite (isNegative s)
  | .zero s => .finite (isNegative s) 0 (-1074)
  | .finite s m e _ => .finite (isNegative s) m e

theorem toNat_unpackMantissa (b : BitVec 64) :
    (@unpackMantissa Format.binary64 b).toNat = b.toNat % 2 ^ 52 := by
  simp [unpackMantissa, Format.binary64]

theorem toNat_unpackExponent (b : BitVec 64) :
    (@unpackExponent Format.binary64 b).toNat = b.toNat / 2 ^ 52 % 2 ^ 11 := by
  simp [unpackExponent, Format.binary64, Nat.shiftRight_eq_div_pow]

theorem toNat_unpackSign (b : BitVec 64) :
    (@unpackSign Format.binary64 b).toNat = b.toNat / 2 ^ 63 % 2 := by
  simp [unpackSign, Format.binary64, Nat.shiftRight_eq_div_pow]

theorem isNegative_ofBitVec (b : BitVec 1) :
    isNegative (Sign.ofBitVec b) = decide (b.toNat = 1) := by
  revert b
  decide

theorem toNat_implicit (m : BitVec 52) : ((1#1 ++ m : BitVec 53)).toNat = 2 ^ 52 + m.toNat := by
  have small := m.isLt
  rw [BitVec.toNat_append]
  simp only [BitVec.toNat_ofNat]
  rw [Nat.shiftLeft_eq, ← Nat.shiftLeft_eq 1 52, ← Nat.shiftLeft_add_eq_or_of_lt small]
  rfl

theorem shape_eq (x : Float) : shape x = .ofUnpacked x.toModel.unpack := by
  have unpacked : x.toModel.unpack = UnpackedFloat.unpack Format.binary64 x.toBits.toBitVec := rfl
  rw [unpacked, shape]
  generalize x.toBits = bits
  have mantissa := toNat_unpackMantissa bits.toBitVec
  have exponent := toNat_unpackExponent bits.toBitVec
  have sign := toNat_unpackSign bits.toBitVec
  have same : bits.toBitVec.toNat = bits.toNat := rfl
  rw [same] at mantissa exponent sign
  have top : @unpackExponent Format.binary64 bits.toBitVec = -1#11 ↔
      bits.toNat / 2 ^ 52 % 2 ^ 11 = 2047 := by
    rw [← BitVec.toNat_inj, exponent]
    rfl
  have bottom : @unpackExponent Format.binary64 bits.toBitVec = 0#11 ↔
      bits.toNat / 2 ^ 52 % 2 ^ 11 = 0 := by
    rw [← BitVec.toNat_inj, exponent]
    rfl
  have blank : @unpackMantissa Format.binary64 bits.toBitVec = 0#52 ↔
      bits.toNat % 2 ^ 52 = 0 := by
    rw [← BitVec.toNat_inj, mantissa]
    rfl
  have negative : isNegative (Sign.ofBitVec (@unpackSign Format.binary64 bits.toBitVec)) =
      decide (bits.toNat / 2 ^ 63 % 2 = 1) := by
    rw [isNegative_ofBitVec, sign]
  simp only [UnpackedFloat.unpack, top, bottom, blank]
  by_cases special : bits.toNat / 2 ^ 52 % 2 ^ 11 = 2047
  · rw [if_pos special, if_pos special]
    split <;> simp only [Shape.ofUnpacked, negative]
  · rw [if_neg special, if_neg special]
    by_cases small : bits.toNat / 2 ^ 52 % 2 ^ 11 = 0
    · rw [if_pos small, if_pos small]
      split
      · rename_i zero
        simp only [Shape.ofUnpacked, negative, zero]
      · simp only [Shape.ofUnpacked, negative, mantissa, exponent, small]
        rfl
    · rw [if_neg small, if_neg small]
      simp only [Shape.ofUnpacked, negative, toNat_implicit, mantissa, exponent]
      rfl

theorem unpack_packComponents (s : Sign) (e : BitVec 11) (m : BitVec 52) :
    Shape.ofUnpacked (UnpackedFloat.unpack Format.binary64 (packComponents Format.binary64 s e m)) =
      if e = -1#11 then
        if m = 0#52 then .infinite (isNegative s) else .notANumber
      else if e = 0#11 then .finite (isNegative s) m.toNat (-1074)
      else .finite (isNegative s) (2 ^ 52 + m.toNat) (Int.ofNat e.toNat - 1075) := by
  simp only [UnpackedFloat.unpack, unpackMantissa_packComponents, unpackExponent_packComponents,
    unpackSign_packComponents, Sign.ofBitVec_toBitVec]
  split
  · split <;> rfl
  · split
    · split
      · rename_i blank
        subst blank
        rfl
      · rename_i small _
        subst small
        rfl
    · simp only [Shape.ofUnpacked, toNat_implicit]
      rfl

/-- A mantissa and an exponent as a binary64 number has them: 53 bits, or the least exponent. -/
structure Canonical (mantissa : Nat) (exponent : Int) : Prop where
  bits : mantissa < 2 ^ 53
  least : -1074 ≤ exponent
  most : exponent ≤ 971
  leading : 2 ^ 52 ≤ mantissa ∨ exponent = -1074

theorem canonical_of_shape {x : Float} {negative : Bool} {m : Nat} {e : Int}
    (shown : shape x = .finite negative m e) : Canonical m e := by
  unfold shape at shown
  generalize x.toBits.toNat = bits at shown
  have fraction : bits % 2 ^ 52 < 2 ^ 52 := Nat.mod_lt _ (by decide)
  have biased : bits / 2 ^ 52 % 2 ^ 11 < 2 ^ 11 := Nat.mod_lt _ (by decide)
  dsimp only at shown
  split at shown
  · split at shown <;> cases shown
  · split at shown
    · cases shown
      exact ⟨by omega, by omega, by omega, .inr rfl⟩
    · rw [Int.ofNat_eq_natCast] at shown
      cases shown
      exact ⟨by omega, by omega, by omega, .inl (by omega)⟩

/-- Numbers of 53 bits are packed as they are. -/
theorem shape_pack_normal (s : Sign) {m : Nat} {e : Int} (pos : 0 < m) (leading : 2 ^ 52 ≤ m)
    (bits : m < 2 ^ 53) (least : -1074 ≤ e) (most : e ≤ 971) :
    shape (.ofModel (.pack (.finite s m e pos))) = .finite (isNegative s) m e := by
  have log : m.log2 = 52 := (Nat.log2_eq_iff (Nat.ne_of_gt pos)).mpr ⟨leading, bits⟩
  have biased : (e + 1075).toNat < 2047 := by omega
  have packed : UnpackedFloat.pack Format.binary64 (.finite s m e pos) =
      packComponents Format.binary64 s (BitVec.ofNat 11 (e + 1075).toNat) (BitVec.ofNat 52 m) := by
    have bias : (e + (Format.binary64.exponentBias : Nat) + (52 : Nat)).toNat =
        (e + 1075).toNat := by
      have value : Format.binary64.exponentBias = 1023 := rfl
      rw [value]
      omega
    have width : Format.binary64.mantissaBits = 53 := rfl
    have fits : ¬ 2 ^ 11 ≤ (e + 1075).toNat + 1 := by omega
    simp only [UnpackedFloat.pack, bias, fits, width, log, if_false, if_true]
  rw [shape_eq]
  change Shape.ofUnpacked (UnpackedFloat.unpack _ (UnpackedFloat.pack _ _)) = _
  have exponent : (BitVec.ofNat 11 (e + 1075).toNat).toNat = (e + 1075).toNat :=
    Nat.mod_eq_of_lt (by omega)
  -- the exponent is neither of the two that are kept for other numbers
  have top : BitVec.ofNat 11 (e + 1075).toNat ≠ -1#11 := by
    intro same
    rw [← BitVec.toNat_inj, exponent] at same
    exact absurd same (Nat.ne_of_lt biased)
  have bottom : BitVec.ofNat 11 (e + 1075).toNat ≠ 0#11 := by
    intro same
    rw [← BitVec.toNat_inj, exponent] at same
    exact absurd same (by change _ ≠ 0; omega)
  rw [packed, unpack_packComponents, if_neg top, if_neg bottom, exponent]
  have fraction : (BitVec.ofNat 52 m).toNat = m - 2 ^ 52 := by
    rw [BitVec.toNat_ofNat]
    omega
  have whole : 2 ^ 52 + (m - 2 ^ 52) = m := by omega
  have back : (Int.ofNat (e + 1075).toNat) - 1075 = e := by
    rw [Int.ofNat_eq_natCast]
    omega
  rw [fraction, whole, back]

theorem shape_pack (f : UnpackedFloat) : shape (.ofModel (.pack f)) =
    .ofUnpacked (UnpackedFloat.unpack Format.binary64 (UnpackedFloat.pack Format.binary64 f)) :=
  shape_eq _

@[simp] theorem shape_packedInfinity (s : Sign) :
    Shape.ofUnpacked (UnpackedFloat.unpack Format.binary64 (packedInfinity Format.binary64 s)) =
      .infinite (isNegative s) := by
  have parts : packedInfinity Format.binary64 s =
      packComponents Format.binary64 s (-1#11) 0#52 := rfl
  rw [parts, unpack_packComponents, if_pos rfl, if_pos rfl]

theorem shape_packedZero (s : Sign) :
    Shape.ofUnpacked (UnpackedFloat.unpack Format.binary64 (packedZero Format.binary64 s)) =
      .finite (isNegative s) 0 (-1074) := by
  have parts : packedZero Format.binary64 s = packComponents Format.binary64 s 0#11 0#52 := rfl
  rw [parts, unpack_packComponents, if_neg (by decide), if_pos rfl]
  rfl

theorem shape_pack_number {f : UnpackedFloat} (number : f ≠ .notANumber) :
    shape (.ofModel (.pack f)) ≠ .notANumber := by
  rw [shape_pack]
  cases f with
  | notANumber => exact absurd rfl number
  | infinity s =>
      rw [UnpackedFloat.pack, shape_packedInfinity]
      rintro ⟨⟩
  | zero s =>
      rw [UnpackedFloat.pack, shape_packedZero]
      rintro ⟨⟩
  | finite s m e pos =>
      rw [UnpackedFloat.pack]
      dsimp only
      split
      · rw [shape_packedInfinity]
        rintro ⟨⟩
      · rename_i fits
        split
        · have lower : BitVec.ofNat 11 (e + Format.binary64.exponentBias + (52 : Nat)).toNat ≠
              -1#11 := by
            intro top
            rw [← BitVec.toNat_inj, BitVec.toNat_ofNat] at top
            change _ = 2047 at top
            omega
          rw [unpack_packComponents, if_neg lower]
          split <;> rintro ⟨⟩
        · rw [unpack_packComponents, if_neg (by decide), if_pos rfl]
          rintro ⟨⟩

theorem unpack_number {x : Float} (number : shape x ≠ .notANumber) :
    x.toModel.unpack ≠ .notANumber := by
  intro none
  rw [shape_eq, none] at number
  exact number rfl

theorem roundWithAccuracy_number (s : Sign) (m : Nat) (e : Int) (a : Accuracy) :
    roundWithAccuracy Format.binary64 s m e a ≠ .notANumber := by
  unfold roundWithAccuracy
  dsimp only
  split <;> rintro ⟨⟩

/-- A finite number is zero, or it is unpacked as its mantissa and exponent. -/
theorem unpack_cases {x : Float} {negative : Bool} {m : Nat} {e : Int}
    (shown : shape x = .finite negative m e) :
    (∃ s, isNegative s = negative ∧ m = 0 ∧ x.toModel.unpack = .zero s) ∨
      ∃ s pos, isNegative s = negative ∧ x.toModel.unpack = .finite s m e pos := by
  rw [shape_eq] at shown
  cases unpacked : x.toModel.unpack with
  | notANumber | infinity s =>
      rw [unpacked] at shown
      cases shown
  | zero s =>
      rw [unpacked] at shown
      cases shown
      exact .inl ⟨s, rfl, rfl, rfl⟩
  | finite s n f pos =>
      rw [unpacked] at shown
      cases shown
      exact .inr ⟨s, pos, rfl, rfl⟩

theorem unpack_zero {x : Float} {negative : Bool} {e : Int}
    (shown : shape x = .finite negative 0 e) :
    ∃ s, isNegative s = negative ∧ x.toModel.unpack = .zero s := by
  rcases unpack_cases shown with ⟨s, sign, -, unpacked⟩ | ⟨s, pos, -⟩
  · exact ⟨s, sign, unpacked⟩
  · exact absurd pos (Nat.lt_irrefl 0)

theorem unpack_finite {x : Float} {negative : Bool} {m : Nat} {e : Int}
    (shown : shape x = .finite negative m e) (pos : 0 < m) :
    ∃ s, isNegative s = negative ∧ x.toModel.unpack = .finite s m e pos := by
  rcases unpack_cases shown with ⟨s, -, rfl, -⟩ | ⟨s, _, sign, unpacked⟩
  · exact absurd pos (Nat.lt_irrefl 0)
  · exact ⟨s, sign, unpacked⟩

theorem isFinite_of_shape {x : Float} {negative : Bool} {m : Nat} {e : Int}
    (shown : shape x = .finite negative m e) : x.isFinite = true := by
  change x.toModel.unpack.isFinite = true
  rcases unpack_cases shown with ⟨s, -, -, unpacked⟩ | ⟨s, pos, -, unpacked⟩ <;> rw [unpacked] <;> rfl

theorem isInf_of_shape {x : Float} {negative : Bool} {m : Nat} {e : Int}
    (shown : shape x = .finite negative m e) : x.isInf = false := by
  change x.toModel.unpack.isInf = false
  rcases unpack_cases shown with ⟨s, -, -, unpacked⟩ | ⟨s, pos, -, unpacked⟩ <;> rw [unpacked] <;> rfl

theorem exists_shape {x : Float} (finite : x.isFinite = true) :
    ∃ negative m e, shape x = .finite negative m e := by
  rw [shape_eq]
  change x.toModel.unpack.isFinite = true at finite
  cases unpacked : x.toModel.unpack with
  | notANumber | infinity s =>
      rw [unpacked] at finite
      cases finite
  | zero s => exact ⟨_, _, _, rfl⟩
  | finite s n f positive => exact ⟨_, _, _, rfl⟩

theorem div_number {x y : Float} {negative : Bool} {m : Nat} {e : Int}
    (shown : shape x = .finite negative m e) (pos : 0 < m) (number : shape y ≠ .notANumber) :
    shape (x / y) ≠ .notANumber := by
  obtain ⟨s, -, dividend⟩ := unpack_finite shown pos
  refine shape_pack_number ?_
  have divisor := unpack_number number
  change UnpackedFloat.div _ x.toModel.unpack y.toModel.unpack ≠ _
  rw [dividend]
  cases unpacked : y.toModel.unpack with
  | notANumber => exact absurd unpacked divisor
  | infinity t | zero t => exact nofun
  | finite t n f positive => exact roundWithAccuracy_number _ _ _ _

theorem mul_number {x y : Float} {negative : Bool} {m : Nat} {e : Int}
    (number : shape x ≠ .notANumber) (shown : shape y = .finite negative m e) (pos : 0 < m) :
    shape (x * y) ≠ .notANumber := by
  obtain ⟨s, -, factor⟩ := unpack_finite shown pos
  refine shape_pack_number ?_
  have other := unpack_number number
  rw [factor]
  cases unpacked : x.toModel.unpack with
  | notANumber => exact absurd unpacked other
  | infinity t | zero t => exact nofun
  | finite t n f positive => exact roundWithAccuracy_number _ _ _ _

theorem normalize_number (m : Int) (e : Int) (s : Sign) :
    UnpackedFloat.normalize Format.binary64 m e s ≠ .notANumber := by
  unfold UnpackedFloat.normalize
  split
  · exact roundWithAccuracy_number _ _ _ _
  · exact nofun
  · exact roundWithAccuracy_number _ _ _ _

theorem ofScientific_number (m : Nat) (e : Int) :
    UnpackedFloat.ofScientific Format.binary64 m e ≠ .notANumber := by
  unfold UnpackedFloat.ofScientific
  split
  · rintro ⟨⟩
  · split
    · rintro ⟨⟩
    · split
      · rintro ⟨⟩
      · split
        · exact roundWithAccuracy_number _ _ _ _
        · exact roundWithAccuracy_number _ _ _ _

theorem ofNat_number (n : Nat) : shape (Float.ofNat n) ≠ .notANumber := by
  change shape (Float.ofScientific n false 0) ≠ _
  unfold Float.ofScientific
  split
  · have one : shape Float.exactlyRepresentablePowersOfTen[0] = .finite false (2 ^ 52) (-52) := by
      decide +kernel
    refine mul_number ?_ one (by decide)
    exact shape_pack_number (normalize_number _ _ _)
  · exact shape_pack_number (ofScientific_number _ _)

/-- A finite magnitude in units of the least one that is not zero. -/
def magnitude (mantissa : Nat) (exponent : Int) : Nat := mantissa * 2 ^ (exponent + 1074).toNat

/-- The binary places of the least positive number. -/
def places : Nat := 1074

def one : Nat := 2 ^ places

/-- The magnitude next to the greatest finite one, if there were one more exponent. -/
def beyond : Nat := magnitude (2 ^ 53) 971

theorem one_pos : 0 < one := by
  rw [one]
  exact Nat.two_pow_pos places

def signed (negative : Bool) (n : Nat) : Int := if negative then -n else n

/-- A number in units of the least positive one; an infinity lies beyond all finite numbers. -/
def Shape.units : Shape → Option Int
  | .notANumber => none
  | .infinite negative => some (signed negative beyond)
  | .finite negative m e => some (signed negative (magnitude m e))

theorem magnitude_lt {m n : Nat} {e f : Int} (left : Canonical m e) (right : Canonical n f)
    (less : e < f) : magnitude m e < magnitude n f := by
  have leading : 2 ^ 52 ≤ n := right.leading.resolve_right (by have := left.least; omega)
  have power : (e + 1074).toNat + 1 ≤ (f + 1074).toNat := by
    have := left.least
    omega
  calc magnitude m e < 2 ^ 53 * 2 ^ (e + 1074).toNat :=
        Nat.mul_lt_mul_of_pos_right left.bits (Nat.two_pow_pos _)
    _ = 2 ^ 52 * 2 ^ ((e + 1074).toNat + 1) := by rw [Nat.pow_succ]; omega
    _ ≤ 2 ^ 52 * 2 ^ (f + 1074).toNat :=
        Nat.mul_le_mul_left _ (Nat.pow_le_pow_right (by decide) power)
    _ ≤ magnitude n f := Nat.mul_le_mul_right _ leading

theorem magnitude_lt_beyond {m : Nat} {e : Int} (canonical : Canonical m e) :
    magnitude m e < beyond := by
  have power : (e + 1074).toNat ≤ (971 + 1074 : Int).toNat := by
    have := canonical.most
    omega
  calc magnitude m e < 2 ^ 53 * 2 ^ (e + 1074).toNat :=
        Nat.mul_lt_mul_of_pos_right canonical.bits (Nat.two_pow_pos _)
    _ ≤ beyond := Nat.mul_le_mul_left _ (Nat.pow_le_pow_right (by decide) power)

theorem magnitude_le_greatest {m : Nat} {e : Int} (canonical : Canonical m e) :
    magnitude m e ≤ magnitude (2 ^ 53 - 1) 971 := by
  have most := canonical.most
  have bits := canonical.bits
  exact Nat.mul_le_mul (by omega) (Nat.pow_le_pow_right (by decide) (by omega))

theorem canonical_greatest : Canonical (2 ^ 53 - 1) 971 :=
  ⟨by decide, by decide, by decide, .inl (by decide)⟩

theorem magnitude_scaled (m : Nat) {e : Int} (k : Nat) (least : -1074 ≤ e) :
    magnitude m (e + k) = magnitude m e * 2 ^ k := by
  have power : (e + k + 1074).toNat = (e + 1074).toNat + k := by omega
  rw [magnitude, magnitude, power, Nat.pow_add, Nat.mul_assoc]

@[simp] theorem magnitude_zero (m : Nat) : magnitude m 0 = m * one := by
  have whole : ((0 : Int) + 1074).toNat = places := rfl
  rw [magnitude, whole, one]

theorem magnitude_subnormal {m : Nat} (bits : m < 2 ^ 53) : magnitude m (-1074) < one := by
  have whole : magnitude m (-1074) = m := Nat.mul_one m
  have wide : 53 ≤ places := by decide
  rw [whole, one]
  exact Nat.lt_of_lt_of_le bits (Nat.pow_le_pow_right (by decide) wide)

theorem magnitude_pos {m : Nat} (e : Int) (pos : 0 < m) : 0 < magnitude m e :=
  Nat.mul_pos pos (Nat.two_pow_pos _)

theorem beyond_pos : 0 < beyond := magnitude_pos 971 (by decide)

/-- Canonical magnitudes are ordered by their exponents first. -/
theorem compare_magnitude {m n : Nat} {e f : Int} (left : Canonical m e)
    (right : Canonical n f) :
    (compare e f).then (compare m n) = compare (magnitude m e : Int) (magnitude n f) := by
  rcases Int.lt_trichotomy e f with less | same | more
  · have apart := magnitude_lt left right less
    rw [Int.compare_eq_lt.mpr less, Int.compare_eq_lt.mpr (Int.ofNat_lt.mpr apart)]
    rfl
  · subst same
    rw [Int.compare_eq_eq.mpr rfl]
    change compare m n = _
    have positive : 0 < 2 ^ (e + 1074).toNat := Nat.two_pow_pos _
    rcases Nat.lt_trichotomy m n with less | rfl | more
    · have apart : magnitude m e < magnitude n e := Nat.mul_lt_mul_of_pos_right less positive
      rw [Nat.compare_eq_lt.mpr less, Int.compare_eq_lt.mpr (Int.ofNat_lt.mpr apart)]
    · rw [Nat.compare_eq_eq.mpr rfl, Int.compare_eq_eq.mpr rfl]
    · have apart : magnitude n e < magnitude m e := Nat.mul_lt_mul_of_pos_right more positive
      rw [Nat.compare_eq_gt.mpr more, Int.compare_eq_gt.mpr (Int.ofNat_lt.mpr apart)]
  · have apart := magnitude_lt right left more
    rw [Int.compare_eq_gt.mpr more, Int.compare_eq_gt.mpr (Int.ofNat_lt.mpr apart)]
    rfl

theorem compare_neg (a b : Int) : compare (-a) (-b) = (compare a b).swap := by
  rcases Int.lt_trichotomy a b with less | rfl | more
  · rw [Int.compare_eq_lt.mpr less, Int.compare_eq_gt.mpr (Int.neg_lt_neg less)]
    rfl
  · rw [Int.compare_eq_eq.mpr rfl, Int.compare_eq_eq.mpr rfl]
    rfl
  · rw [Int.compare_eq_gt.mpr more, Int.compare_eq_lt.mpr (Int.neg_lt_neg more)]
    rfl

/-- Where an unpacked number lies, in units of the least positive one. -/
inductive Placed : UnpackedFloat → Int → Prop
  | below : Placed (.infinity .negative) (-beyond)
  | above : Placed (.infinity .positive) beyond
  | zero (s : Sign) : Placed (.zero s) 0
  | negative {m : Nat} {e : Int} (pos : 0 < m) (canonical : Canonical m e)
      (low : 0 < magnitude m e) (high : magnitude m e < beyond) :
      Placed (.finite .negative m e pos) (-magnitude m e)
  | positive {m : Nat} {e : Int} (pos : 0 < m) (canonical : Canonical m e)
      (low : 0 < magnitude m e) (high : magnitude m e < beyond) :
      Placed (.finite .positive m e pos) (magnitude m e)

theorem placed {x : Float} {a : Int} (units : (shape x).units = some a) :
    Placed x.toModel.unpack a := by
  have canonical {negative : Bool} {m : Nat} {e : Int} :
    shape x = .finite negative m e → Canonical m e := canonical_of_shape
  rw [shape_eq] at units canonical
  cases unpacked : x.toModel.unpack with
  | notANumber =>
      rw [unpacked] at units
      cases units
  | infinity s =>
      rw [unpacked] at units
      cases units
      cases s
      · exact .below
      · exact .above
  | zero s =>
      rw [unpacked] at units
      cases units
      have nothing : magnitude 0 (-1074) = 0 := Nat.zero_mul _
      cases s <;> simp only [isNegative, signed, nothing] <;> exact .zero _
  | finite s m e pos =>
      rw [unpacked] at units canonical
      have fits := canonical rfl
      cases units
      cases s
      · exact .negative pos fits (magnitude_pos e pos) (magnitude_lt_beyond fits)
      · exact .positive pos fits (magnitude_pos e pos) (magnitude_lt_beyond fits)

/-- Numbers are compared as the integers that they are in units of the least positive one. -/
theorem Placed.compare_eq {f g : UnpackedFloat} {a b : Int} (left : Placed f a)
    (right : Placed g b) : f.compare g = some (compare a b) := by
  have lt {a b : Int} (less : a < b) : some Ordering.lt = some (compare a b) :=
    congrArg some (Int.compare_eq_lt.mpr less).symm
  have gt {a b : Int} (more : b < a) : some Ordering.gt = some (compare a b) :=
    congrArg some (Int.compare_eq_gt.mpr more).symm
  have eq {a : Int} : some Ordering.eq = some (compare a a) :=
    congrArg some (Int.compare_eq_eq.mpr rfl).symm
  have far := beyond_pos
  -- kinds and signs that differ are settled by the bounds of each; only magnitudes are compared
  cases left with
  | below => cases right with
    | below => exact eq
    | above => exact lt (by omega)
    | zero t => exact lt (by omega)
    | negative _ _ low high => exact lt (by omega)
    | positive _ _ low high => exact lt (by omega)
  | above => cases right with
    | below => exact gt (by omega)
    | above => exact eq
    | zero t => exact gt (by omega)
    | negative _ _ low high => exact gt (by omega)
    | positive _ _ low high => exact gt (by omega)
  | zero s => cases right with
    | below => exact gt (by omega)
    | above => exact lt (by omega)
    | zero t => exact eq
    | negative _ _ low high => exact gt (by omega)
    | positive _ _ low high => exact lt (by omega)
  | negative _ one less more => cases right with
    | below => exact gt (by omega)
    | above => exact lt (by omega)
    | zero t => exact lt (by omega)
    | negative _ two low high =>
        rw [compare_neg, ← compare_magnitude one two]
        rfl
    | positive _ _ low high => exact lt (by omega)
  | positive _ one less more => cases right with
    | below => exact gt (by omega)
    | above => exact lt (by omega)
    | zero t => exact gt (by omega)
    | negative _ _ low high => exact gt (by omega)
    | positive _ two low high =>
        rw [← compare_magnitude one two]
        rfl

theorem lt_iff {x y : Float} {a b : Int} (left : (shape x).units = some a)
    (right : (shape y).units = some b) : x < y ↔ a < b := by
  have same := (placed left).compare_eq (placed right)
  have meaning : x < y ↔
      decide ((x.toModel.unpack.compare y.toModel.unpack == some .lt) = true) = true := Iff.rfl
  rw [meaning, same, decide_eq_true_eq]
  change some (compare a b) == some .lt ↔ _
  rw [beq_iff_eq, Option.some.injEq, Int.compare_eq_lt]

theorem le_iff {x y : Float} {a b : Int} (left : (shape x).units = some a)
    (right : (shape y).units = some b) : x ≤ y ↔ a ≤ b := by
  have same := (placed left).compare_eq (placed right)
  have meaning : x ≤ y ↔ decide
      ((x.toModel.unpack.compare y.toModel.unpack).any (·.isLE) = true) = true := Iff.rfl
  rw [meaning, same, decide_eq_true_eq, Option.any_some, Int.isLE_compare]

theorem shift_exact (m k : Nat) :
    (ExtendedMantissa.mk (m * 2 ^ k) false false) >>> k = ⟨m, false, false⟩ := by
  induction k generalizing m with
  | zero => rw [Nat.pow_zero, Nat.mul_one]; rfl
  | succ k ih =>
      change ((ExtendedMantissa.mk (m * 2 ^ (k + 1)) false false) >>> k).shiftRightOne = _
      have twice : m * 2 ^ (k + 1) = m * 2 * 2 ^ k := by
        rw [Nat.pow_succ, Nat.mul_comm (2 ^ k) 2, Nat.mul_assoc]
      rw [twice, ih]
      simp [ExtendedMantissa.shiftRightOne]

theorem targetExponent_eq (m : Nat) (e : Int) :
    Format.binary64.targetExponent (totalExponent m e) = max ((m.log2 : Int) + e - 52) (-1074) := by
  have bits : Format.binary64.mantissaBits = 53 := rfl
  have least : Format.binary64.minExponent = -1074 := rfl
  rw [Format.targetExponent, totalExponent, bits, least]
  omega

/-- A mantissa with all its bits in front is rounded to itself. -/
theorem round_exact (s : Sign) {m : Nat} {e : Int} (pos : 0 < m) (leading : 2 ^ 52 ≤ m)
    (bits : m < 2 ^ 53) (least : -1074 ≤ e) :
    roundWithAccuracy Format.binary64 s (m * 2 ^ 52) (e - 52) .exact = .finite s m e pos := by
  have log : m.log2 = 52 := (Nat.log2_eq_iff (Nat.ne_of_gt pos)).mpr ⟨leading, bits⟩
  have wide : (m * 2 ^ 52).log2 = 104 :=
    (Nat.log2_eq_iff (by omega)).mpr ⟨by omega, by omega⟩
  have first : shiftToTargetExponent Format.binary64 (m * 2 ^ 52) (e - 52) .exact =
      (⟨m, false, false⟩, e) := by
    have amount : (e - (e - 52)).toNat = 52 := by omega
    have back : e - 52 + ((52 : Nat) : Int) = e := by omega
    have target : Format.binary64.targetExponent (totalExponent (m * 2 ^ 52) (e - 52)) = e := by
      rw [targetExponent_eq, wide]
      omega
    rw [shiftToTargetExponent, target]
    simp only [shiftToExponent, amount, back, ExtendedMantissa.ofMantissaAndAccuracy, shift_exact]
  have second : shiftToTargetExponent Format.binary64 m e .exact = (⟨m, false, false⟩, e) := by
    have target : Format.binary64.targetExponent (totalExponent m e) = e := by
      rw [targetExponent_eq, log]
      omega
    have none : (e - e).toNat = 0 := by omega
    rw [shiftToTargetExponent, target]
    simp only [shiftToExponent, none, Int.natCast_zero, Int.add_zero]
    rfl
  have rounded : (ExtendedMantissa.mk m false false).roundedMantissa = m := rfl
  rw [roundWithAccuracy, first]
  simp only [rounded, second, Nat.ne_of_gt pos, dite_false]

/-- A number whose leading bit is set is multiplied by a power of two without rounding. -/
theorem shape_mul_power {x y : Float} {negative : Bool} {m : Nat} {e k : Int}
    (shown : shape x = .finite negative m e) (leading : 2 ^ 52 ≤ m)
    (power : shape y = .finite false (2 ^ 52) (k - 52)) (least : -1074 ≤ e + k)
    (most : e + k ≤ 971) : shape (x * y) = .finite negative m (e + k) := by
  have pos : 0 < m := by omega
  obtain ⟨s, sign, left⟩ := unpack_finite shown pos
  obtain ⟨t, other, right⟩ := unpack_finite power (by decide)
  have plus : t = .positive := by
    cases t
    · cases other
    · rfl
  subst plus
  have keeps : s * .positive = s := by cases s <;> rfl
  have product : UnpackedFloat.mul Format.binary64 x.toModel.unpack y.toModel.unpack =
      .finite s m (e + k) pos := by
    have exponent : e + (k - 52) = e + k - 52 := by omega
    rw [left, right]
    simp only [UnpackedFloat.mul, keeps, exponent]
    exact round_exact s pos leading (canonical_of_shape shown).bits least
  change shape (.ofModel (.pack (UnpackedFloat.mul _ _ _))) = _
  rw [product, shape_pack_normal s pos leading (canonical_of_shape shown).bits least most, sign]

theorem beq_iff {x y : Float} {a b : Int} (left : (shape x).units = some a)
    (right : (shape y).units = some b) : (x == y) = true ↔ a = b := by
  have same := (placed left).compare_eq (placed right)
  have meaning : (x == y) = (x.toModel.unpack.compare y.toModel.unpack == some .eq) := rfl
  rw [meaning, same, beq_iff_eq, Option.some.injEq, Int.compare_eq_eq]

theorem units_of_number {x : Float} (number : shape x ≠ .notANumber) :
    ∃ a, (shape x).units = some a := by
  cases shown : shape x with
  | notANumber => exact absurd shown number
  | infinite negative => exact ⟨_, rfl⟩
  | finite negative m e => exact ⟨_, rfl⟩

theorem shape_of_units {x : Float} {units : Nat} (shown : (shape x).units = some (units : Int))
    (pos : 0 < units) (inside : units < beyond) :
    ∃ m e, shape x = .finite false m e ∧ magnitude m e = units := by
  cases value : shape x with
  | notANumber =>
      rw [value] at shown
      cases shown
  | infinite negative =>
      rw [value, Shape.units, Option.some.injEq] at shown
      cases negative <;> simp only [signed] at shown <;> omega
  | finite negative m e =>
      rw [value, Shape.units, Option.some.injEq] at shown
      cases negative with
      | true =>
          simp only [signed, if_true] at shown
          omega
      | false =>
          simp only [signed, Bool.false_eq_true, if_false] at shown
          exact ⟨m, e, rfl, Int.ofNat_inj.mp shown⟩

theorem number_of_compare {x y : Float} {order : Ordering}
    (known : x.toModel.unpack.compare y.toModel.unpack = some order) :
    shape x ≠ .notANumber ∧ shape y ≠ .notANumber := by
  rw [shape_eq, shape_eq]
  constructor
  · intro none
    cases left : x.toModel.unpack with
    | notANumber =>
        rw [left] at known
        cases known
    | _ =>
        rw [left] at none
        cases none
  · intro none
    cases right : y.toModel.unpack with
    | notANumber =>
        rw [right] at known
        cases left : x.toModel.unpack <;> rw [left] at known <;> cases known
    | _ =>
        rw [right] at none
        cases none

theorem number_of_lt {x y : Float} (less : x < y) :
    shape x ≠ .notANumber ∧ shape y ≠ .notANumber := by
  have known : (x.toModel.unpack.compare y.toModel.unpack == some .lt) = true :=
    of_decide_eq_true less
  exact number_of_compare (eq_of_beq known)

theorem number_of_le {x y : Float} (le : x ≤ y) :
    shape x ≠ .notANumber ∧ shape y ≠ .notANumber := by
  have known : (x.toModel.unpack.compare y.toModel.unpack).any (·.isLE) = true :=
    of_decide_eq_true le
  cases order : x.toModel.unpack.compare y.toModel.unpack with
  | none =>
      rw [order] at known
      cases known
  | some order' => exact number_of_compare order

theorem shape_zero : shape 0 = .finite false 0 (-1074) := by decide +kernel

@[simp] theorem shape_infinity : shape infinity = .infinite false := by decide +kernel

theorem units_zero : (shape 0).units = some 0 := by
  rw [shape_zero]
  rfl

theorem mul_positive_number {x y : Float} (left : 0 < x) (right : 0 < y) :
    shape (x * y) ≠ .notANumber := by
  obtain ⟨a, xs⟩ := units_of_number (number_of_lt left).2
  obtain ⟨b, ys⟩ := units_of_number (number_of_lt right).2
  have apos := (lt_iff units_zero xs).mp left
  have bpos := (lt_iff units_zero ys).mp right
  have xplace := placed xs
  have yplace := placed ys
  refine shape_pack_number ?_
  generalize x.toModel.unpack = f at xplace
  generalize y.toModel.unpack = g at yplace
  have far := beyond_pos
  cases xplace with
  | below | zero | negative => omega
  | above =>
    cases yplace with
    | below | zero | negative => omega
    | above | positive => exact nofun
  | positive =>
    cases yplace with
    | below | zero | negative => omega
    | above => exact nofun
    | positive => exact roundWithAccuracy_number _ _ _ _

theorem truncated_eq {m : Nat} {e : Int} (least : -1074 ≤ e) :
    truncated m e = magnitude m e / one := by
  cases e with
  | ofNat k =>
      have power : (Int.ofNat k + 1074).toNat = k + places := by
        rw [Int.ofNat_eq_natCast, places]
        omega
      rw [truncated, magnitude, power, Nat.pow_add, ← Nat.mul_assoc, ← one,
        Nat.mul_div_cancel _ one_pos]
  | negSucc k =>
      have power : (Int.negSucc k + 1074).toNat = 1073 - k := by omega
      have whole : places = 1073 - k + (k + 1) := by
        rw [places]
        omega
      rw [truncated, magnitude, power, one, whole, Nat.pow_add 2 (1073 - k) (k + 1), Nat.mul_comm m,
        Nat.mul_div_mul_left _ _ (Nat.two_pow_pos (1073 - k))]

end ProofOfWork.Decimal
