import Mathlib.Data.Nat.Size
import ProofOfWork.Proofs.Word256
set_option autoImplicit false

namespace ProofOfWork
namespace Word256

/-! Set bits at the end of a word. -/

theorem two_pow_pred_split {n k : Nat} (le : k ≤ n) :
    2 ^ n - 1 = 2 ^ k * (2 ^ (n - k) - 1) + (2 ^ k - 1) := by
  obtain ⟨m, rfl⟩ := Nat.exists_eq_add_of_le le
  have pos : 0 < 2 ^ k := Nat.two_pow_pos k
  have least : 2 ^ k ≤ 2 ^ k * 2 ^ m := Nat.le_mul_of_pos_right _ (Nat.two_pow_pos m)
  rw [Nat.add_sub_cancel_left, Nat.pow_add, Nat.mul_sub, Nat.mul_one]
  omega

theorem two_pow_pred_div (n k : Nat) : (2 ^ n - 1) / 2 ^ k = 2 ^ (n - k) - 1 := by
  have pos : 0 < 2 ^ k := Nat.two_pow_pos k
  rcases Nat.lt_or_ge n k with less | more
  · have power : 2 ^ n < 2 ^ k := Nat.pow_lt_pow_right (by decide) less
    rw [Nat.div_eq_of_lt (by omega), Nat.sub_eq_zero_of_le (Nat.le_of_lt less)]
  · rw [two_pow_pred_split more, Nat.mul_add_div pos,
      Nat.div_eq_of_lt (Nat.sub_lt pos Nat.one_pos), Nat.add_zero]

/-- Each byte is the digit that the number of the set bits has at its place. -/
theorem lowBits_byte (count place : Nat) :
    (if place < count / 8 then 255
      else if place = count / 8 ∧ 0 < count % 8 then (1 <<< (count % 8).toUInt8) - 1
      else 0 : UInt8) = ((2 ^ count - 1) / 256 ^ place).toUInt8 := by
  have power : 256 ^ place = 2 ^ (8 * place) := by rw [Nat.pow_mul]
  have mask : ∀ rest < 8, ((1 : UInt8) <<< rest.toUInt8 - 1).toNat = (2 ^ rest - 1) % 256 := by
    decide
  apply UInt8.toNat_inj.mp
  rw [power, two_pow_pred_div]
  change _ = (2 ^ (count - 8 * place) - 1) % 256
  by_cases inside : place < count / 8
  · have full : (255 : UInt8).toNat = 255 := rfl
    rw [if_pos inside, full, two_pow_pred_split (show 8 ≤ count - 8 * place by omega)]
    omega
  · rw [if_neg inside]
    by_cases edge : place = count / 8 ∧ 0 < count % 8
    · have left : count - 8 * place = count % 8 := by omega
      rw [if_pos edge, mask _ (by omega), left]
    · have none : count - 8 * place = 0 := by omega
      rw [if_neg edge, none]
      rfl

theorem lowBits_eq (count : Nat) : lowBits count = ofNat (2 ^ count - 1) := by
  unfold lowBits ofNat
  simp only [lowBits_byte]

theorem value_lowBits {count : Nat} (fits : count ≤ 256) : (lowBits count).value = 2 ^ count - 1 := by
  have power : 2 ^ count ≤ 2 ^ 256 := Nat.pow_le_pow_right (by decide) fits
  have some : 0 < 2 ^ count := Nat.two_pow_pos count
  rw [lowBits_eq, value_ofNat, Nat.mod_eq_of_lt (by omega)]

/-! Zero bits in front of a word. -/

theorem byteWidth_le (byte : UInt8) : byteWidth byte ≤ 8 := by
  unfold byteWidth
  split
  · omega
  · rename_i some
    have digit : byte.toNat ≠ 0 := fun zero => some (UInt8.toNat_inj.mp zero)
    exact (Nat.log2_lt digit).mpr byte.toNat_lt

theorem size_bigEndian_cons {byte : UInt8} (some : byte ≠ 0) (bytes : List UInt8) :
    (bigEndian (byte :: bytes)).size = 8 * bytes.length + byteWidth byte := by
  have digit : byte.toNat ≠ 0 := fun zero => some (UInt8.toNat_inj.mp zero)
  have low := Nat.log2_self_le digit
  have high := Nat.lt_log2_self (n := byte.toNat)
  have rest := bigEndian_lt bytes
  have power : 256 ^ bytes.length = 2 ^ (8 * bytes.length) := by rw [Nat.pow_mul]
  rw [power] at rest
  rw [byteWidth, if_neg some, bigEndian_cons, power]
  apply Nat.le_antisymm
  · rw [Nat.size_le]
    calc 2 ^ (8 * bytes.length) * byte.toNat + bigEndian bytes
        < 2 ^ (8 * bytes.length) * (byte.toNat + 1) := by
          rw [Nat.mul_add, Nat.mul_one]
          exact Nat.add_lt_add_left rest _
      _ ≤ 2 ^ (8 * bytes.length) * 2 ^ (byte.toNat.log2 + 1) := Nat.mul_le_mul_left _ high
      _ = 2 ^ (8 * bytes.length + (byte.toNat.log2 + 1)) := (Nat.pow_add 2 _ _).symm
  · rw [← Nat.add_assoc, Nat.succ_le_iff, Nat.lt_size]
    calc 2 ^ (8 * bytes.length + byte.toNat.log2)
        = 2 ^ (8 * bytes.length) * 2 ^ byte.toNat.log2 := Nat.pow_add 2 _ _
      _ ≤ 2 ^ (8 * bytes.length) * byte.toNat := Nat.mul_le_mul_left _ low
      _ ≤ 2 ^ (8 * bytes.length) * byte.toNat + bigEndian bytes := Nat.le_add_right _ _

/-- The zero bits in front and the width of the number fill the bytes. -/
theorem leadingZeros_add_size (bytes : List UInt8) :
    leadingZeros bytes + (bigEndian bytes).size = 8 * bytes.length := by
  induction bytes with
  | nil => rfl
  | cons byte bytes ih =>
      rw [leadingZeros, List.length_cons]
      by_cases zero : byte = 0
      · subst zero
        rw [if_pos rfl, bigEndian_cons, UInt8.toNat_zero, Nat.mul_zero, Nat.zero_add]
        omega
      · have few := byteWidth_le byte
        rw [if_neg zero, size_bigEndian_cons zero]
        omega

theorem leadingZeroBits_add_size (w : Word256) : w.leadingZeroBits + w.value.size = 256 := by
  have filled := leadingZeros_add_size w.bytes.toList
  rw [Vector.length_toList] at filled
  exact filled

end Word256

namespace Target

/-! The targets. -/

theorem belowPowerOfTwo_accepts {exponent : UInt32} (fits : exponent.toNat ≤ 256) :
    ∃ t, belowPowerOfTwo exponent = .ok t ∧
      ∀ d : Digest, t.accepts d = true ↔ d.value < 2 ^ exponent.toNat := by
  have inside : ¬ exponent > 256 := UInt32.not_lt.mpr fits
  refine ⟨_, if_neg inside, fun d => ?_⟩
  have number := Word256.value_lowBits fits
  have some : 0 < 2 ^ exponent.toNat := Nat.two_pow_pos _
  rw [accepts_iff, value, number]
  omega

theorem ofLeadingZeros_accepts {bits : UInt32} (fits : bits.toNat ≤ 256) :
    ∃ t, ofLeadingZeros bits = .ok t ∧
      ∀ d : Digest, t.accepts d = true ↔ bits.toNat ≤ d.leadingZeroBits := by
  have inside : ¬ bits > 256 := UInt32.not_lt.mpr fits
  have rest : (256 - bits).toNat = 256 - bits.toNat := UInt32.toNat_sub_of_le _ _ fits
  have few : (256 - bits).toNat ≤ 256 := by omega
  obtain ⟨t, made, accepted⟩ := belowPowerOfTwo_accepts few
  refine ⟨t, (if_neg inside).trans made, fun d => ?_⟩
  have filled := d.word.leadingZeroBits_add_size
  have width := Nat.size_le (m := d.value) (n := 256 - bits.toNat)
  change d.leadingZeroBits + d.value.size = 256 at filled
  rw [accepted, rest, ← width]
  omega

/-- A target below a power of two accepts exactly the digests below that power, one of leading
zeros exactly the digests with so many zero bits in front; only more bits than a digest has are
refused. -/
theorem bits_accept :
    (∀ exponent : UInt32,
      if 256 < exponent.toNat then
        belowPowerOfTwo exponent = .error (.invalidTarget (.exponent exponent))
      else ∃ t, belowPowerOfTwo exponent = .ok t ∧
        ∀ d : Digest, t.accepts d = true ↔ d.value < 2 ^ exponent.toNat) ∧
    (∀ bits : UInt32,
      if 256 < bits.toNat then
        ofLeadingZeros bits = .error (.invalidTarget (.leadingZeros bits))
      else ∃ t, ofLeadingZeros bits = .ok t ∧
        ∀ d : Digest, t.accepts d = true ↔ bits.toNat ≤ d.leadingZeroBits) ∧
    ∀ d : Digest, d.leadingZeroBits = 256 - d.value.size := by
  refine ⟨fun exponent => ?_, fun bits => ?_, fun d => ?_⟩
  · split
    · rename_i large
      exact if_pos large
    · rename_i fits
      exact belowPowerOfTwo_accepts (Nat.le_of_not_lt fits)
  · split
    · rename_i large
      exact if_pos large
    · rename_i fits
      exact ofLeadingZeros_accepts (Nat.le_of_not_lt fits)
  · have filled := d.word.leadingZeroBits_add_size
    change d.leadingZeroBits + d.value.size = 256 at filled
    omega

end Target
end ProofOfWork
