import ProofOfWork.Proofs.Text.Digits
import ProofOfWork.Target.Basic
set_option autoImplicit false

namespace ProofOfWork
namespace Word256

@[simp] theorem bigEndian_append (bytes more : List UInt8) :
    bigEndian (bytes ++ more) = 256 ^ more.length * bigEndian bytes + bigEndian more := by
  have shifted (start : Nat) : more.foldl (fun value byte => 256 * value + byte.toNat) start =
      256 ^ more.length * start + bigEndian more := by
    induction more generalizing start with
    | nil => simp [bigEndian]
    | cons byte rest ih =>
        simp only [bigEndian, List.foldl_cons, List.length_cons, Nat.mul_zero, Nat.zero_add]
        rw [ih, ih byte.toNat, Nat.pow_succ, Nat.mul_add, Nat.mul_assoc, Nat.add_assoc]
  rw [bigEndian, List.foldl_append, shifted]
  rfl

@[simp] theorem bigEndian_cons (byte : UInt8) (bytes : List UInt8) :
    bigEndian (byte :: bytes) = 256 ^ bytes.length * byte.toNat + bigEndian bytes := by
  have single : bigEndian [byte] = byte.toNat := by
    simp [bigEndian]
  have split := bigEndian_append [byte] bytes
  rwa [single] at split

theorem bigEndian_lt (bytes : List UInt8) : bigEndian bytes < 256 ^ bytes.length := by
  induction bytes with
  | nil => decide
  | cons byte bytes ih =>
      have digit := byte.toNat_lt
      have most := Nat.mul_le_mul_left (256 ^ bytes.length) (show byte.toNat ≤ 255 by omega)
      rw [bigEndian_cons, List.length_cons, Nat.pow_succ]
      omega

theorem value_lt (w : Word256) : w.value < 2 ^ 256 := by
  have bound := bigEndian_lt w.bytes.toList
  rw [Vector.length_toList] at bound
  exact bound

theorem bigEndian_digits (n count : Nat) :
    bigEndian (List.ofFn fun i : Fin count => (n / 256 ^ (count - 1 - i.val)).toUInt8) =
      n % 256 ^ count := by
  induction count with
  | zero => rw [Nat.pow_zero, Nat.mod_one]; rfl
  | succ count ih =>
      have rest : (fun i : Fin count => (n / 256 ^ (count + 1 - 1 - i.succ.val)).toUInt8) =
          fun i : Fin count => (n / 256 ^ (count - 1 - i.val)).toUInt8 := by
        funext i
        have place : count + 1 - 1 - i.succ.val = count - 1 - i.val := by
          rw [Fin.val_succ]
          omega
        rw [place]
      have digit : (n / 256 ^ count).toUInt8.toNat = n / 256 ^ count % 256 := rfl
      rw [List.ofFn_succ, rest, bigEndian_cons, ih, List.length_ofFn, Nat.mod_pow_succ]
      change 256 ^ count * (n / 256 ^ count).toUInt8.toNat + _ = _
      rw [digit, Nat.add_comm]

@[simp] theorem value_ofNat (n : Nat) : (ofNat n).value = n % 2 ^ 256 := by
  rw [value, ofNat, Vector.toList_ofFn]
  exact bigEndian_digits n 32

@[simp] theorem value_max : max.value = 2 ^ 256 - 1 := by decide

@[simp] theorem value_zero : zero.value = 0 := by decide

/-- Bytes of one length are ordered as the numbers that they stand for. -/
theorem compareBytes_eq {a b : List UInt8} (same : a.length = b.length) :
    compareBytes a b = compare (bigEndian a) (bigEndian b) := by
  induction a generalizing b with
  | nil =>
      obtain rfl := List.eq_nil_of_length_eq_zero same.symm
      rfl
  | cons x xs ih =>
      cases b with
      | nil => cases same
      | cons y ys =>
          have lengths : xs.length = ys.length := Nat.succ.inj same
          have low := bigEndian_lt xs
          have high := bigEndian_lt ys
          rw [compareBytes, bigEndian_cons, bigEndian_cons, lengths]
          rw [lengths] at low
          -- the first byte outweighs all that follow
          by_cases less : x < y
          · have digits : x.toNat + 1 ≤ y.toNat := UInt8.lt_iff_toNat_lt.mp less
            have most := Nat.mul_le_mul_left (256 ^ ys.length) digits
            rw [if_pos less, eq_comm, Nat.compare_eq_lt]
            rw [Nat.mul_add] at most
            omega
          · by_cases more : y < x
            · have digits : y.toNat + 1 ≤ x.toNat := UInt8.lt_iff_toNat_lt.mp more
              have most := Nat.mul_le_mul_left (256 ^ ys.length) digits
              rw [if_neg less, if_pos more, eq_comm, Nat.compare_eq_gt]
              rw [Nat.mul_add] at most
              omega
            · have equal : x = y := by
                rw [UInt8.lt_iff_toNat_lt] at less more
                exact UInt8.toNat_inj.mp (by omega)
              subst equal
              rw [if_neg less, if_neg more, ih lengths]
              simp only [Nat.compare_eq_ite_lt, Nat.add_lt_add_iff_left]

@[simp] theorem compare_eq (a b : Word256) : compare a b = compare a.value b.value := by
  have lengths : a.bytes.toList.length = b.bytes.toList.length := by
    rw [Vector.length_toList, Vector.length_toList]
  exact compareBytes_eq lengths

@[simp] theorem le_iff (a b : Word256) : a.le b = true ↔ a.value ≤ b.value := by
  simp [le, Nat.compare_eq_gt]

theorem eq_of_bigEndian {a b : List UInt8} (same : a.length = b.length)
    (number : bigEndian a = bigEndian b) : a = b := by
  induction a generalizing b with
  | nil => exact (List.eq_nil_of_length_eq_zero same.symm).symm
  | cons x xs ih =>
      cases b with
      | nil => cases same
      | cons y ys =>
          have lengths : xs.length = ys.length := Nat.succ.inj same
          have low := bigEndian_lt xs
          have high := bigEndian_lt ys
          rw [bigEndian_cons, bigEndian_cons, lengths] at number
          rw [lengths] at low
          have digit : x.toNat = y.toNat := by
            have first := congrArg (· / 256 ^ ys.length) number
            have pos : 0 < 256 ^ ys.length := Nat.pow_pos (by decide)
            simpa only [Nat.mul_add_div pos, Nat.div_eq_of_lt low, Nat.div_eq_of_lt high,
              Nat.add_zero] using first
          rw [digit] at number
          rw [UInt8.toNat_inj.mp digit, ih lengths (Nat.add_left_cancel number)]

theorem eq_of_value {a b : Word256} (same : a.value = b.value) : a = b := by
  have lengths : a.bytes.toList.length = b.bytes.toList.length := by
    rw [Vector.length_toList, Vector.length_toList]
  have bytes := eq_of_bigEndian lengths same
  exact congrArg Word256.mk (Vector.toList_inj.mp bytes)

theorem ofBytes?_eq {bytes : List UInt8} (length : bytes.length = 32) :
    ofBytes? bytes = some (ofNat (bigEndian bytes)) := by
  have fits := bigEndian_lt bytes
  rw [length] at fits
  unfold ofBytes?
  rw [dif_pos length, Option.some.injEq]
  apply eq_of_value
  rw [value_ofNat]
  exact (Nat.mod_eq_of_lt fits).symm

/-! Numbers in as few bytes as there can be. -/

/-- The bytes of a number, as few as there can be, the most significant one first; one for zero. -/
def numberBytes (n : Nat) : List UInt8 :=
  if n < 256 then [n.toUInt8] else numberBytes (n / 256) ++ [n.toUInt8]

theorem bigEndian_numberBytes (n : Nat) : bigEndian (numberBytes n) = n := by
  have single (n : Nat) : bigEndian [n.toUInt8] = n % 256 := by
    rw [bigEndian, List.foldl_cons, List.foldl_nil, Nat.mul_zero, Nat.zero_add]
    rfl
  induction n using numberBytes.induct with
  | case1 n small => rw [numberBytes, if_pos small, single, Nat.mod_eq_of_lt small]
  | case2 n large ih =>
      rw [numberBytes, if_neg large, bigEndian_append, ih, single, List.length_singleton,
        Nat.pow_one, Nat.div_add_mod]

theorem length_numberBytes {n k : Nat} (fits : n < 256 ^ (k + 1)) :
    (numberBytes n).length ≤ k + 1 := by
  induction n using numberBytes.induct generalizing k with
  | case1 n small =>
      rw [numberBytes, if_pos small, List.length_singleton]
      omega
  | case2 n large ih =>
      cases k with
      | zero =>
          rw [Nat.zero_add, Nat.pow_one] at fits
          omega
      | succ k =>
          have rest : n / 256 < 256 ^ (k + 1) := by
            rw [Nat.div_lt_iff_lt_mul (by decide), ← Nat.pow_succ]
            exact fits
          have shorter := ih rest
          rw [numberBytes, if_neg large, List.length_append, List.length_singleton]
          omega

theorem bigEndian_zeros (count : Nat) (bytes : List UInt8) :
    bigEndian (List.replicate count 0 ++ bytes) = bigEndian bytes := by
  induction count with
  | zero => rfl
  | succ count ih =>
      simp [List.replicate_succ, ih]

@[simp] theorem ofHex_hex (w : Word256) : ofHex w.hex = .ok w := by
  have trimmed := Text.trimBlanks_of_solid (Text.Hex.encode_solid w.bytes.toList)
  have read := Text.Hex.decode_encode w.bytes.toList
  have whole : ofBytes? w.bytes.toList = some w := dif_pos w.bytes.length_toList
  rw [ofHex, hex, trimmed, read]
  dsimp only
  rw [whole]

end Word256

@[simp] theorem Digest.ofHex_hex (d : Digest) : ofHex d.hex = .ok d := by
  simp [ofHex, hex]

namespace Target

@[simp] theorem ofHex_hex (t : Target) : ofHex t.hex = .ok t := by
  simp [ofHex, hex]

theorem eq_of_value {a b : Target} (same : a.value = b.value) : a = b :=
  congrArg Target.mk (Word256.eq_of_value same)

@[simp] theorem value_max : max.value = 2 ^ 256 - 1 := Word256.value_max

@[simp] theorem value_zero : zero.value = 0 := Word256.value_zero

theorem eq_zero_iff {t : Target} : t = zero ↔ t.value = 0 := by
  constructor
  · rintro rfl
    exact value_zero
  · intro nothing
    exact eq_of_value (nothing.trans value_zero.symm)

@[simp] theorem accepts_iff (t : Target) (d : Digest) : t.accepts d = true ↔ d.value ≤ t.value :=
  Word256.le_iff d.word t.word

/-- Targets are ordered byte by byte. -/
instance : LE Target := leOfOrd

@[simp] theorem le_iff {s t : Target} : s ≤ t ↔ s.value ≤ t.value := by
  change (compare s.word t.word).isLE = true ↔ s.word.value ≤ t.word.value
  simp [Nat.isLE_compare]

theorem accepts_mono {s t : Target} (le : s ≤ t) {d : Digest} (accepted : s.accepts d = true) :
    t.accepts d = true := by
  rw [accepts_iff] at accepted ⊢
  exact Nat.le_trans accepted (le_iff.mp le)

theorem max_accepts (d : Digest) : max.accepts d = true := by
  have below : d.value < 2 ^ 256 := Word256.value_lt d.word
  rw [accepts_iff, value_max]
  omega

theorem zero_accepts_iff (d : Digest) : zero.accepts d = true ↔ d.value = 0 := by
  simp

end Target
end ProofOfWork
