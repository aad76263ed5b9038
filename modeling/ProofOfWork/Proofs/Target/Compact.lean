import Mathlib.Algebra.Order.Floor.Semifield
import Mathlib.Data.Nat.Bitwise
import Mathlib.Data.Rat.Floor
import Mathlib.Order.Bounds.Basic
import ProofOfWork.Proofs.Word256
import ProofOfWork.Target.Compact
set_option autoImplicit false

namespace ProofOfWork
namespace Target

/-- The number of a mantissa and a size. -/
def onGrid (mantissa size : Nat) : Nat := mantissa * 256 ^ size / 256 ^ 3

theorem onGrid_small (mantissa : Nat) {size : Nat} (small : size ≤ 3) :
    onGrid mantissa size = mantissa / 256 ^ (3 - size) := by
  rw [onGrid, ← Nat.pow_sub_mul_pow 256 small, Nat.mul_div_mul_right _ _ (Nat.pow_pos (by decide))]

theorem onGrid_large (mantissa : Nat) {size : Nat} (large : 3 ≤ size) :
    onGrid mantissa size = mantissa * 256 ^ (size - 3) := by
  rw [onGrid, ← Nat.pow_sub_mul_pow 256 large, ← Nat.mul_assoc,
    Nat.mul_div_cancel _ (Nat.pow_pos (by decide))]

/-! Words, their sizes and mantissas. -/

def sizeOf (word : UInt32) : Nat := word.toNat / 2 ^ 24

def mantissaOf (word : UInt32) : Nat := word.toNat % 2 ^ 24

theorem toNat_size (word : UInt32) : (word >>> 24).toNat = sizeOf word := by
  simp [sizeOf, Nat.shiftRight_eq_div_pow]

theorem mantissaOf_lt (word : UInt32) : mantissaOf word < 2 ^ 24 := Nat.mod_lt _ (by decide)

theorem toNat_word {size mantissa : UInt32} (small : size.toNat < 2 ^ 8)
    (low : mantissa.toNat < 2 ^ 24) :
    (size <<< 24 ||| mantissa).toNat = size.toNat * 2 ^ 24 + mantissa.toNat := by
  have fits : size.toNat * 2 ^ 24 < 2 ^ 32 := by omega
  simp only [UInt32.toNat_or, UInt32.toNat_shiftLeft, UInt32.reduceToNat, Nat.reduceMod]
  rw [Nat.shiftLeft_eq, Nat.mod_eq_of_lt fits, ← Nat.shiftLeft_eq,
    ← Nat.shiftLeft_add_eq_or_of_lt low]

theorem word_parts {size mantissa : UInt32} (small : size.toNat < 2 ^ 8)
    (low : mantissa.toNat < 2 ^ 24) :
    sizeOf (size <<< 24 ||| mantissa) = size.toNat ∧
      mantissaOf (size <<< 24 ||| mantissa) = mantissa.toNat := by
  rw [sizeOf, mantissaOf, toNat_word small low]
  omega

/-- The bit that is kept clear is the highest one of a mantissa. -/
theorem and_compactSign (word : UInt32) :
    word &&& compactSign = 0 ↔ mantissaOf word < 2 ^ 23 := by
  have bit : (word &&& compactSign).toNat = (word.toNat.testBit 23).toNat * 2 ^ 23 := by
    rw [UInt32.toNat_and]
    exact Nat.and_two_pow word.toNat 23
  rw [← UInt32.toNat_inj, bit, Nat.testBit_eq_decide_div_mod_eq, mantissaOf]
  have digit : word.toNat / 2 ^ 23 % 2 = word.toNat % 2 ^ 24 / 2 ^ 23 := by omega
  rw [digit]
  by_cases low : word.toNat % 2 ^ 24 < 2 ^ 23
  · have clear : word.toNat % 2 ^ 24 / 2 ^ 23 = 0 := by omega
    simp [clear, low]
  · have set : word.toNat % 2 ^ 24 / 2 ^ 23 = 1 := by omega
    simp [set, low]

/-! Reading a word. -/

theorem mantissaBytes_digit (word : UInt32) (place : Nat) :
    (mantissaBytes word)[place]?.getD 0 = (mantissaOf word / 256 ^ place).toUInt8 := by
  apply UInt8.toNat_inj.mp
  show _ = mantissaOf word / 256 ^ place % 256
  match place with
  | 0 => simp [mantissaBytes, mantissaOf]
  | 1 => simp [mantissaBytes, mantissaOf, Nat.shiftRight_eq_div_pow]; omega
  | 2 => simp [mantissaBytes, mantissaOf, Nat.shiftRight_eq_div_pow]; omega
  | place + 3 =>
    have bound := mantissaOf_lt word
    have grows : 256 ^ 3 ≤ 256 ^ (place + 3) := Nat.pow_le_pow_right (by decide) (by omega)
    rw [Nat.div_eq_of_lt (by omega)]
    simp [mantissaBytes]

/-- The bytes of a mantissa all have a place exactly if its number has. -/
theorem placed_all (word : UInt32) (shift : Nat) :
    (((mantissaBytes word).zipIdx shift).all fun (byte, place) => byte == 0 || place < 32) = true ↔
      mantissaOf word * 256 ^ shift < 2 ^ 256 := by
  have bound := mantissaOf_lt word
  have digit (place : Nat) (small : place < 3) :
      (mantissaBytes word)[place]?.getD 0 = 0 ↔ mantissaOf word / 256 ^ place % 256 = 0 := by
    rw [mantissaBytes_digit, ← UInt8.toNat_inj]
    rfl
  have first := digit 0 (by decide)
  have second := digit 1 (by decide)
  have third := digit 2 (by decide)
  simp only [mantissaBytes, List.getElem?_cons_zero, List.getElem?_cons_succ, Option.getD_some,
    Nat.pow_zero, Nat.div_one, Nat.pow_one] at first second third
  simp only [mantissaBytes, List.zipIdx_cons, List.zipIdx_nil, List.all_cons, List.all_nil,
    Bool.and_true, Bool.and_eq_true, Bool.or_eq_true, beq_iff_eq, decide_eq_true_eq, first, second,
    third]
  have places : shift ≤ 29 ∨ shift = 30 ∨ shift = 31 ∨ 32 ≤ shift := by omega
  -- three bytes: from place 30 on some of them have none
  rcases places with low | rfl | rfl | high
  · have power : 256 ^ shift ≤ 256 ^ 29 := Nat.pow_le_pow_right (by decide) low
    have fits : mantissaOf word * 256 ^ shift < 2 ^ 256 :=
      calc mantissaOf word * 256 ^ shift < 2 ^ 24 * 256 ^ shift :=
            Nat.mul_lt_mul_of_pos_right bound (Nat.pow_pos (by decide))
        _ ≤ 2 ^ 24 * 256 ^ 29 := Nat.mul_le_mul_left _ power
        _ ≤ 2 ^ 256 := by decide
    simp only [fits, iff_true]
    omega
  · omega
  · omega
  · have power : 256 ^ 32 ≤ 256 ^ shift := Nat.pow_le_pow_right (by decide) high
    by_cases zero : mantissaOf word = 0
    · simp [zero]
    · have grows : 1 * 256 ^ 32 ≤ mantissaOf word * 256 ^ shift :=
        Nat.mul_le_mul (Nat.pos_of_ne_zero zero) power
      omega

theorem placed_byte (word : UInt32) (shift place : Nat) :
    (if place < shift then 0 else (mantissaBytes word)[place - shift]?.getD 0) =
      (mantissaOf word * 256 ^ shift / 256 ^ place).toUInt8 := by
  by_cases below : place < shift
  · have split : 256 ^ shift = 256 ^ (shift - place - 1) * 256 * 256 ^ place := by
      rw [← Nat.pow_succ, ← Nat.pow_add]
      congr 1
      omega
    rw [if_pos below, split, ← Nat.mul_assoc, Nat.mul_div_cancel _ (Nat.pow_pos (by decide))]
    apply UInt8.toNat_inj.mp
    show 0 = mantissaOf word * (256 ^ (shift - place - 1) * 256) % 256
    rw [← Nat.mul_assoc, Nat.mul_mod_left]
  · rw [if_neg below, mantissaBytes_digit, ← Nat.pow_sub_mul_pow 256 (Nat.not_lt.mp below),
      Nat.mul_div_mul_right _ _ (Nat.pow_pos (by decide))]

theorem placed_eq (word : UInt32) (shift : Nat) :
    placed? shift (mantissaBytes word) =
      if mantissaOf word * 256 ^ shift < 2 ^ 256 then
        some (ofNat (mantissaOf word * 256 ^ shift))
      else none := by
  unfold placed?
  by_cases fits : mantissaOf word * 256 ^ shift < 2 ^ 256
  · rw [if_pos ((placed_all word shift).mpr fits), if_pos fits]
    simp only [placed_byte]
    rfl
  · rw [if_neg (fun all => fits ((placed_all word shift).mp all)), if_neg fits]

/-- A word stands for its mantissa on its grid, if that is a number of 256 bits. -/
theorem ofCompact_eq (word : UInt32) :
    ofCompact word =
      if onGrid (mantissaOf word) (sizeOf word) < 2 ^ 256 then
        .ok (ofNat (onGrid (mantissaOf word) (sizeOf word)))
      else .error (.invalidTarget (.compactOverflow word)) := by
  unfold ofCompact
  simp only [toNat_size]
  by_cases small : sizeOf word ≤ 3
  · have bound := mantissaOf_lt word
    have fits : mantissaOf word / 256 ^ (3 - sizeOf word) < 2 ^ 256 :=
      Nat.lt_of_le_of_lt (Nat.div_le_self _ _) (by omega)
    rw [if_pos small, onGrid_small _ small, if_pos fits]
    rfl
  · rw [if_neg small, onGrid_large _ (by omega), placed_eq]
    by_cases fits : mantissaOf word * 256 ^ (sizeOf word - 3) < 2 ^ 256
    · rw [if_pos fits, if_pos fits]
    · rw [if_neg fits, if_neg fits]

theorem value_onGrid {word : UInt32} {t : Target} (read : ofCompact word = .ok t) :
    t.value = onGrid (mantissaOf word) (sizeOf word) := by
  rw [ofCompact_eq] at read
  split at read
  · rename_i fits
    rw [← Except.ok.inj read, value, ofNat, Word256.value_ofNat, Nat.mod_eq_of_lt fits]
  · cases read

/-- The number that a word stands for: its last three bytes, moved by the bytes that its first one
counts above three, and rounded down where they are moved below the point. -/
def denoted (word : UInt32) : Nat :=
  ⌊((word &&& 0x00FFFFFF).toNat : ℚ) * (256 : ℚ) ^ (((word >>> 24).toNat : ℤ) - 3)⌋₊

theorem toNat_mantissa (word : UInt32) : (word &&& 0x00FFFFFF).toNat = mantissaOf word := by
  rw [UInt32.toNat_and]
  exact Nat.and_two_pow_sub_one_eq_mod word.toNat 24

theorem onGrid_eq_floor (mantissa size : Nat) :
    onGrid mantissa size = ⌊(mantissa : ℚ) * (256 : ℚ) ^ ((size : ℤ) - 3)⌋₊ := by
  have quotient : (mantissa : ℚ) * (256 : ℚ) ^ ((size : ℤ) - 3) =
      ((mantissa * 256 ^ size : ℕ) : ℚ) / ((256 ^ 3 : ℕ) : ℚ) := by
    have base : (256 : ℚ) ≠ 0 := by norm_num
    rw [zpow_sub₀ base, zpow_natCast]
    push_cast
    rw [mul_div_assoc]
  rw [quotient, Nat.floor_div_eq_div, onGrid]

theorem denoted_eq (word : UInt32) : denoted word = onGrid (mantissaOf word) (sizeOf word) := by
  rw [denoted, toNat_mantissa, toNat_size, onGrid_eq_floor]

/-- A word is read exactly if the number that it stands for has 256 bits, and then as that number. -/
theorem ofCompact_exact (word : UInt32) :
    ((∃ t, ofCompact word = .ok t) ↔ denoted word < 2 ^ 256) ∧
      (∀ t, ofCompact word = .ok t → t.value = denoted word) ∧
      (¬ denoted word < 2 ^ 256 →
        ofCompact word = .error (.invalidTarget (.compactOverflow word))) := by
  have read := ofCompact_eq word
  rw [← denoted_eq] at read
  refine ⟨⟨?_, ?_⟩, ?_, ?_⟩
  · rintro ⟨t, made⟩
    by_contra large
    rw [if_neg large, made] at read
    cases read
  · intro fits
    rw [if_pos fits] at read
    exact ⟨_, read⟩
  · intro t made
    rw [value_onGrid made, denoted_eq]
  · intro large
    rw [if_neg large] at read
    exact read

/-! Writing a target. -/

/-- The bytes of a target without zeros in front. -/
def significant (t : Target) : List UInt8 := t.word.bytes.toList.dropWhile (· == 0)

@[simp] theorem bigEndian_significant (t : Target) : Word256.bigEndian t.significant = t.value := by
  have dropped (bytes : List UInt8) :
      Word256.bigEndian (bytes.dropWhile (· == 0)) = Word256.bigEndian bytes := by
    induction bytes with
    | nil => rfl
    | cons byte bytes ih =>
        rw [List.dropWhile_cons]
        by_cases zero : byte = 0
        · simp [zero, ih]
        · simp [zero]
  exact dropped _

theorem length_significant (t : Target) : t.significant.length ≤ 32 := by
  have shorter := (List.dropWhile_sublist (l := t.word.bytes.toList) (· == 0)).length_le
  rwa [Vector.length_toList] at shorter

theorem le_value_of_significant {t : Target} (some : t.significant ≠ []) :
    256 ^ (t.significant.length - 1) ≤ t.value := by
  have first : (t.significant.head some == 0) = false := List.head_dropWhile_not _ some
  rw [← bigEndian_significant]
  generalize t.significant = bytes at some first
  cases bytes with
  | nil => exact absurd rfl some
  | cons byte bytes =>
      have digit : byte ≠ 0 := by simpa using first
      have pos : 0 < byte.toNat := by
        rw [Nat.pos_iff_ne_zero]
        intro zero
        exact digit (UInt8.toNat_inj.mp zero)
      simpa using Nat.le_add_right_of_le (Nat.le_mul_of_pos_right _ pos)

/-- The first bytes of a number on the grid of their count. -/
theorem bigEndian_take (bytes : List UInt8) :
    Word256.bigEndian ((bytes ++ [0, 0, 0]).take 3) =
      Word256.bigEndian bytes * 256 ^ 3 / 256 ^ bytes.length := by
  have split := Word256.bigEndian_append ((bytes ++ [0, 0, 0]).take 3)
    ((bytes ++ [0, 0, 0]).drop 3)
  have rest := Word256.bigEndian_lt ((bytes ++ [0, 0, 0]).drop 3)
  have length : ((bytes ++ [0, 0, 0]).drop 3).length = bytes.length := by simp
  have zeros : Word256.bigEndian [0, 0, 0] = 0 := rfl
  rw [List.take_append_drop, Word256.bigEndian_append, zeros, Nat.add_zero, Nat.mul_comm] at split
  rw [length] at split rest
  change Word256.bigEndian bytes * 256 ^ 3 = _ at split
  rw [split, Nat.mul_add_div (Nat.pow_pos (by decide)), Nat.div_eq_of_lt rest, Nat.add_zero]

/-- The mantissa that a target has on a grid. -/
def mantissaAt (t : Target) (size : Nat) : Nat := t.value * 256 ^ 3 / 256 ^ size

theorem mantissaAt_succ (t : Target) (size : Nat) :
    t.mantissaAt (size + 1) = t.mantissaAt size / 256 := by
  unfold mantissaAt
  rw [Nat.pow_succ 256 size, Nat.div_div_eq_div_mul]

theorem mantissaAt_length {t : Target} (some : t.significant ≠ []) :
    2 ^ 16 ≤ t.mantissaAt t.significant.length ∧ t.mantissaAt t.significant.length < 2 ^ 24 := by
  have low := le_value_of_significant some
  have high := Word256.bigEndian_lt t.significant
  have filled : 0 < t.significant.length := List.length_pos_iff.mpr some
  have power : 256 ^ t.significant.length = 256 ^ (t.significant.length - 1) * 256 := by
    rw [← Nat.pow_succ]
    congr 1
    omega
  have pos : 0 < 256 ^ t.significant.length := Nat.pow_pos (by decide)
  rw [bigEndian_significant] at high
  unfold mantissaAt
  constructor
  · rw [Nat.le_div_iff_mul_le pos]
    omega
  · rw [Nat.div_lt_iff_lt_mul pos]
    omega

/-- The first three bytes of a target. -/
def leading (t : Target) : UInt32 :=
  (Word256.bigEndian ((t.significant ++ [0, 0, 0]).take 3)).toUInt32

theorem toNat_leading {t : Target} (some : t.significant ≠ []) :
    t.leading.toNat = t.mantissaAt t.significant.length := by
  have high := (mantissaAt_length some).2
  unfold leading
  rw [bigEndian_take, bigEndian_significant, Nat.toUInt32_eq, UInt32.toNat_ofNat']
  exact Nat.mod_eq_of_lt (Nat.lt_trans high (by decide))

theorem compact_eq {t : Target} (some : t.significant ≠ []) :
    t.compact =
      if t.leading &&& compactSign ≠ 0 then
        (t.significant.length.toUInt32 + 1) <<< 24 ||| t.leading >>> 8
      else t.significant.length.toUInt32 <<< 24 ||| t.leading := by
  have full : ¬(t.word.bytes.toList.dropWhile (· == 0)).isEmpty = true := by
    rw [List.isEmpty_iff]
    exact some
  unfold compact
  dsimp only
  rw [if_neg full]
  rfl

theorem significant_ne_nil {t : Target} (pos : 0 < t.value) : t.significant ≠ [] := by
  intro none
  rw [← bigEndian_significant, none] at pos
  exact absurd pos (by decide)

theorem toNat_length_significant (t : Target) :
    t.significant.length.toUInt32.toNat = t.significant.length := by
  have few := t.length_significant
  rw [Nat.toUInt32_eq, UInt32.toNat_ofNat']
  exact Nat.mod_eq_of_lt (by omega)

theorem leading_and_compactSign {t : Target} (some : t.significant ≠ []) :
    t.leading &&& compactSign = 0 ↔ t.leading.toNat < 2 ^ 23 := by
  have high := (mantissaAt_length some).2
  rw [← toNat_leading some] at high
  rw [and_compactSign, mantissaOf, Nat.mod_eq_of_lt high]

theorem compact_clear {t : Target} (some : t.significant ≠ []) (clear : t.leading.toNat < 2 ^ 23) :
    sizeOf t.compact = t.significant.length ∧ mantissaOf t.compact = t.leading.toNat := by
  have few := t.length_significant
  have size := t.toNat_length_significant
  have parts := word_parts (show t.significant.length.toUInt32.toNat < 2 ^ 8 by omega)
    (show t.leading.toNat < 2 ^ 24 by omega)
  rw [compact_eq some, if_neg (not_not_intro ((leading_and_compactSign some).mpr clear))]
  exact ⟨parts.1.trans size, parts.2⟩

/-- First bytes that would set the bit are moved back by one byte. -/
theorem compact_set {t : Target} (some : t.significant ≠ []) (set : ¬ t.leading.toNat < 2 ^ 23) :
    sizeOf t.compact = t.significant.length + 1 ∧
      mantissaOf t.compact = t.leading.toNat / 2 ^ 8 := by
  have few := t.length_significant
  have size := t.toNat_length_significant
  have high := (mantissaAt_length some).2
  rw [← toNat_leading some] at high
  have next : (t.significant.length.toUInt32 + 1).toNat = t.significant.length + 1 := by
    rw [UInt32.toNat_add, size]
    exact Nat.mod_eq_of_lt (show t.significant.length + 1 < 2 ^ 32 by omega)
  have shifted : (t.leading >>> 8).toNat = t.leading.toNat / 2 ^ 8 := by
    simp [Nat.shiftRight_eq_div_pow]
  have parts := word_parts (show (t.significant.length.toUInt32 + 1).toNat < 2 ^ 8 by omega)
    (show (t.leading >>> 8).toNat < 2 ^ 24 by omega)
  rw [compact_eq some, if_pos fun zero => set ((leading_and_compactSign some).mp zero)]
  exact ⟨parts.1.trans next, parts.2.trans shifted⟩

/-- A target is written on the finest grid on which its mantissa keeps the bit clear. -/
theorem compact_parts {t : Target} (pos : 0 < t.value) :
    mantissaOf t.compact = t.mantissaAt (sizeOf t.compact) ∧ 2 ^ 15 ≤ mantissaOf t.compact ∧
      mantissaOf t.compact < 2 ^ 23 ∧ 1 ≤ sizeOf t.compact ∧ sizeOf t.compact ≤ 33 := by
  have some := significant_ne_nil pos
  have few := t.length_significant
  have filled : 0 < t.significant.length := List.length_pos_iff.mpr some
  have bounds := mantissaAt_length some
  rw [← toNat_leading some] at bounds
  by_cases clear : t.leading.toNat < 2 ^ 23
  · obtain ⟨last, front⟩ := compact_clear some clear
    rw [last, front, ← toNat_leading some]
    omega
  · obtain ⟨last, front⟩ := compact_set some clear
    rw [last, front, mantissaAt_succ, ← toNat_leading some]
    omega

theorem compact_zero {t : Target} (zero : t.value = 0) : t.compact = 0 := by
  rw [eq_zero_iff.mpr zero]
  decide

@[simp] theorem ofCompact_zero : ofCompact 0 = .ok Target.zero := by
  have grid : onGrid (mantissaOf 0) (sizeOf 0) = 0 := by decide
  rw [ofCompact_eq, grid, if_pos (by decide)]
  exact congrArg Except.ok (eq_of_value (Word256.value_ofNat 0))

/-! Rounding down. -/

theorem mantissaAt_small (t : Target) {size : Nat} (small : size ≤ 3) :
    t.mantissaAt size = t.value * 256 ^ (3 - size) := by
  rw [mantissaAt, ← Nat.pow_sub_mul_pow 256 small, ← Nat.mul_assoc,
    Nat.mul_div_cancel _ (Nat.pow_pos (by decide))]

theorem mantissaAt_large (t : Target) {size : Nat} (large : 3 ≤ size) :
    t.mantissaAt size = t.value / 256 ^ (size - 3) := by
  rw [mantissaAt, ← Nat.pow_sub_mul_pow 256 large,
    Nat.mul_div_mul_right _ _ (Nat.pow_pos (by decide))]

/-- On a finer grid no mantissa below `2 ^ 23` passes the point `2 ^ 15` of a coarser one. -/
theorem onGrid_finer {mantissa other size : Nat} (large : 3 < size) (finer : other < size)
    (few : mantissa < 2 ^ 23) : onGrid mantissa other ≤ 2 ^ 15 * 256 ^ (size - 3) :=
  calc onGrid mantissa other
      ≤ mantissa * 256 ^ (size - 1) / 256 ^ 3 := by
        apply Nat.div_le_div_right
        exact Nat.mul_le_mul_left _ (Nat.pow_le_pow_right (by decide) (by omega))
    _ = onGrid mantissa (size - 1) := rfl
    _ = mantissa * 256 ^ (size - 4) := by
        rw [onGrid_large _ (by omega)]
        congr 2
    _ ≤ 2 ^ 15 * 256 * 256 ^ (size - 4) := Nat.mul_le_mul_right _ (by omega)
    _ = 2 ^ 15 * 256 ^ (size - 3) := by
        rw [Nat.mul_assoc, ← Nat.pow_succ']
        congr 2
        omega

theorem onGrid_coarser (mantissa : Nat) {other size : Nat} (large : 3 ≤ size)
    (coarser : size ≤ other) :
    onGrid mantissa other = mantissa * 256 ^ (other - size) * 256 ^ (size - 3) := by
  rw [onGrid_large _ (by omega), Nat.mul_assoc, ← Nat.pow_add]
  congr 2
  omega

/-- A number with at least fifteen bits before the grid is rounded down to the greatest number that
any grid has with mantissas below `2 ^ 23`. -/
theorem onGrid_mantissaAt {t : Target} {size : Nat} (low : 2 ^ 15 ≤ t.mantissaAt size) :
    onGrid (t.mantissaAt size) size ≤ t.value ∧
      ∀ mantissa other, mantissa < 2 ^ 23 → onGrid mantissa other ≤ t.value →
        onGrid mantissa other ≤ onGrid (t.mantissaAt size) size := by
  rcases Nat.lt_or_ge 3 size with large | small
  · have pos : 0 < 256 ^ (size - 3) := Nat.pow_pos (by decide)
    have grid := t.mantissaAt_large (Nat.le_of_lt large)
    rw [onGrid_large _ (by omega)]
    constructor
    · rw [grid]
      exact Nat.div_mul_le_self _ _
    · intro mantissa other few below
      rcases Nat.lt_or_ge other size with finer | coarser
      · exact Nat.le_trans (onGrid_finer large finer few) (Nat.mul_le_mul_right _ low)
      · rw [onGrid_coarser mantissa (by omega) coarser] at below ⊢
        apply Nat.mul_le_mul_right
        rw [grid]
        exact (Nat.le_div_iff_mul_le pos).mpr below
  · -- below three bytes the grid has every number, so nothing is rounded
    have whole : onGrid (t.mantissaAt size) size = t.value := by
      rw [onGrid_small _ small, t.mantissaAt_small small,
        Nat.mul_div_cancel _ (Nat.pow_pos (by decide))]
    rw [whole]
    exact ⟨Nat.le_refl _, fun _ _ _ below => below⟩

/-- The numbers of the words that are written: the bit `0x00800000` is clear. -/
def Representable (n : Nat) : Prop :=
  ∃ word t, word &&& compactSign = 0 ∧ ofCompact word = .ok t ∧ t.value = n

/-- A written target reads back as the greatest one below it that a word with the bit clear stands
for, so a target that such a word stands for comes back as it is. -/
theorem ofCompact_compact (t : Target) :
    (∃ back, ofCompact t.compact = .ok back ∧
      IsGreatest {n | Representable n ∧ n ≤ t.value} back.value) ∧
    ∀ word, word &&& compactSign = 0 → ofCompact word = .ok t → ofCompact t.compact = .ok t := by
  have greatest : ∃ back, ofCompact t.compact = .ok back ∧
      IsGreatest {n | Representable n ∧ n ≤ t.value} back.value := by
    -- zero has no first byte and is written apart
    rcases Nat.eq_zero_or_pos t.value with zero | pos
    · refine ⟨Target.zero, ?_, ⟨⟨0, Target.zero, rfl, ofCompact_zero, rfl⟩, ?_⟩, ?_⟩
      · rw [compact_zero zero, ofCompact_zero]
      · exact Nat.le_of_eq (value_zero.trans zero.symm)
      · rintro n ⟨-, below⟩
        omega
    · obtain ⟨mantissa, low, clear, -⟩ := compact_parts pos
      have rounded := onGrid_mantissaAt (mantissa ▸ low)
      rw [← mantissa] at rounded
      obtain ⟨below, most⟩ := rounded
      have bound := t.word.value_lt
      have fits : onGrid (mantissaOf t.compact) (sizeOf t.compact) < 2 ^ 256 :=
        Nat.lt_of_le_of_lt below bound
      have read := ofCompact_eq t.compact
      rw [if_pos fits] at read
      have number := value_onGrid read
      refine ⟨_, read, ⟨⟨t.compact, _, (and_compactSign _).mpr clear, read, rfl⟩, ?_⟩, ?_⟩
      · rw [number]
        exact below
      · rintro n ⟨⟨word, other, sign, decoded, rfl⟩, least⟩
        rw [number]
        rw [value_onGrid decoded] at least ⊢
        exact most _ _ ((and_compactSign word).mp sign) least
  refine ⟨greatest, ?_⟩
  intro word sign read
  obtain ⟨back, again, ⟨⟨-, below⟩, most⟩⟩ := greatest
  have above := most ⟨⟨word, t, sign, read, rfl⟩, Nat.le_refl _⟩
  rw [again, eq_of_value (Nat.le_antisymm below above)]

end Target
end ProofOfWork
