import Mathlib.Data.List.Induction
import ProofOfWork.Proofs.Text.Digits
set_option autoImplicit false

namespace ProofOfWork.Text

@[simp] theorem length_lowerAscii (text : List Char) : (lowerAscii text).length = text.length :=
  List.length_map Char.toLower

namespace Hex

/-- The digits of either case. -/
def alphabet : List Char :=
  ['0', '1', '2', '3', '4', '5', '6', '7', '8', '9', 'a', 'b', 'c', 'd', 'e', 'f',
    'A', 'B', 'C', 'D', 'E', 'F']

section Characters
variable {c : Char}

theorem alphabet_value : ∀ c ∈ alphabet, ∃ n : Fin 16, hexDigit n = c.toLower ∧
    String.utf8EncodeChar c = [c.toNat.toUInt8] ∧ digitValue? c.toNat.toUInt8 = some n.val := by
  -- the list is gone through, and not all characters
  have all : alphabet.all (fun c => decide (∃ n : Fin 16, hexDigit n = c.toLower ∧
      String.utf8EncodeChar c = [c.toNat.toUInt8] ∧
      digitValue? c.toNat.toUInt8 = some n.val)) = true := by decide
  intro c member
  exact of_decide_eq_true (List.all_eq_true.mp all c member)

theorem alphabet_solid : ∀ c ∈ alphabet, isBlank c = false := by
  have all : alphabet.all (fun c => !isBlank c) = true := by decide
  intro c member
  exact Bool.not_eq_true' _ ▸ List.all_eq_true.mp all c member

theorem digitValue_ascii : ∀ n : Fin 128, (digitValue? n.val.toUInt8).isSome = true →
    Char.ofNat n ∈ alphabet := by
  decide

theorem digitValue_high {byte : UInt8} (high : 128 ≤ byte.toNat) : digitValue? byte = none := by
  rw [digitValue?, if_neg (by omega), if_neg (by omega), if_neg (by omega)]

theorem utf8EncodeChar_high (beyond : 128 ≤ c.toNat) :
    ∃ byte rest, String.utf8EncodeChar c = byte :: rest ∧ 128 ≤ byte.toNat := by
  have wide : ¬ c.val.toNat ≤ 127 := Nat.not_le.mpr beyond
  have lead {n : Nat} (low : 128 ≤ n) (high : n < 256) : 128 ≤ (UInt8.ofNat n).toNat := by
    rw [UInt8.toNat_ofNat', Nat.mod_eq_of_lt high]
    exact low
  unfold String.utf8EncodeChar
  dsimp only
  rw [if_neg wide]
  split
  · exact ⟨_, _, rfl, lead (by omega) (by omega)⟩
  · split <;> exact ⟨_, _, rfl, lead (by omega) (by omega)⟩

theorem utf8EncodeChar_other (other : c ∉ alphabet) :
    ∃ byte rest, String.utf8EncodeChar c = byte :: rest ∧ digitValue? byte = none := by
  rcases Nat.lt_or_ge c.toNat 128 with ascii | beyond
  · refine ⟨c.toNat.toUInt8, [], if_pos (Nat.le_of_lt_succ ascii), ?_⟩
    rw [← Option.not_isSome_iff_eq_none]
    intro digit
    have known := digitValue_ascii ⟨c.toNat, ascii⟩ digit
    rw [Char.ofNat_toNat] at known
    exact other known
  · obtain ⟨byte, rest, encoded, high⟩ := utf8EncodeChar_high beyond
    exact ⟨byte, rest, encoded, digitValue_high high⟩

theorem alphabet_hexDigit : ∀ n : Fin 16, hexDigit n ∈ alphabet := by decide

/-- There are no other letters whose lower case is a digit. -/
theorem mem_alphabet_of_toLower (lower : c.toLower ∈ alphabet) : c ∈ alphabet := by
  by_cases capital : c.val ≥ 'A'.val ∧ c.val ≤ 'Z'.val
  · have letters : ∀ n : Fin 26, (Char.ofNat (65 + n)).toLower ∈ alphabet →
        Char.ofNat (65 + n) ∈ alphabet := by decide
    have first : 65 ≤ c.toNat := UInt32.le_iff_toNat_le.mp capital.1
    have last : c.toNat ≤ 90 := UInt32.le_iff_toNat_le.mp capital.2
    have known := letters ⟨c.toNat - 65, by omega⟩
    rw [Nat.add_sub_cancel' first, Char.ofNat_toNat] at known
    exact known lower
  · have unchanged : c.toLower = c := dif_neg capital
    rwa [unchanged] at lower

end Characters

section Texts
variable {text : List Char} {bytes : List UInt8} {fault : Fault} {index : Nat}

@[simp] theorem utf8_cons (c : Char) (text : List Char) :
    utf8 (c :: text) = String.utf8EncodeChar c ++ utf8 text := List.flatMap_cons

theorem utf8_eq_toUTF8 (text : List Char) :
    utf8 text = (String.ofList text).toUTF8.data.toList := by
  change _ = (utf8 text).toByteArray.data.toList
  rw [List.data_toByteArray, List.toList_toArray]

theorem digits_of_mem_alphabet (digits : ∀ c ∈ text, c ∈ alphabet) :
    ∀ byte ∈ utf8 text, (digitValue? byte).isSome = true := by
  intro byte member
  obtain ⟨c, inside, encoded⟩ := List.mem_flatMap.mp member
  obtain ⟨n, -, single, value⟩ := alphabet_value c (digits c inside)
  rw [single, List.mem_singleton] at encoded
  rw [encoded, value]
  rfl

theorem length_utf8_digits (digits : ∀ c ∈ text, c ∈ alphabet) :
    (utf8 text).length = text.length := by
  induction text with
  | nil => rfl
  | cons c text ih =>
      obtain ⟨n, -, single, -⟩ := alphabet_value c (digits c List.mem_cons_self)
      have rest := ih fun c member => digits c (List.mem_cons_of_mem _ member)
      simp only [utf8_cons, single, List.length_append, List.length_cons, List.length_nil, rest]
      omega

theorem digitAt_of_digit {byte : UInt8} (digit : (digitValue? byte).isSome = true) :
    ∃ n, digitAt index byte = .ok n := by
  obtain ⟨n, known⟩ := Option.isSome_iff_exists.mp digit
  refine ⟨n, ?_⟩
  rw [digitAt, known]

theorem digitAt_other {byte : UInt8} (none : digitValue? byte = none) :
    digitAt index byte = .error (.badDigit byte index) := by
  rw [digitAt, none]

/-- The first byte that is no digit stops the reading, be it the first or the second of a pair. -/
theorem decodePairs_other {front rest : List UInt8} {byte : UInt8} (index : Nat)
    (digits : ∀ b ∈ front, (digitValue? b).isSome = true) (other : digitValue? byte = none)
    (even : (front ++ byte :: rest).length % 2 = 0) :
    decodePairs index (front ++ byte :: rest) = .error (.badDigit byte (index + front.length)) := by
  induction front using List.twoStepInduction generalizing index with
  | nil =>
      cases rest with
      | nil => cases even
      | cons low rest =>
          rw [List.nil_append, decodePairs, digitAt_other other]
          rfl
  | singleton high =>
      obtain ⟨h, first⟩ := digitAt_of_digit (digits high List.mem_cons_self)
      rw [List.singleton_append, decodePairs, first, digitAt_other other]
      rfl
  | cons_cons high low front ih =>
      simp only [List.forall_mem_cons] at digits
      obtain ⟨high_digit, low_digit, others⟩ := digits
      obtain ⟨h, first⟩ := digitAt_of_digit high_digit
      obtain ⟨l, second⟩ := digitAt_of_digit low_digit
      simp only [List.cons_append, List.length_cons] at even ⊢
      rw [decodePairs, first, second, ih (index + 2) others (by omega), Nat.add_assoc index 2,
        Nat.add_comm 2]
      rfl

/-- What a fault tells of a text: that its bytes are odd in number, or else which character is the
first that is no digit. It tells the place of that character, and of the character the first byte. -/
def Fault.Tells (text : List Char) : Fault → Prop
  | .oddLength => (utf8 text).length % 2 = 1
  | .badDigit byte index => (utf8 text).length % 2 = 0 ∧
      ∃ front c rest, text = front ++ c :: rest ∧ front.length = index ∧
        (∀ d ∈ front, d ∈ alphabet) ∧ c ∉ alphabet ∧
        (String.utf8EncodeChar c).head? = some byte

theorem Fault.Tells.decode (told : fault.Tells text) : decode (utf8 text) = .error fault := by
  cases fault with
  | oddLength => exact if_pos told
  | badDigit byte index =>
      obtain ⟨even, front, c, rest, rfl, rfl, digits, other, first⟩ := told
      obtain ⟨lead, tail, encoded, none⟩ := utf8EncodeChar_other other
      rw [encoded, List.head?_cons, Option.some.injEq] at first
      rw [utf8_append, utf8_cons, encoded, List.cons_append] at even ⊢
      -- all characters in front are single bytes, so the place is that of the byte
      rw [Hex.decode, if_neg (by omega),
        decodePairs_other 0 (digits_of_mem_alphabet digits) none even, length_utf8_digits digits,
        Nat.zero_add, first]

theorem exists_tells (spoilt : ¬ (text.length % 2 = 0 ∧ ∀ c ∈ text, c ∈ alphabet)) :
    ∃ fault : Fault, fault.Tells text := by
  by_cases odd : (utf8 text).length % 2 = 1
  · exact ⟨.oddLength, odd⟩
  · have even : (utf8 text).length % 2 = 0 := by omega
    have other : ∃ c ∈ text, c ∉ alphabet := by
      by_contra! digits
      rw [length_utf8_digits digits] at even
      exact spoilt ⟨even, digits⟩
    have found : (text.find? (· ∉ alphabet)).isSome = true := by simpa using other
    obtain ⟨c, first⟩ := Option.isSome_iff_exists.mp found
    obtain ⟨none, front, rest, split, digits⟩ := List.find?_eq_some_iff_append.mp first
    have none : c ∉ alphabet := of_decide_eq_true none
    obtain ⟨byte, tail, encoded, -⟩ := utf8EncodeChar_other none
    refine ⟨.badDigit byte front.length, even, front, c, rest, split, rfl, ?_, none, ?_⟩
    · intro d member
      simpa using digits d member
    · rw [encoded, List.head?_cons]

theorem encodeByte_pair (high low : Fin 16) :
    encodeByte (16 * high.val + low.val).toUInt8 = [hexDigit high, hexDigit low] := by
  have number : (16 * high.val + low.val).toUInt8.toNat = 16 * high.val + low.val := by
    rw [Nat.toUInt8_eq, UInt8.toNat_ofNat']
    omega
  have first : (16 * high.val + low.val) / 16 = high.val := by omega
  have second : (16 * high.val + low.val) % 16 = low.val := by omega
  rw [encodeByte, number, first, second]

theorem decodePairs_digits (index : Nat) (even : text.length % 2 = 0)
    (digits : ∀ c ∈ text, c ∈ alphabet) :
    ∃ bytes, decodePairs index (utf8 text) = .ok bytes ∧ encode bytes = lowerAscii text := by
  induction text using List.twoStepInduction generalizing index with
  | nil => exact ⟨[], rfl, rfl⟩
  | singleton c => cases even
  | cons_cons high low text ih =>
      simp only [List.forall_mem_cons] at digits
      obtain ⟨first, second, others⟩ := digits
      obtain ⟨h, shown, single, value⟩ := alphabet_value high first
      obtain ⟨l, shown', single', value'⟩ := alphabet_value low second
      rw [List.length_cons, List.length_cons] at even
      obtain ⟨bytes, read, written⟩ := ih (index + 2) (by omega) others
      refine ⟨(16 * h.val + l.val).toUInt8 :: bytes, ?_, ?_⟩
      · rw [utf8_cons, utf8_cons, single, single', List.singleton_append, List.singleton_append,
          decodePairs, digitAt, value, digitAt, value', read]
        rfl
      · rw [encode, List.flatMap_cons, encodeByte_pair, ← encode, written, shown, shown']
        rfl

theorem encode_injective {a b : List UInt8} (same : encode a = encode b) : a = b := by
  have back := decode_encode a
  rw [same, decode_encode b] at back
  exact (Except.ok.inj back).symm

@[simp] theorem length_encode (bytes : List UInt8) : (encode bytes).length = 2 * bytes.length := by
  induction bytes with
  | nil => rfl
  | cons byte bytes ih =>
      rw [encode, List.flatMap_cons, ← encode, List.length_append, ih, List.length_cons]
      change 2 + 2 * bytes.length = _
      omega

theorem length_of_written (written : encode bytes = lowerAscii text) :
    text.length = 2 * bytes.length := by
  rw [← length_lowerAscii, ← written, length_encode]

/-- A text stands for the bytes that it is written for, if it has digits only. -/
theorem decode_eq_ok_iff :
    decode (utf8 text) = .ok bytes ↔
      (∀ c ∈ text, c ∈ alphabet) ∧ encode bytes = lowerAscii text := by
  constructor
  · intro read
    have spelled : text.length % 2 = 0 ∧ ∀ c ∈ text, c ∈ alphabet := by
      by_contra spoilt
      obtain ⟨fault, told⟩ := exists_tells spoilt
      rw [told.decode] at read
      cases read
    obtain ⟨even, digits⟩ := spelled
    obtain ⟨again, same, written⟩ := decodePairs_digits 0 even digits
    rw [decode, length_utf8_digits digits, if_neg (by omega), same] at read
    rw [← Except.ok.inj read]
    exact ⟨digits, written⟩
  · rintro ⟨digits, written⟩
    have lengths := length_of_written written
    obtain ⟨again, read, same⟩ := decodePairs_digits 0 (by omega) digits
    rw [decode, length_utf8_digits digits, if_neg (by omega), read]
    rw [← written] at same
    rw [encode_injective same]

theorem mem_alphabet_of_lowerAscii (written : lowerAscii text = encode bytes) :
    ∀ c ∈ text, c ∈ alphabet := by
  intro c member
  apply mem_alphabet_of_toLower
  apply all_encode alphabet_hexDigit bytes
  rw [← written]
  exact List.mem_map_of_mem member

theorem lowerAscii_encode (bytes : List UInt8) : lowerAscii (encode bytes) = encode bytes :=
  (decode_eq_ok_iff.mp (decode_encode bytes)).2.symm

theorem exists_decode {count : Nat} (pairs : text.length = 2 * count)
    (digits : ∀ c ∈ text, c ∈ alphabet) :
    ∃ bytes, decode (utf8 text) = .ok bytes ∧ bytes.length = count ∧
      encode bytes = lowerAscii text := by
  obtain ⟨bytes, -, written⟩ := decodePairs_digits 0 (by omega) digits
  have lengths := length_of_written written
  exact ⟨bytes, decode_eq_ok_iff.mpr ⟨digits, written⟩, by omega, written⟩

/-- A text stands for bytes if and only if it is an even number of digits. -/
theorem exists_decode_iff :
    (∃ bytes, decode (utf8 text) = .ok bytes) ↔
      text.length % 2 = 0 ∧ ∀ c ∈ text, c ∈ alphabet := by
  constructor
  · rintro ⟨bytes, read⟩
    obtain ⟨digits, written⟩ := decode_eq_ok_iff.mp read
    have lengths := length_of_written written
    exact ⟨by omega, digits⟩
  · rintro ⟨even, digits⟩
    have pairs : text.length = 2 * (text.length / 2) := by omega
    obtain ⟨bytes, read, -⟩ := exists_decode pairs digits
    exact ⟨bytes, read⟩

/-- Reading fails with the fault that there is to tell. -/
theorem decode_eq_error_iff : decode (utf8 text) = .error fault ↔ fault.Tells text := by
  constructor
  · intro failed
    have spoilt : ¬ (text.length % 2 = 0 ∧ ∀ c ∈ text, c ∈ alphabet) := by
      rw [← exists_decode_iff, failed]
      simp only [reduceCtorEq, exists_false, not_false_eq_true]
    obtain ⟨actual, told⟩ := exists_tells spoilt
    rw [told.decode] at failed
    exact Except.error.inj failed ▸ told
  · exact Fault.Tells.decode

end Texts
end Hex
end ProofOfWork.Text
