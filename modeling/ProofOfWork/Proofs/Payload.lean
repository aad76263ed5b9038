import ProofOfWork.Hasher
import ProofOfWork.Proofs.Text.Hex
set_option autoImplicit false

namespace ProofOfWork.Payload
open Text

section Readings
variable {text digits : List Char} {bytes : List UInt8}

theorem read_marked (digits : List Char) :
    read (hexMark ++ digits) =
      (Hex.decode (Hex.utf8 digits)).mapError fun fault => .invalidInput (.payloadDigits fault) := by
  rw [read, dropStart_append]
  dsimp only
  cases Hex.decode (Hex.utf8 digits) <;> rfl

theorem read_unmarked (unmarked : ¬ hexMark <+: text) : read text = .ok (Hex.utf8 text) := by
  rw [read, dropStart_eq_none_iff.mpr unmarked]

theorem read_marked_eq_ok_iff :
    read (hexMark ++ digits) = .ok bytes ↔ lowerAscii digits = Hex.encode bytes := by
  have decoded : read (hexMark ++ digits) = .ok bytes ↔
      Hex.decode (Hex.utf8 digits) = .ok bytes := by
    rw [read_marked]
    cases Hex.decode (Hex.utf8 digits) <;> simp [Except.mapError]
  rw [decoded, Hex.decode_eq_ok_iff, eq_comm]
  exact and_iff_right_of_imp Hex.mem_alphabet_of_lowerAscii

theorem read_marked_eq_error_iff {e : Error} :
    read (hexMark ++ digits) = .error e ↔
      ∃ fault : Hex.Fault, e = .invalidInput (.payloadDigits fault) ∧ fault.Tells digits := by
  simp only [read_marked, ← Hex.decode_eq_error_iff]
  cases Hex.decode (Hex.utf8 digits) <;> simp [Except.mapError, eq_comm]

theorem exists_read_marked_error_iff :
    (∃ e, read (hexMark ++ digits) = .error e) ↔
      ¬ (digits.length % 2 = 0 ∧ ∀ c ∈ digits, c ∈ Hex.alphabet) := by
  rw [← Hex.exists_decode_iff, read_marked]
  cases Hex.decode (Hex.utf8 digits) <;> simp [Except.mapError]

end Readings

/-- A text with the mark `hex:` stands for the bytes whose digits follow the mark, in whatever case,
so all bytes can be written. Texts are refused if and only if they have the mark and something else
follows it than an even number of digits; what is wrong is that the bytes behind the mark are odd in
number, or else the first character that is no digit. A text without the mark stands for its own
bytes. -/
theorem read_by_mark :
    hexMark = ['h', 'e', 'x', ':'] ∧
    (∀ bytes, read (hexMark ++ Hex.encode bytes) = .ok bytes) ∧
    (∀ digits bytes, read (hexMark ++ digits) = .ok bytes ↔
      lowerAscii digits = Hex.encode bytes) ∧
    (∀ text, (∃ e, read text = .error e) ↔ ∃ digits, text = hexMark ++ digits ∧
      ¬ (digits.length % 2 = 0 ∧ ∀ c ∈ digits, c ∈ Hex.alphabet)) ∧
    (∀ digits e, read (hexMark ++ digits) = .error e ↔
      ∃ fault : Hex.Fault, e = .invalidInput (.payloadDigits fault) ∧ fault.Tells digits) ∧
    ∀ text, ¬ hexMark <+: text → read text = .ok (String.ofList text).toUTF8.data.toList := by
  refine ⟨rfl, ?_, ?_, ?_, ?_, ?_⟩
  · intro bytes
    exact read_marked_eq_ok_iff.mpr (Hex.lowerAscii_encode bytes)
  · intro digits bytes
    exact read_marked_eq_ok_iff
  · intro text
    constructor
    · rintro ⟨e, failed⟩
      by_cases marked : hexMark <+: text
      · obtain ⟨digits, rfl⟩ := marked
        exact ⟨digits, rfl, exists_read_marked_error_iff.mp ⟨e, failed⟩⟩
      · rw [read_unmarked marked] at failed
        cases failed
    · rintro ⟨digits, rfl, spoilt⟩
      exact exists_read_marked_error_iff.mpr spoilt
  · intro digits e
    exact read_marked_eq_error_iff
  · intro text unmarked
    rw [read_unmarked unmarked, Hex.utf8_eq_toUTF8]

/-- Behind the mark there are digits of both cases, two characters of three bytes, and a digit after
another character; then the mark has a capital letter. -/
theorem read_by_mark_of_texts :
    read ['h', 'e', 'x', ':', 'd', 'E', 'a', 'D'] = .ok [0xDE, 0xAD] ∧
    read ['h', 'e', 'x', ':', '0', '\u00E9'] = .error (.invalidInput (.payloadDigits .oddLength)) ∧
    read ['h', 'e', 'x', ':', '0', '\u00E9', '0'] =
      .error (.invalidInput (.payloadDigits (.badDigit 0xC3 1))) ∧
    ¬ hexMark <+: ['H', 'e', 'x', ':', '\u00E9'] ∧
    read ['H', 'e', 'x', ':', '\u00E9'] = .ok [0x48, 0x65, 0x78, 0x3A, 0xC3, 0xA9] := by
  obtain ⟨-, -, marked, -, refused, unmarked⟩ := read_by_mark
  have spelled : lowerAscii ['d', 'E', 'a', 'D'] = Hex.encode [0xDE, 0xAD] := by decide
  have odd : Hex.Fault.oddLength.Tells ['0', '\u00E9'] := rfl
  have first : (Hex.Fault.badDigit 0xC3 1).Tells ['0', '\u00E9', '0'] :=
    ⟨rfl, ['0'], '\u00E9', ['0'], rfl, rfl, by simp [Hex.alphabet], by decide, rfl⟩
  have capital : ¬ hexMark <+: ['H', 'e', 'x', ':', '\u00E9'] := by decide
  exact ⟨(marked _ _).mpr spelled, (refused _ _).mpr ⟨_, rfl, odd⟩,
    (refused _ _).mpr ⟨_, rfl, first⟩, capital, unmarked _ capital⟩

end ProofOfWork.Payload
