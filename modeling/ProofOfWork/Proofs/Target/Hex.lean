import Mathlib.Data.List.TakeWhile
import ProofOfWork.Proofs.Text.Hex
import ProofOfWork.Proofs.Word256
set_option autoImplicit false

namespace ProofOfWork
open Text

theorem Text.trimBlanks_split (text : List Char) :
    ∃ before after, text = before ++ trimBlanks text ++ after ∧
      (∀ c ∈ before, isBlank c = true) ∧ ∀ c ∈ after, isBlank c = true := by
  refine ⟨text.takeWhile isBlank,
    ((text.dropWhile isBlank).reverse.takeWhile isBlank).reverse, ?_, ?_, ?_⟩
  · rw [List.append_assoc, trimBlanks, ← List.reverse_append, List.takeWhile_append_dropWhile,
      List.reverse_reverse, List.takeWhile_append_dropWhile]
  · intro c member
    exact List.mem_takeWhile_imp member
  · intro c member
    exact List.mem_takeWhile_imp (List.mem_reverse.mp member)

namespace Word256
variable {text digits : List Char} {bytes : List UInt8} {w : Word256}

/-- A text that consists of the digits of a word, of either case, and of blanks around them. -/
structure Spells (text digits : List Char) : Prop where
  surrounded : ∃ before after, text = before ++ digits ++ after ∧
    (∀ c ∈ before, isBlank c = true) ∧ ∀ c ∈ after, isBlank c = true
  length : digits.length = 64
  alphabet : ∀ c ∈ digits, c ∈ Hex.alphabet

theorem Spells.trimmed (spells : Spells text digits) : trimBlanks text = digits := by
  obtain ⟨before, after, split, early, late⟩ := spells.surrounded
  rw [split]
  apply trimBlanks_surrounded early _ late
  intro c member
  exact Hex.alphabet_solid c (spells.alphabet c member)

theorem spells_iff : Spells text digits ↔
    trimBlanks text = digits ∧ digits.length = 64 ∧ ∀ c ∈ digits, c ∈ Hex.alphabet := by
  constructor
  · intro spells
    exact ⟨spells.trimmed, spells.length, spells.alphabet⟩
  · rintro ⟨rfl, length, alphabet⟩
    exact ⟨trimBlanks_split text, length, alphabet⟩

theorem length_hex (w : Word256) : w.hex.length = 64 := by
  rw [hex, Hex.length_encode, Vector.length_toList]

theorem ofBytes_eq_some_iff : ofBytes? bytes = some w ↔ w.bytes.toList = bytes := by
  constructor
  · intro made
    rw [ofBytes?] at made
    split at made
    · rw [← Option.some.inj made]
      rfl
    · cases made
  · rintro rfl
    exact dif_pos w.bytes.length_toList

theorem ofHex_eq_ok_iff : ofHex text = .ok w ↔
    (∀ c ∈ trimBlanks text, c ∈ Hex.alphabet) ∧ w.hex = lowerAscii (trimBlanks text) := by
  rw [hex, ← Hex.decode_eq_ok_iff, ofHex]
  cases Hex.decode (Hex.utf8 (trimBlanks text)) with
  | error fault => simp only [reduceCtorEq]
  | ok bytes =>
      dsimp only
      rw [Except.ok.injEq, eq_comm (a := bytes), ← ofBytes_eq_some_iff]
      cases ofBytes? bytes with
      | none => simp only [reduceCtorEq]
      | some word => simp only [Except.ok.injEq, Option.some.injEq]

theorem Spells.read (spells : Spells text digits) :
    ∃ w, ofHex text = .ok w ∧ w.hex = lowerAscii digits := by
  have even : digits.length = 2 * 32 := spells.length
  obtain ⟨bytes, -, fits, written⟩ := Hex.exists_decode even spells.alphabet
  obtain ⟨w, whole⟩ : ∃ w, ofBytes? bytes = some w := ⟨_, dif_pos fits⟩
  have hex : w.hex = lowerAscii digits := by
    rw [hex, ofBytes_eq_some_iff.mp whole, written]
  refine ⟨w, ofHex_eq_ok_iff.mpr ?_, hex⟩
  rw [spells.trimmed]
  exact ⟨spells.alphabet, hex⟩

theorem exists_ofHex_iff : (∃ w, ofHex text = .ok w) ↔ ∃ digits, Spells text digits := by
  constructor
  · rintro ⟨w, read⟩
    obtain ⟨alphabet, written⟩ := ofHex_eq_ok_iff.mp read
    have length := congrArg List.length written
    rw [length_hex, length_lowerAscii] at length
    exact ⟨trimBlanks text, spells_iff.mpr ⟨rfl, length.symm, alphabet⟩⟩
  · rintro ⟨digits, spells⟩
    obtain ⟨w, read, -⟩ := spells.read
    exact ⟨w, read⟩

def HexFault.ofDigest : HexFault → InputFault
  | .digits fault => .digestDigits fault
  | .length bytes => .digestLength bytes

def HexFault.ofTarget : HexFault → TargetFault
  | .digits fault => .digits fault
  | .length bytes => .length bytes

end Word256

section Readers
open Word256

theorem exists_ok_map {ε δ α β : Type} (x : Except ε α) (f : α → β) (g : ε → δ) :
    (∃ b, (x.map f).mapError g = .ok b) ↔ ∃ a, x = .ok a := by
  cases x <;> simp [Except.map, Except.mapError]

theorem Digest.ofHex_eq (text : List Char) : ofHex text =
    ((Word256.ofHex text).map Digest.mk).mapError fun fault => .invalidInput fault.ofDigest := by
  rw [ofHex]
  rcases Word256.ofHex text with (_ | _) | _ <;> rfl

theorem Target.ofHex_eq (text : List Char) : ofHex text =
    ((Word256.ofHex text).map Target.mk).mapError fun fault => .invalidTarget fault.ofTarget := by
  rw [ofHex]
  rcases Word256.ofHex text with (_ | _) | _ <;> rfl

/-- A text is read as a digest if and only if it is read as a target, which is if and only if it
consists of sixty-four digits and of blanks around them. Then the bytes are the same, and written
they are these digits in lower case. Otherwise both fail for the same cause, each with an error of
its own kind. What is written for a digest or a target reads back. -/
theorem digest_target_ofHex (text : List Char) :
    ((∃ d, Digest.ofHex text = .ok d) ↔ ∃ t, Target.ofHex text = .ok t) ∧
    ((∃ t, Target.ofHex text = .ok t) ↔ ∃ digits, Spells text digits) ∧
    (∀ digits, Spells text digits → trimBlanks text = digits ∧
      ∃ d t, Digest.ofHex text = .ok d ∧ Target.ofHex text = .ok t ∧
        d.word.bytes = t.word.bytes ∧ d.hex = lowerAscii digits ∧ t.hex = lowerAscii digits) ∧
    ((¬ ∃ digits, Spells text digits) → ∃ fault : HexFault,
      Digest.ofHex text = .error (.invalidInput fault.ofDigest) ∧
      Target.ofHex text = .error (.invalidTarget fault.ofTarget)) ∧
    (∀ d : Digest, Digest.ofHex d.hex = .ok d) ∧ ∀ t : Target, Target.ofHex t.hex = .ok t := by
  have accepted : (∃ w, Word256.ofHex text = .ok w) ↔ ∃ digits, Spells text digits :=
    exists_ofHex_iff
  have digest := Digest.ofHex_eq text
  have target := Target.ofHex_eq text
  refine ⟨?_, ?_, ?_, ?_, Digest.ofHex_hex, Target.ofHex_hex⟩
  · rw [digest, target, exists_ok_map, exists_ok_map]
  · rw [target, exists_ok_map, accepted]
  · intro digits spells
    obtain ⟨w, read, written⟩ := spells.read
    rw [read] at digest target
    exact ⟨spells.trimmed, ⟨w⟩, ⟨w⟩, digest, target, rfl, written, written⟩
  · intro other
    cases read : Word256.ofHex text with
    | ok w => exact absurd (accepted.mp ⟨w, read⟩) other
    | error fault =>
        rw [read] at digest target
        exact ⟨fault, digest, target⟩

/-- Digits of both cases between a tabulator and an ideographic space, and sixty-four bytes the last
two of which are one letter. -/
theorem digest_target_ofHex_of_texts :
    let digits := List.replicate 32 'a' ++ List.replicate 32 'F'
    let letter := List.replicate 62 '0' ++ ['\u00E9']
    (Spells ('\t' :: digits ++ ['\u3000']) digits ∧
      ∃ d t, Digest.ofHex ('\t' :: digits ++ ['\u3000']) = .ok d ∧
        Target.ofHex ('\t' :: digits ++ ['\u3000']) = .ok t ∧ d.word.bytes = t.word.bytes ∧
        d.hex = List.replicate 32 'a' ++ List.replicate 32 'f') ∧
    ((Hex.utf8 letter).length = 64 ∧ ¬ ∃ spelled, Spells letter spelled) ∧ ∃ fault : HexFault,
      Digest.ofHex letter = .error (.invalidInput fault.ofDigest) ∧
      Target.ofHex letter = .error (.invalidTarget fault.ofTarget) := by
  intro digits letter
  have early : ∀ c ∈ ['\t'], isBlank c = true := List.all_eq_true.mp rfl
  have late : ∀ c ∈ ['\u3000'], isBlank c = true := List.all_eq_true.mp rfl
  have alphabet : ∀ c ∈ digits, c ∈ Hex.alphabet := by
    intro c member
    rcases List.mem_append.mp member with lower | upper
    · rw [List.eq_of_mem_replicate lower]
      decide
    · rw [List.eq_of_mem_replicate upper]
      decide
  have spells : Spells ('\t' :: digits ++ ['\u3000']) digits :=
    ⟨⟨['\t'], ['\u3000'], rfl, early, late⟩, rfl, alphabet⟩
  have other : ¬ ∃ spelled, Spells letter spelled := by
    rintro ⟨spelled, spells⟩
    have solid : ∀ c ∈ letter, isBlank c = false := by
      intro c member
      rcases List.mem_append.mp member with digit | last
      · rw [List.eq_of_mem_replicate digit]
        rfl
      · rw [List.mem_singleton.mp last]
        rfl
    have trimmed := spells.trimmed
    rw [trimBlanks_of_solid solid] at trimmed
    have length := spells.length
    rw [← trimmed] at length
    exact absurd length (by decide)
  obtain ⟨-, -, read, -, -, -⟩ := digest_target_ofHex ('\t' :: digits ++ ['\u3000'])
  obtain ⟨-, -, -, failed, -, -⟩ := digest_target_ofHex letter
  obtain ⟨-, d, t, digest, target, same, written, -⟩ := read digits spells
  exact ⟨⟨spells, d, t, digest, target, same, written⟩, ⟨rfl, other⟩, failed other⟩

end Readers
end ProofOfWork
