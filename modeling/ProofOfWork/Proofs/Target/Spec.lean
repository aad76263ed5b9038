import ProofOfWork.Proofs.CommandLine.Level
import ProofOfWork.Proofs.Decimal.Text
import ProofOfWork.Proofs.Word256
import ProofOfWork.Target.Spec
set_option autoImplicit false

namespace ProofOfWork
open Text

namespace Decimal
variable {x : Float}

theorem eq_infinity (shown : shape x = .infinite false) : x = infinity :=
  eq_of_shape (by rw [shown]; exact nofun) (shown.trans shape_infinity.symm)

theorem eq_neg_infinity (shown : shape x = .infinite true) : x = -infinity :=
  eq_of_shape (by rw [shown]; exact nofun) (shown.trans (by decide +kernel))

theorem readReal_plainText (number : shape x ≠ .notANumber) :
    readReal (plainLayout.text x) = .ok x := by
  cases shown : shape x with
  | notANumber => exact absurd shown number
  | infinite negative =>
      rw [Layout.text, shown]
      cases negative with
      | true =>
        rw [eq_neg_infinity shown]
        rfl
      | false =>
        rw [eq_infinity shown]
        rfl
  | finite negative m e => exact plainLayout.readReal_text shown

end Decimal

namespace TargetSpec

theorem dropStart_of_absent {start text : List Char} {mark : Char} (needed : mark ∈ start)
    (absent : mark ∉ text) : dropStart? start text = none := by
  rw [dropStart_eq_none_iff]
  intro begins
  exact absent (begins.subset needed)

theorem dropStarts_of_absent {start text : List Char} {mark : Char} (needed : mark ∈ start)
    (absent : mark ∉ text) (fuel : Nat) : dropStarts start fuel text = text := by
  cases fuel with
  | zero => rfl
  | succ fuel => rw [dropStarts, dropStart_of_absent needed absent]

theorem readCompact_padded (word : UInt32) :
    readCompact ('0' :: 'x' :: padded 16 8 word.toNat) = .ok word := by
  have below : word.toNat < 2 ^ 32 := word.toNat_lt
  have absent (mark : Char) (other : ∀ d : Fin 16, (d.val.digitChar != mark) = true) :
      mark ∉ padded 16 8 word.toNat := by
    intro member
    have apart := all_padded (p := (· != mark)) other (by decide) (by decide) mark member
    rw [bne_self_eq_false] at apart
    cases apart
  have lower : dropStarts ['0', 'x'] ('0' :: 'x' :: padded 16 8 word.toNat).length
      ('0' :: 'x' :: padded 16 8 word.toNat) = padded 16 8 word.toNat := by
    change dropStarts ['0', 'x'] ((padded 16 8 word.toNat).length + 1) (padded 16 8 word.toNat) = _
    exact dropStarts_of_absent (List.mem_cons_of_mem _ List.mem_cons_self) (absent 'x' (by decide)) _
  have upper : dropStarts ['0', 'X'] (padded 16 8 word.toNat).length (padded 16 8 word.toNat) =
      padded 16 8 word.toNat :=
    dropStarts_of_absent (List.mem_cons_of_mem _ List.mem_cons_self) (absent 'X' (by decide)) _
  rw [readCompact, lower, upper, readUnsigned_padded (by decide) (by decide) 8 below]
  exact congrArg Except.ok UInt32.ofNat_toNat

/-- Everything but a difficulty that is not a number. -/
def Proper : TargetSpec → Prop
  | .difficulty value => Decimal.shape value ≠ .notANumber
  | _ => True

theorem hex_ne_nil (target : Target) : target.hex ≠ [] := by
  intro none
  have length := Hex.length_utf8_encode target.word.bytes.toList
  have empty : Hex.encode target.word.bytes.toList = [] := none
  rw [empty, Vector.length_toList] at length
  cases length

theorem text_parts {s : TargetSpec} (proper : s.Proper) : ∃ front value, s.text = front ++ value ∧
    (∀ c ∈ front, isPlain c = true ∨ c = ':') ∧ value ≠ [] ∧ ∀ c ∈ value, isPlain c = true := by
  have form (name : String) (shown : name.toList.all (fun c => isPlain c || c = ':') = true) :
      ∀ c ∈ name.toList, isPlain c = true ∨ c = ':' := by
    simpa using List.all_eq_true.mp shown
  cases s with
  | digits target =>
      exact ⟨[], target.hex, rfl, nofun, hex_ne_nil target,
        fun c member => plain_of_alphanum (Hex.encode_alphanum _ c member)⟩
  | leadingZeros bits =>
      exact ⟨_, _, rfl, form "bits:" (by decide), Nat.toDigits_ne_nil,
        all_toDigits (by decide) (by decide) (by decide)⟩
  | powerOfTwo exponent =>
      exact ⟨_, _, rfl, form "pow2:" (by decide), Nat.toDigits_ne_nil,
        all_toDigits (by decide) (by decide) (by decide)⟩
  | compact word =>
      exact ⟨_, _, rfl, form "compact:0x" (by decide),
        List.append_ne_nil_of_right_ne_nil _ Nat.toDigits_ne_nil,
        all_padded (by decide) (by decide) (by decide)⟩
  | difficulty value =>
      refine ⟨_, _, rfl, form "difficulty:" (by decide), ?_⟩
      cases shown : Decimal.shape value with
      | notANumber => exact absurd shown proper
      | infinite negative =>
          rw [Decimal.Layout.text, shown]
          cases negative <;> exact ⟨by decide, List.all_eq_true.mp (by decide)⟩
      | finite negative m e =>
          obtain ⟨c, cs, front, -⟩ := Decimal.plainLayout.text_head shown
          refine ⟨?_, Decimal.plainLayout.text_plain shown⟩
          rw [front]
          exact List.append_ne_nil_of_right_ne_nil _ (List.cons_ne_nil c cs)

theorem text_head (s : TargetSpec) : ∃ c ∈ s.text.head?, c.isAlphanum = true := by
  cases s with
  | digits target =>
      obtain ⟨c, cs, front⟩ := List.exists_cons_of_ne_nil (hex_ne_nil target)
      have first : target.hex.head? = some c := by rw [front, List.head?_cons]
      exact ⟨c, first, Hex.encode_alphanum _ c (List.mem_of_head? first)⟩
  | leadingZeros bits => exact ⟨'b', rfl, rfl⟩
  | powerOfTwo exponent => exact ⟨'p', rfl, rfl⟩
  | compact word => exact ⟨'c', rfl, rfl⟩
  | difficulty value => exact ⟨'d', rfl, rfl⟩

theorem text_solid {s : TargetSpec} (proper : s.Proper) : ∀ c ∈ s.text, isBlank c = false := by
  obtain ⟨front, value, parts, form, -, plain⟩ := text_parts proper
  rw [parts]
  intro c member
  rcases List.mem_append.mp member with early | late
  · rcases form c early with plain | rfl
    · exact not_blank_of_plain plain
    · rfl
  · exact not_blank_of_plain (plain c late)

theorem read_form (marked form : String) (mark : marked.toList = form.toList ++ [':'])
    (absent : ':' ∉ form.toList) {value : List Char}
    (solid : ∀ c ∈ marked.toList ++ value, isBlank c = false) :
    read (marked.toList ++ value) = readForm (marked.toList ++ value) form.toList value := by
  have parts : splitAt? ':' (marked.toList ++ value) = some (form.toList, value) := by
    rw [mark, List.append_assoc, List.singleton_append, splitAt_append value absent]
  rw [read, trimBlanks_of_solid solid, parts]

/-- A specification is read back from its text. -/
theorem read_text {s : TargetSpec} (proper : s.Proper) : read s.text = .ok s := by
  have solid := text_solid proper
  cases s with
  | digits target =>
      have bare : ':' ∉ target.hex := fun member => by cases Hex.encode_alphanum _ _ member
      change ∀ c ∈ target.hex, _ at solid
      change read target.hex = _
      rw [read, trimBlanks_of_solid solid, splitAt_of_not_mem bare]
      dsimp only
      rw [Target.ofHex_hex]
      rfl
  | leadingZeros bits =>
      refine (read_form "bits:" "bits" (by decide) (by decide) solid).trans ?_
      simp only [readForm, String.ofList_toList, readWord32_decimal]
  | powerOfTwo exponent =>
      refine (read_form "pow2:" "pow2" (by decide) (by decide) solid).trans ?_
      simp only [readForm, String.ofList_toList, readWord32_decimal]
  | compact word =>
      have shown : (compact word).text = "compact:".toList ++ '0' :: 'x' :: padded 16 8 word.toNat := by
        have mark : "compact:0x".toList = "compact:".toList ++ ['0', 'x'] := by decide
        change "compact:0x".toList ++ _ = _
        rw [mark, List.append_assoc]
        rfl
      rw [shown] at solid ⊢
      refine (read_form "compact:" "compact" (by decide) (by decide) solid).trans ?_
      simp only [readForm, String.ofList_toList, readCompact_padded]
  | difficulty value =>
      refine (read_form "difficulty:" "difficulty" (by decide) (by decide) solid).trans ?_
      simp only [readForm, String.ofList_toList, Decimal.readReal_plainText proper]

theorem read_congr {a b : List Char} (same : trimBlanks a = trimBlanks b) : read a = read b := by
  rw [read, read, same]

/-- A specification is read back from its text with blanks around it, so it stands for the same
target, or for none with the same error. -/
theorem read_surrounded {s : TargetSpec} (proper : s.Proper) {before after : List Char}
    (early : ∀ c ∈ before, isBlank c = true) (late : ∀ c ∈ after, isBlank c = true) :
    read (before ++ s.text ++ after) = .ok s ∧
      (read (before ++ s.text ++ after) >>= resolve) = s.resolve := by
  have solid := text_solid proper
  have trimmed := (trimBlanks_surrounded early solid late).trans (trimBlanks_of_solid solid).symm
  have back : read (before ++ s.text ++ after) = .ok s :=
    (read_congr trimmed).trans (read_text proper)
  rw [back]
  exact ⟨rfl, rfl⟩

/-- A compact word without a target, between a tabulator and an ideographic space. -/
theorem read_surrounded_of_blanks :
    ((∀ c ∈ ['\t'], isBlank c = true) ∧ ∀ c ∈ ['\u3000'], isBlank c = true) ∧
    read "\tcompact:0xff00ffff\u3000".toList = .ok (compact 0xFF00FFFF) ∧
    (read "\tcompact:0xff00ffff\u3000".toList >>= resolve) =
      .error (.invalidTarget (.compactOverflow 0xFF00FFFF)) := by
  have early : ∀ c ∈ ['\t'], isBlank c = true := List.all_eq_true.mp rfl
  have late : ∀ c ∈ ['\u3000'], isBlank c = true := List.all_eq_true.mp rfl
  have text : (compact 0xFF00FFFF).text = "compact:0xff00ffff".toList := by decide +kernel
  have shown : "\tcompact:0xff00ffff\u3000".toList =
      ['\t'] ++ (compact 0xFF00FFFF).text ++ ['\u3000'] := by
    rw [text]
    decide +kernel
  obtain ⟨back, meant⟩ := read_surrounded (s := compact 0xFF00FFFF) trivial early late
  rw [shown]
  exact ⟨⟨early, late⟩, back, meant.trans rfl⟩

end TargetSpec
end ProofOfWork
