import ProofOfWork.Proofs.Document.Settings
import ProofOfWork.Proofs.Document.Yaml.Read
set_option autoImplicit false

namespace ProofOfWork.Document.Yaml
open Text

/-! What a scalar is taken for. -/

/-- A text is none of some words that have a character in common where it has another. -/
theorem any_word_false {words : List String} {text : List Char} (i : Nat) (mark : Char)
    (shared : (words.all fun word => word.toList[i]? = some mark) = true)
    (other : text[i]? ≠ some mark) : (words.any fun word => word.toList = text) = false := by
  rw [List.any_eq_false]
  intro word member same
  have there := List.all_eq_true.mp shared word member
  rw [decide_eq_true_eq] at same there
  exact other (same ▸ there)

section
variable {n limit : Nat}

theorem decimal_unsigned (n : Nat) : startsSigned (decimal n) = false ∧
    (decimal n).head? ≠ some '+' := by
  have digit (c : Char) (member : c ∈ decimal n) := Decimal.isDigit_of_mem_decimal member
  cases digits : decimal n with
  | nil => exact ⟨rfl, nofun⟩
  | cons c cs =>
      have first := digit c (digits ▸ List.mem_cons_self)
      have plus : c ≠ '+' := by
        rintro rfl
        cases first
      have minus : c ≠ '-' := by
        rintro rfl
        cases first
      exact ⟨by simp [startsSigned, plus, minus], by simpa using plus⟩

theorem isZeroPadded_decimal (n : Nat) : isZeroPadded (decimal n) = false := by
  rcases Nat.eq_zero_or_pos n with rfl | pos
  · rfl
  · have first := Decimal.decimal_head pos
    simp [isZeroPadded, (decimal_unsigned n).1, first]

theorem marked_decimal {mark : String} (letter : Char) (needed : letter ∈ mark.toList)
    (other : letter.isDigit = false) (radix : Nat) :
    marked? mark radix limit (decimal n) = none := by
  have absent : letter ∉ decimal n := by
    intro member
    have digit := Decimal.isDigit_of_mem_decimal member
    rw [other] at digit
    cases digit
  rw [marked?, TargetSpec.dropStart_of_absent needed absent]
  rfl

theorem natural_decimal (below : n < limit) : natural? limit (decimal n) = some n := by
  have digits : digits? 10 limit (decimal n) = some n := by
    rw [digits?, (decimal_unsigned n).1, decimal, readUnsigned_toDigits (by decide) (by decide) below]
    rfl
  rw [natural?, if_neg (decimal_unsigned n).2, isZeroPadded_decimal, magnitude?,
    marked_decimal 'x' (by decide) (by decide), marked_decimal 'o' (by decide) (by decide),
    marked_decimal 'b' (by decide) (by decide), digits]
  rfl

end

theorem real_text {x : Float} (finite : x.isFinite = true) :
    real? (Decimal.yamlLayout.text x) = some x := by
  obtain ⟨negative, m, e, shown⟩ := Decimal.exists_shape finite
  have read := Decimal.yamlLayout.readReal_text shown
  obtain ⟨c, cs, front, digit⟩ := Decimal.yamlLayout.text_head shown
  have other {mark : Char} (sign : mark.isDigit = false) : c ≠ mark := by
    rintro rfl
    rw [sign] at digit
    cases digit
  -- the first characters tell a decimal from a sign and from the words for other numbers
  have plus : (Decimal.yamlLayout.text x).head? ≠ some '+' := by
    rw [front]
    cases negative with
    | true => simp
    | false => simpa using other (by decide)
  have point : (Decimal.yamlLayout.text x)[0]? ≠ some '.' := by
    rw [front]
    cases negative with
    | true => simp
    | false => simpa using other (by decide)
  have minus : (["-.inf", "-.Inf", "-.INF"].any fun word =>
      word.toList = Decimal.yamlLayout.text x) = false := by
    rw [front]
    cases negative with
    | true => exact any_word_false 1 '.' (by decide) (by simpa using other (by decide))
    | false => exact any_word_false 0 '-' (by decide) (by simpa using other (by decide))
  have infinite : ([".inf", ".Inf", ".INF"].any fun word =>
      word.toList = Decimal.yamlLayout.text x) = false := any_word_false 0 '.' (by decide) point
  have nan : ([".nan", ".NaN", ".NAN"].any fun word =>
      word.toList = Decimal.yamlLayout.text x) = false := any_word_false 0 '.' (by decide) point
  rw [real?, if_neg plus]
  simp only [Bool.false_and, Bool.false_eq_true, if_false, infinite, minus, nan, read, finite, if_true]

theorem nodes_named (entries : List (List Char × Value)) :
    ((nodes entries).mapM fun entry => (entry.1.resolve []).text?.map fun key => (key, entry.2)) =
      some (entries.map fun entry => (entry.1, node entry.2)) := by
  induction entries with
  | nil => rfl
  | cons entry entries ih =>
      rw [nodes, List.mapM_cons, ih]
      rfl

theorem faithful : (access []).Faithful node id where
  word n := by
    have read := natural_decimal n.toNat_lt
    change (natural? (2 ^ 64) (decimal n.toNat)).map Nat.toUInt64 = some n
    rw [read]
    exact congrArg some UInt64.ofNat_toNat
  boolean b := by cases b <;> rfl
  real x finite := real_text finite
  text cs := rfl
  name cs := rfl
  fields entries distinct := by
    change ((nodes entries).mapM fun entry : Node × Node =>
      (entry.1.resolve []).text?.map fun key => (key, entry.2)).bind
        (namedFields? (entries.map Prod.fst)) = _
    rw [nodes_named]
    exact namedFields_nodup entries distinct

/-! Settings are regular. -/

theorem Scalar.Sound.ofWord {quoted : Bool} {w : List Char} (word : IsWord w)
    (begins : ∃ x more, w = x :: more ∧ (Layout.isMark x = false ∨ x = '-' ∧ more ≠ [])) :
    (⟨quoted, w⟩ : Scalar).Sound :=
  ⟨w, [], by simp [spaced], by simpa using word, fun _ => begins⟩

theorem begins_of_alphanum {w : List Char} (first : ∃ x ∈ w.head?, x.isAlphanum = true) :
    ∃ x more, w = x :: more ∧ (Layout.isMark x = false ∨ x = '-' ∧ more ≠ []) := by
  obtain ⟨x, head, letter⟩ := first
  obtain ⟨more, rfl⟩ := List.head?_eq_some_iff.mp head
  exact ⟨x, more, rfl, .inl (isMark_of_letter (by rw [letter]; rfl))⟩

theorem Regular.ofText {cs w : List Char} {ws : List (List Char)} (parts : cs = spaced w ws)
    (words : ∀ v ∈ w :: ws, IsWord v) (first : ∃ x ∈ w.head?, x.isAlphanum = true) :
    Regular (.text cs) :=
  .scalar rfl ⟨w, ws, parts, words, fun _ => begins_of_alphanum first⟩

theorem Regular.word {name : String} (plain : name.toList.all isPlain = true)
    (first : name.toList.head?.any Char.isAlphanum = true) : Regular (.word name) := by
  obtain ⟨x, head, letter⟩ : ∃ x ∈ name.toList.head?, x.isAlphanum = true := by
    simpa [Option.any_eq_true] using first
  have filled : name.toList ≠ [] := by
    rintro none
    rw [none] at head
    cases head
  have word := isWord_of_plain filled (List.all_eq_true.mp plain)
  exact .ofText (by simp [spaced]) (List.forall_mem_singleton.mpr word) ⟨x, head, letter⟩

theorem Regular.natural (n : Nat) : Regular (.natural n) := by
  have digit (c : Char) (member : c ∈ decimal n) := Decimal.isDigit_of_mem_decimal member
  have word := isWord_of_plain (w := decimal n) Nat.toDigits_ne_nil fun c member =>
    plain_of_isDigit (digit c member)
  refine .scalar rfl (.ofWord word (begins_of_alphanum ?_))
  obtain ⟨c, cs, digits⟩ := List.exists_cons_of_ne_nil word.filled
  have first : (decimal n).head? = some c := by rw [digits, List.head?_cons]
  exact ⟨c, first, alphanum_of_isDigit (digit c (List.mem_of_head? first))⟩

theorem Regular.boolean (b : Bool) : Regular (.boolean b) := by
  have word (name : String) (plain : name.toList.all isPlain = true) (filled : name.toList ≠ []) :=
    isWord_of_plain filled (List.all_eq_true.mp plain)
  cases b with
  | true =>
      exact .scalar rfl (.ofWord (word "true" (by decide) (by decide))
        (begins_of_alphanum ⟨'t', rfl, rfl⟩))
  | false =>
      exact .scalar rfl (.ofWord (word "false" (by decide) (by decide))
        (begins_of_alphanum ⟨'f', rfl, rfl⟩))

theorem Regular.real {x : Float} (finite : x.isFinite = true) : Regular (.real x) := by
  obtain ⟨negative, m, e, shown⟩ := Decimal.exists_shape finite
  obtain ⟨c, cs, front, digit⟩ := Decimal.yamlLayout.text_head shown
  have filled : Decimal.yamlLayout.text x ≠ [] := by
    rw [front]
    exact List.append_ne_nil_of_right_ne_nil _ (List.cons_ne_nil c cs)
  refine .scalar rfl (.ofWord (isWord_of_plain filled (Decimal.yamlLayout.text_plain shown)) ?_)
  cases negative with
  | true => exact ⟨'-', c :: cs, front, .inr ⟨rfl, List.cons_ne_nil c cs⟩⟩
  | false => exact begins_of_alphanum ⟨c, by rw [scalarText, front]; rfl, alphanum_of_isDigit digit⟩

theorem Regular.specification {s : TargetSpec} (proper : s.Proper) : Regular (.text s.text) := by
  obtain ⟨front, value, parts, colons, filled, plain⟩ := TargetSpec.text_parts proper
  have word := isWord_append colons filled plain
  rw [← parts] at word
  exact .ofText (by simp [spaced]) (List.forall_mem_singleton.mpr word) s.text_head

theorem Regular.duration (d : Duration) : Regular (.word d.text) := by
  obtain ⟨t, ts, parts, names⟩ := d.exists_terms
  have word : ∀ u ∈ t :: ts, IsWord u.text := fun u member =>
    isWord_of_plain (by rw [Duration.Term.text]; simp [decimal]) fun c inside =>
      plain_of_alphanum ((names u member).alphanum c inside)
  obtain ⟨c, cs, front, digit⟩ := t.text_head
  have text : d.text.toList = spaced t.text (ts.map Duration.Term.text) := by
    rw [parts, spaced, List.flatMap_map]
  exact .ofText text (by simpa using word) ⟨c, by rw [front]; rfl, alphanum_of_isDigit digit⟩

theorem isKey_name {name : String} (sound : name.toList ≠ [] ∧
    (name.toList.all fun x => x.isAlphanum || x = '_') = true ∧ name.toList.length ≤ 1024) :
    IsKey name.toList :=
  ⟨sound.1, List.all_eq_true.mp sound.2.1, sound.2.2⟩

theorem Regular.record {entries : List (String × Value)} (filled : entries ≠ [])
    (fields : ∀ e ∈ entries, IsKey e.1.toList ∧ Regular e.2) : Regular (.record entries) := by
  refine .mapping (by simpa using filled) ?_ ?_
  · intro e member
    obtain ⟨field, among, rfl⟩ := List.mem_map.mp member
    exact (fields field among).1
  · intro e member
    obtain ⟨field, among, rfl⟩ := List.mem_map.mp member
    exact (fields field among).2

end ProofOfWork.Document.Yaml

namespace ProofOfWork
open Document Document.Yaml

theorem EngineConfig.regular (c : EngineConfig) : Regular c.toDocument := by
  have mode : Regular (.word c.mode.name) := by
    cases c.mode <;> exact .word (by decide) (by decide)
  refine .record (List.cons_ne_nil _ _) ?_
  simp only [List.forall_mem_cons]
  exact ⟨⟨isKey_name (by decide), .natural _⟩,
    ⟨isKey_name (by decide), .natural _⟩,
    ⟨isKey_name (by decide), mode⟩, nofun⟩

theorem SessionConfig.regular {c : SessionConfig} (finite : c.tolerance.isFinite = true) :
    Regular c.toDocument := by
  refine .record (List.cons_ne_nil _ _) ?_
  simp only [List.forall_mem_cons]
  exact ⟨⟨isKey_name (by decide), .natural _⟩,
    ⟨isKey_name (by decide), .boolean _⟩,
    ⟨isKey_name (by decide), .duration _⟩,
    ⟨isKey_name (by decide), .real finite⟩, nofun⟩

theorem LoggingConfig.regular (c : LoggingConfig) : Regular c.toDocument := by
  have level : Regular (.word c.level.name) := by
    cases c.level <;> exact .word (by decide) (by decide)
  have format : Regular (.word c.format.name) := by
    cases c.format <;> exact .word (by decide) (by decide)
  refine .record (List.cons_ne_nil _ _) ?_
  simp only [List.forall_mem_cons]
  exact ⟨⟨isKey_name (by decide), level⟩,
    ⟨isKey_name (by decide), format⟩, nofun⟩

theorem Config.regular {c : Config} (proper : c.target.Proper)
    (finite : c.session.tolerance.isFinite = true) : Regular c.toDocument := by
  have algorithm : Regular (.word c.algorithm.name) := by
    cases c.algorithm <;> exact .word (by decide) (by decide)
  refine .record (List.cons_ne_nil _ _) ?_
  simp only [List.forall_mem_cons]
  exact ⟨⟨isKey_name (by decide), algorithm⟩,
    ⟨isKey_name (by decide), .specification proper⟩,
    ⟨isKey_name (by decide), .natural _⟩,
    ⟨isKey_name (by decide), c.engine.regular⟩,
    ⟨isKey_name (by decide), SessionConfig.regular finite⟩,
    ⟨isKey_name (by decide), c.logging.regular⟩, nofun⟩

end ProofOfWork
