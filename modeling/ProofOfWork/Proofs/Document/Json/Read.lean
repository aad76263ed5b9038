import ProofOfWork.Document.Json.Text
import ProofOfWork.Proofs.Document.Json.Number
import ProofOfWork.Proofs.Document.Json.Scale
set_option autoImplicit false

namespace ProofOfWork.Document.Json
open Decimal Text

/-- What stands after a value: nothing, or the next mark of an object or an array. -/
def Ends (rest : List Char) : Prop := ∀ c ∈ rest.head?, c = ',' ∨ c = '\x7d' ∨ c = ']'

theorem Ends.nil : Ends [] := nofun

theorem Ends.comma (rest : List Char) : Ends (',' :: rest) := by
  rintro c ⟨⟩
  exact .inl rfl

theorem Ends.brace (rest : List Char) : Ends ('\x7d' :: rest) := by
  rintro c ⟨⟩
  exact .inr (.inl rfl)

theorem Ends.bracket (rest : List Char) : Ends (']' :: rest) := by
  rintro c ⟨⟩
  exact .inr (.inr rfl)

/-! Numbers. -/

section
variable {rest : List Char} {p : Spelling}

theorem Ends.digit (ends : Ends rest) : ∀ c ∈ rest.head?, c.isDigit = false := by
  intro c head
  obtain rfl | rfl | rfl := ends c head <;> rfl

theorem Ends.readExponent (ends : Ends rest) : readExponent? rest = some (none, rest) := by
  cases rest with
  | nil => rfl
  | cons c rest => obtain rfl | rfl | rfl := ends c rfl <;> rfl

theorem readExponent_powerText (ends : Ends rest) (plus : Bool) (k : Int) :
    readExponent? (powerText plus k ++ rest) = some (some (exponentOf k), rest) := by
  have digits (n : Nat) : spanDigits (decimal n ++ rest) = (decimal n, rest) :=
    spanDigits_append (fun c member => isDigit_of_mem_decimal member) ends.digit
  have filled (n : Nat) : (decimal n).isEmpty = false := by
    rw [List.isEmpty_eq_false_iff]
    exact Nat.toDigits_ne_nil
  match k, plus with
  | .negSucc k, _ => simp [powerText, readExponent?, exponentOf, digits, filled]
  | .ofNat k, true => simp [powerText, readExponent?, exponentOf, digits, filled]
  | .ofNat k, false =>
      -- the first digit is no sign
      obtain ⟨c, cs, split, digit⟩ := decimal_cons k
      have read := digits k
      rw [split, List.cons_append] at read
      have unsigned : c ≠ '-' ∧ c ≠ '+' := by
        constructor <;> (rintro rfl; cases digit)
      simp [powerText, readExponent?, exponentOf, split, unsigned, read]

theorem readExponent_text (ends : Ends rest) (plus : Bool) (power : Option Int) :
    readExponent? (power.elim [] (powerText plus) ++ rest) = some (power.map exponentOf, rest) := by
  cases power with
  | none => exact ends.readExponent
  | some k => exact readExponent_powerText ends plus k

theorem readFraction_tail (ends : Ends rest) (sound : p.Sound) (plus : Bool) :
    readFraction? (p.tail plus ++ rest) =
      some (p.fraction, p.power.elim [] (powerText plus) ++ rest) := by
  obtain ⟨whole, fraction, power⟩ := p
  cases fraction with
  | none =>
      match power with
      | none =>
          cases rest with
          | nil => rfl
          | cons c rest => obtain rfl | rfl | rfl := ends c rfl <;> rfl
      | some (.ofNat k) | some (.negSucc k) => rfl
  | some ds =>
      have digits (c : Char) (member : c ∈ ds) : c.isDigit = true :=
        sound.digits c (List.mem_append_right _ member)
      have filled : ds ≠ [] := fun none => sound.fraction (congrArg some none)
      have read := spanDigits_append digits (head_append (Spelling.power_head plus power) ends.digit)
      simp [Spelling.tail, readFraction?, List.append_assoc, read, filled]

def unsigned? (negative : Bool) (text : List Char) : Option (Value × List Char) := do
  let (whole, rest) := spanDigits text
  if whole.isEmpty ∨ (whole.length > 1 ∧ whole.head? = some '0') then none
  else
    let (fraction, rest) ← readFraction? rest
    let (exponent, rest) ← readExponent? rest
    return (numberValue negative whole fraction exponent, rest)

theorem readNumber_negative (text : List Char) :
    readNumber? ('-' :: text) = unsigned? true text := rfl

theorem readNumber_unsigned {c : Char} (cs : List Char) (other : c ≠ '-') :
    readNumber? (c :: cs) = unsigned? false (c :: cs) := by
  unfold readNumber?
  split
  rename_i negative text sign
  split at sign
  · rename_i front
    exact absurd (List.cons.inj front).1 other
  · obtain ⟨rfl, rfl⟩ := Prod.mk.inj sign
    rfl

theorem readNumber_spelling (ends : Ends rest) (sound : p.Sound) (negative plus : Bool) :
    readNumber? ((if negative then ['-'] else []) ++ p.text plus ++ rest) =
      some (numberValue negative p.whole p.fraction (p.power.map exponentOf), rest) := by
  have digits (c : Char) (member : c ∈ p.whole) : c.isDigit = true :=
    sound.digits c (List.mem_append_left _ member)
  have whole := spanDigits_append digits (head_append (p.tail_head plus) ends.digit)
  have filled : p.whole.isEmpty = false := List.isEmpty_eq_false_iff.mpr sound.whole
  have alone : ¬(1 < p.whole.length ∧ p.whole.head? = some '0') := by
    rintro ⟨many, zero⟩
    rw [sound.leading zero] at many
    exact absurd many (by decide)
  have read : unsigned? negative (p.text plus ++ rest) =
      some (numberValue negative p.whole p.fraction (p.power.map exponentOf), rest) := by
    rw [Spelling.text, List.append_assoc, unsigned?, whole]
    simp only [filled, alone, Bool.false_eq_true, false_or, gt_iff_lt, if_false,
      readFraction_tail ends sound plus, readExponent_text ends plus p.power,
      Option.bind_eq_bind, Option.bind_some]
    rfl
  cases negative with
  | true => exact (readNumber_negative _).trans read
  | false =>
      obtain ⟨c, cs, front, digit⟩ := sound.head plus
      have other : c ≠ '-' := by
        rintro rfl
        cases digit
      rw [front, List.cons_append] at read
      rw [front]
      exact (readNumber_unsigned _ other).trans read

theorem readNumber_natural (ends : Ends rest) {n : Nat} (below : n < gatherLimit) :
    readNumber? (decimal n ++ rest) = some (.integer n, rest) := by
  have filled : decimal n ≠ [] := Nat.toDigits_ne_nil
  have sound : Spelling.Sound ⟨decimal n, none, none⟩ := by
    refine ⟨filled, ?_, ?_, nofun⟩
    · intro c member
      rw [Option.getD_none, List.append_nil] at member
      exact isDigit_of_mem_decimal member
    · intro zero
      rcases Nat.eq_zero_or_pos n with rfl | pos
      · rfl
      · exact absurd zero (decimal_head pos)
  have read := readNumber_spelling ends sound false true
  have gathered : gatherWhole 0 (decimal n) = ⟨n, 0⟩ := by
    have same : valueFrom 0 (decimal n) = n := digitsValue_decimal n
    rw [gatherWhole_fits (same.symm ▸ below), same]
  have text : Spelling.text true ⟨decimal n, none, none⟩ = decimal n := List.append_nil _
  rw [text] at read
  refine read.trans ?_
  simp [numberValue, gathered]

/-- A finite number is read as its decimal is scaled. -/
theorem readNumber_real (ends : Ends rest) {x : Float} (finite : x.isFinite = true) :
    readNumber? (jsonLayout.text x ++ rest) = some (.real (reread x), rest) := by
  obtain ⟨negative, m, e, shown⟩ := exists_shape finite
  obtain ⟨p, ⟨sound, scaled, point, power⟩, text⟩ := jsonLayout.text_spelled shown
  obtain ⟨few, least, most⟩ := decimal_bounds shown
  obtain ⟨y, n, t, value, -⟩ := scaled_decimal shown
  have near : ∀ k ∈ p.power, k.natAbs ≤ exponentLimit := by
    intro k among
    have length : (decimal (jsonLayout.decimal m e).digits).length ≤ 17 :=
      (Nat.length_toDigits_le_iff (by decide) (by decide)).mpr few
    have same := power k among
    rw [exponentLimit]
    omega
  have fits : p.scaled.digits < gatherLimit := by
    rw [scaled]
    exact Nat.lt_trans few (by decide)
  rw [← scaled] at value
  rw [text, readNumber_spelling ends sound, numberValue_spelling negative fits near (point rfl) value]
  rw [scaled] at value
  rw [reread, shown]
  dsimp only
  rw [value, Option.getD_some]

end

/-! Strings. -/

section
variable {fuel : Nat} {rest : List Char}

theorem readPieces_escape {c e : Char} (other : c ≠ 'u') (stands : escapeOf? c = some e) :
    readPieces? (fuel + 1) ('\\' :: c :: rest) =
      (readPieces? fuel rest).map fun read => (.char e :: read.1, read.2) := by
  simp [readPieces?, stands]
  cases readPieces? fuel rest <;> rfl

theorem readPieces_unit {digits : List Char} {n : Nat}
    (reads : ∀ rest, readUnit? (digits ++ rest) = some (n, rest)) :
    readPieces? (fuel + 1) ('\\' :: 'u' :: (digits ++ rest)) =
      (readPieces? fuel rest).map fun read => (.unit n :: read.1, read.2) := by
  simp [readPieces?, reads]
  cases readPieces? fuel rest <;> rfl

theorem readPieces_char {c : Char} (quote : c ≠ '"') (slash : c ≠ '\\') (printed : ¬c.toNat < 32) :
    readPieces? (fuel + 1) (c :: rest) =
      (readPieces? fuel rest).map fun read => (.char c :: read.1, read.2) := by
  simp [readPieces?, slash, printed]
  cases readPieces? fuel rest <;> rfl

theorem readUnit_byte (n : Fin 32) (rest : List Char) :
    readUnit? ('0' :: '0' :: hexDigit (n / 16) :: hexDigit (n % 16) :: rest) =
      some (n.val, rest) := by
  have high : ∀ n : Fin 32, digitOf? 16 (hexDigit (n.val / 16)) = some (n.val / 16) := by decide
  have low : ∀ n : Fin 32, digitOf? 16 (hexDigit (n.val % 16)) = some (n.val % 16) := by decide
  have zero : digitOf? 16 '0' = some 0 := by decide
  have parts := Nat.div_add_mod n.val 16
  simp [readUnit?, high, low, zero, parts]

end

/-- A character is written as a piece that stands for it. -/
structure Piece.Writes (p : Piece) (c : Char) : Prop where
  joins : ∀ more, joinPieces? (p :: more) = (joinPieces? more).map (c :: ·)
  reads : ∀ fuel rest, readPieces? (fuel + 1) (escapedChar c ++ rest) =
    (readPieces? fuel rest).map fun read => (p :: read.1, read.2)

section
variable {c : Char}

theorem Piece.writes_escape {d : Char} (written : escapedChar c = ['\\', d]) (other : d ≠ 'u')
    (stands : escapeOf? d = some c) : (Piece.char c).Writes c where
  joins _ := rfl
  reads fuel rest := by
    rw [written]
    exact readPieces_escape other stands

theorem Piece.writes_control (control : c.toNat < 32) (written : escapedChar c =
    ['\\', 'u', '0', '0', hexDigit (c.toNat / 16), hexDigit (c.toNat % 16)]) :
    (Piece.unit c.toNat).Writes c where
  joins more := by
    have high : isHighHalf c.toNat = false := by simp [isHighHalf]; omega
    have low : isLowHalf c.toNat = false := by simp [isLowHalf]; omega
    rw [joinPieces?.eq_def]
    simp only [high, low, Bool.false_eq_true, if_false, Char.ofNat_toNat]
  reads fuel rest := by
    have unit (rest : List Char) : readUnit?
        (['0', '0', hexDigit (c.toNat / 16), hexDigit (c.toNat % 16)] ++ rest) =
          some (c.toNat, rest) := readUnit_byte ⟨c.toNat, control⟩ rest
    rw [written]
    exact readPieces_unit unit

theorem Piece.writes_char (quote : c ≠ '"') (slash : c ≠ '\\') (printed : ¬c.toNat < 32)
    (written : escapedChar c = [c]) : (Piece.char c).Writes c where
  joins _ := rfl
  reads fuel rest := by
    rw [written]
    exact readPieces_char quote slash printed

end

theorem exists_piece (c : Char) : ∃ p : Piece, p.Writes c := by
  -- the cases of the writer, in its order
  by_cases marked : c = '"' ∨ c = '\\'
  · refine ⟨.char c, Piece.writes_escape (if_pos marked) ?_ ?_⟩
    · rcases marked with rfl | rfl <;> decide
    · rcases marked with rfl | rfl <;> rfl
  by_cases newline : c = '\n'
  · subst newline
    exact ⟨_, Piece.writes_escape rfl (by decide) rfl⟩
  by_cases carriage : c = '\r'
  · subst carriage
    exact ⟨_, Piece.writes_escape rfl (by decide) rfl⟩
  by_cases tab : c = '\t'
  · subst tab
    exact ⟨_, Piece.writes_escape rfl (by decide) rfl⟩
  by_cases back : c.toNat = 8
  · obtain rfl : c = Char.ofNat 8 := by rw [← back, Char.ofNat_toNat]
    exact ⟨_, Piece.writes_escape rfl (by decide) rfl⟩
  by_cases feed : c.toNat = 12
  · obtain rfl : c = Char.ofNat 12 := by rw [← feed, Char.ofNat_toNat]
    exact ⟨_, Piece.writes_escape rfl (by decide) rfl⟩
  by_cases control : c.toNat < 32
  · refine ⟨_, Piece.writes_control control ?_⟩
    simp only [escapedChar, marked, newline, carriage, tab, back, feed, control, if_false, if_true]
  · refine ⟨_, Piece.writes_char (fun quote => marked (.inl quote)) (fun slash => marked (.inr slash))
      control ?_⟩
    simp only [escapedChar, marked, newline, carriage, tab, back, feed, control, if_false]

section
variable {fuel : Nat} {rest : List Char}

theorem escapedChar_ne_nil (c : Char) : escapedChar c ≠ [] := by
  unfold escapedChar
  repeat' split
  all_goals exact List.cons_ne_nil _ _

theorem readPieces_text (cs rest : List Char) {fuel : Nat} (enough : cs.length < fuel) :
    ∃ pieces, readPieces? fuel (cs.flatMap escapedChar ++ '"' :: rest) = some (pieces, rest) ∧
      joinPieces? pieces = some cs := by
  induction cs generalizing fuel with
  | nil =>
      obtain ⟨fuel, rfl⟩ := Nat.exists_eq_add_of_lt enough
      exact ⟨[], rfl, rfl⟩
  | cons c cs ih =>
      obtain ⟨fuel, rfl⟩ : ∃ more, fuel = more + 1 := ⟨fuel - 1, by omega⟩
      obtain ⟨pieces, read, joined⟩ := ih (Nat.succ_lt_succ_iff.mp enough)
      obtain ⟨p, writes⟩ := exists_piece c
      refine ⟨p :: pieces, ?_, by rw [writes.joins, joined]; rfl⟩
      rw [List.flatMap_cons, List.append_assoc, writes.reads, read]
      rfl

theorem length_le_escaped (cs : List Char) : cs.length ≤ (cs.flatMap escapedChar).length := by
  induction cs with
  | nil => exact Nat.le_refl _
  | cons c cs ih =>
      have some := List.length_pos_iff.mpr (escapedChar_ne_nil c)
      rw [List.flatMap_cons, List.length_append, List.length_cons]
      omega

@[simp] theorem readString_text (cs rest : List Char) :
    readString? (cs.flatMap escapedChar ++ '"' :: rest) = some (some cs, rest) := by
  have enough : cs.length < (cs.flatMap escapedChar ++ '"' :: rest).length + 1 := by
    have few := length_le_escaped cs
    rw [List.length_append]
    omega
  obtain ⟨pieces, read, joined⟩ := readPieces_text cs rest enough
  rw [readString?, read]
  exact congrArg (fun text => some (text, rest)) joined

end

/-! Values. -/

/-- Values whose numbers are natural ones of 64 bits or finite ones. -/
inductive Readable : Value → Prop
  | null : Readable .null
  | boolean (b : Bool) : Readable (.boolean b)
  | natural {n : Nat} : n < gatherLimit → Readable (.natural n)
  | real {x : Float} : x.isFinite = true → Readable (.real x)
  | text (cs : List Char) : Readable (.text cs)
  | sequence {items : List Value} : (∀ v ∈ items, Readable v) → Readable (.sequence items)
  | mapping {entries : List (List Char × Value)} : (∀ e ∈ entries, Readable e.2) →
      Readable (.mapping entries)

mutual

def again : Value → Value
  | .real x => .real (reread x)
  | .sequence items => .sequence (againItems items)
  | .mapping entries => .mapping (againEntries entries)
  | v => v

def againItems : List Value → List Value
  | [] => []
  | v :: rest => again v :: againItems rest

def againEntries : List (List Char × Value) → List (List Char × Value)
  | [] => []
  | (key, v) :: rest => (key, again v) :: againEntries rest

end

@[simp] theorem againItems_eq_map (items : List Value) : againItems items = items.map again := by
  induction items with
  | nil => rfl
  | cons v items ih => rw [againItems, List.map_cons, ih]

@[simp] theorem againEntries_eq_map (entries : List (List Char × Value)) :
    againEntries entries = entries.map fun e => (e.1, again e.2) := by
  induction entries with
  | nil => rfl
  | cons e entries ih => rw [againEntries, List.map_cons, ih]

section
variable {fuel : Nat} {rest : List Char}

theorem skipSpace_cons {c : Char} (solid : isSpace c = false) (cs : List Char) :
    skipSpace (c :: cs) = c :: cs := by
  simp [skipSpace, solid]

@[simp] theorem quoted_append (cs rest : List Char) :
    quoted cs ++ rest = '"' :: (cs.flatMap escapedChar ++ '"' :: rest) := by
  simp [quoted]

theorem readValue_text (cs : List Char) :
    readValue? (fuel + 1) (quoted cs ++ rest) = some (.text cs, rest) := by
  rw [quoted_append, readValue?, skipSpace_cons (by decide)]
  simp

section
variable {c : Char}

theorem ne_of_numeric (front : c.isDigit = true ∨ c = '-') {d : Char} (letter : d.isDigit = false)
    (sign : d ≠ '-') : c ≠ d := by
  rintro rfl
  rcases front with digit | rfl
  · rw [letter] at digit
    cases digit
  · exact sign rfl

theorem solid_of_numeric (front : c.isDigit = true ∨ c = '-') : isSpace c = false := by
  have other {d : Char} := ne_of_numeric front (d := d)
  simp [isSpace, other (d := ' ') rfl (by decide), other (d := '\n') rfl (by decide),
    other (d := '\t') rfl (by decide), other (d := '\r') rfl (by decide)]

theorem readValue_number {cs : List Char} (front : c.isDigit = true ∨ c = '-') :
    readValue? (fuel + 1) (c :: cs) = readNumber? (c :: cs) := by
  have letters : c ≠ 'n' ∧ c ≠ 't' ∧ c ≠ 'f' ∧ c ≠ '"' ∧ c ≠ '[' ∧ c ≠ '\x7b' := by
    refine ⟨?_, ?_, ?_, ?_, ?_, ?_⟩ <;> exact ne_of_numeric front rfl (by decide)
  rw [readValue?, skipSpace_cons (solid_of_numeric front)]
  simp [letters]

end

theorem readValue_sequence {c : Char} {text : List Char} {items : List Value}
    (solid : isSpace c = false) (other : c ≠ ']')
    (read : readItems? fuel (c :: text) = some (items, rest)) :
    readValue? (fuel + 1) ('[' :: c :: text) = some (.sequence items, rest) := by
  rw [readValue?, skipSpace_cons (by decide)]
  simp [skipSpace_cons solid, other, read]

theorem readItems_cons {text after : List Char} {v : Value}
    (read : readValue? fuel text = some (v, ',' :: after)) :
    readItems? (fuel + 1) text =
      (readItems? fuel after).map fun more => (v :: more.1, more.2) := by
  have comma := skipSpace_cons (c := ',') (by decide) after
  rw [readItems?, read]
  simp only [Option.bind_eq_bind, Option.bind_some, comma]
  cases readItems? fuel after <;> rfl

theorem readItems_last {text : List Char} {v : Value}
    (read : readValue? fuel text = some (v, ']' :: rest)) :
    readItems? (fuel + 1) text = some ([v], rest) := by
  have bracket := skipSpace_cons (c := ']') (by decide) rest
  rw [readItems?, read]
  simp only [Option.bind_eq_bind, Option.bind_some, bracket]
  rfl

theorem objectValue_named (entries : List (List Char × Value)) :
    objectValue (entries.map fun e => (some e.1, e.2)) = .mapping entries := by
  have named : (entries.map fun e => (some e.1, e.2)).mapM
      (fun e => e.1.map fun key => (key, e.2)) = some entries := by
    induction entries with
    | nil => rfl
    | cons e entries ih =>
        rw [List.map_cons, List.mapM_cons, ih]
        rfl
  rw [objectValue, named]

theorem readValue_mapping {text : List Char} {entries : List (List Char × Value)}
    (read : readEntries? fuel ('"' :: text) =
      some (entries.map fun e => (some e.1, e.2), rest)) :
    readValue? (fuel + 1) ('\x7b' :: '"' :: text) = some (.mapping entries, rest) := by
  have inner := skipSpace_cons (c := '"') (by decide) text
  rw [readValue?, skipSpace_cons (by decide)]
  simp [inner, read, objectValue_named]

theorem readEntries_cons {key text after : List Char} {v : Value}
    (read : readValue? fuel text = some (v, ',' :: after)) :
    readEntries? (fuel + 1) (quoted key ++ ':' :: text) =
      (readEntries? fuel after).map fun more => ((some key, v) :: more.1, more.2) := by
  have colon := skipSpace_cons (c := ':') (by decide) text
  have comma := skipSpace_cons (c := ',') (by decide) after
  rw [quoted_append, readEntries?, skipSpace_cons (by decide)]
  simp [colon, read, comma]
  cases readEntries? fuel after <;> rfl

theorem readEntries_last {key text : List Char} {v : Value}
    (read : readValue? fuel text = some (v, '\x7d' :: rest)) :
    readEntries? (fuel + 1) (quoted key ++ ':' :: text) = some ([(some key, v)], rest) := by
  have colon := skipSpace_cons (c := ':') (by decide) text
  have brace := skipSpace_cons (c := '\x7d') (by decide) rest
  rw [quoted_append, readEntries?, skipSpace_cons (by decide)]
  simp [colon, read, brace]

end

/-- What it takes that a value is read back from its text. -/
def ReadBack (v : Value) : Prop :=
  ∀ (rest : List Char) (fuel : Nat), Ends rest → (compact v).length ≤ fuel →
    readValue? fuel (compact v ++ rest) = some (again v, rest)

theorem length_quoted_pos (cs : List Char) : 0 < (quoted cs).length := Nat.succ_pos _

theorem compactEntries_cons (key : List Char) (v : Value) (e : List Char × Value)
    (entries : List (List Char × Value)) :
    compactEntries ((key, v) :: e :: entries) =
      quoted key ++ ':' :: (compact v ++ ',' :: compactEntries (e :: entries)) := by
  rw [compactEntries]
  exact nofun

theorem readEntries_text {entries : List (List Char × Value)} (filled : entries ≠ [])
    (values : ∀ e ∈ entries, ReadBack e.2) (rest : List Char) {fuel : Nat}
    (enough : (compactEntries entries).length ≤ fuel) :
    readEntries? fuel (compactEntries entries ++ '\x7d' :: rest) =
      some (entries.map fun e => (some e.1, again e.2), rest) := by
  induction entries generalizing fuel with
  | nil => exact absurd rfl filled
  | cons e entries ih =>
      obtain ⟨key, v⟩ := e
      have first : ReadBack v := values (key, v) List.mem_cons_self
      have key_pos := length_quoted_pos key
      -- a brace follows the last entry and a comma the others
      cases entries with
      | nil =>
          rw [compactEntries, List.length_append, List.length_cons] at enough
          obtain ⟨fuel, rfl⟩ : ∃ more, fuel = more + 1 := ⟨fuel - 1, by omega⟩
          have read := first ('\x7d' :: rest) fuel (.brace rest) (by omega)
          rw [compactEntries, List.append_assoc, List.cons_append, readEntries_last read]
          rfl
      | cons e entries =>
          rw [compactEntries_cons, List.length_append, List.length_cons, List.length_append,
            List.length_cons] at enough
          obtain ⟨fuel, rfl⟩ : ∃ more, fuel = more + 1 := ⟨fuel - 1, by omega⟩
          have read := first (',' :: (compactEntries (e :: entries) ++ '\x7d' :: rest)) fuel
            (.comma _) (by omega)
          have more : (compactEntries (e :: entries)).length ≤ fuel := by omega
          have later := ih (List.cons_ne_nil e entries)
            (fun e member => values e (List.mem_cons_of_mem _ member)) more
          rw [compactEntries_cons, List.append_assoc, List.cons_append, List.append_assoc,
            List.cons_append, readEntries_cons read, later]
          rfl

theorem compactItems_cons (v w : Value) (items : List Value) :
    compactItems (v :: w :: items) = compact v ++ ',' :: compactItems (w :: items) := by
  rw [compactItems]
  exact nofun

theorem readItems_text {items : List Value} (filled : items ≠ []) (values : ∀ v ∈ items, ReadBack v)
    (rest : List Char) {fuel : Nat} (enough : (compactItems items).length < fuel) :
    readItems? fuel (compactItems items ++ ']' :: rest) = some (items.map again, rest) := by
  induction items generalizing fuel with
  | nil => exact absurd rfl filled
  | cons v items ih =>
      have first : ReadBack v := values v List.mem_cons_self
      obtain ⟨fuel, rfl⟩ : ∃ more, fuel = more + 1 := ⟨fuel - 1, by omega⟩
      -- a bracket follows the last item and a comma the others
      cases items with
      | nil =>
          rw [compactItems] at enough ⊢
          exact readItems_last (first (']' :: rest) fuel (.bracket rest) (by omega))
      | cons w items =>
          rw [compactItems_cons, List.length_append, List.length_cons] at enough
          have read := first (',' :: (compactItems (w :: items) ++ ']' :: rest)) fuel (.comma _)
            (by omega)
          have more : (compactItems (w :: items)).length < fuel := by omega
          have later := ih (List.cons_ne_nil w items)
            (fun v member => values v (List.mem_cons_of_mem _ member)) more
          rw [compactItems_cons, List.append_assoc, List.cons_append, readItems_cons read, later]
          rfl

theorem compactEntries_front {entries : List (List Char × Value)} (filled : entries ≠ []) :
    ∃ text, compactEntries entries = '"' :: text := by
  match entries with
  | [] => exact absurd rfl filled
  | [(key, v)] => exact ⟨_, quoted_append key _⟩
  | (key, v) :: e :: entries =>
      exact ⟨_, (compactEntries_cons key v e entries).trans (quoted_append key _)⟩

theorem real_front {x : Float} (finite : x.isFinite = true) :
    ∃ c cs, compact (.real x) = c :: cs ∧ (c.isDigit = true ∨ c = '-') := by
  obtain ⟨negative, m, e, shown⟩ := exists_shape finite
  obtain ⟨c, cs, front, digit⟩ := jsonLayout.text_head shown
  cases negative with
  | true => exact ⟨'-', c :: cs, front, .inr rfl⟩
  | false => exact ⟨c, cs, front, .inl digit⟩

theorem Readable.front {v : Value} (readable : Readable v) :
    ∃ c cs, compact v = c :: cs ∧ isSpace c = false ∧ c ≠ ']' := by
  have number {c : Char} {cs : List Char} (text : compact v = c :: cs)
      (begins : c.isDigit = true ∨ c = '-') :
      ∃ c cs, compact v = c :: cs ∧ isSpace c = false ∧ c ≠ ']' :=
    ⟨c, cs, text, solid_of_numeric begins, ne_of_numeric begins rfl (by decide)⟩
  cases readable with
  | null => exact ⟨'n', _, rfl, rfl, by decide⟩
  | boolean b =>
      cases b with
      | true => exact ⟨'t', _, rfl, rfl, by decide⟩
      | false => exact ⟨'f', _, rfl, rfl, by decide⟩
  | @natural n =>
      obtain ⟨c, cs, front, digit⟩ := decimal_cons n
      exact number front (.inl digit)
  | real finite =>
      obtain ⟨c, cs, front, begins⟩ := real_front finite
      exact number front begins
  | text cs => exact ⟨'"', _, rfl, rfl, by decide⟩
  | sequence => exact ⟨'[', _, rfl, rfl, by decide⟩
  | mapping => exact ⟨'\x7b', _, rfl, rfl, by decide⟩

theorem compactItems_front {items : List Value} (filled : items ≠ [])
    (values : ∀ v ∈ items, Readable v) :
    ∃ c cs, compactItems items = c :: cs ∧ isSpace c = false ∧ c ≠ ']' := by
  match items with
  | [] => exact absurd rfl filled
  | [v] => exact (values v List.mem_cons_self).front
  | v :: w :: items =>
      obtain ⟨c, cs, front, solid, other⟩ := (values v List.mem_cons_self).front
      refine ⟨c, cs ++ ',' :: compactItems (w :: items), ?_, solid, other⟩
      rw [compactItems_cons, front, List.cons_append]

theorem ReadBack.number {v : Value} {c : Char} {cs : List Char} (text : compact v = c :: cs)
    (begins : c.isDigit = true ∨ c = '-')
    (read : ∀ rest, Ends rest → readNumber? (compact v ++ rest) = some (again v, rest)) :
    ReadBack v := by
  intro rest fuel ends enough
  have number := read rest ends
  rw [text, List.length_cons] at enough
  obtain ⟨fuel, rfl⟩ : ∃ more, fuel = more + 1 := ⟨fuel - 1, by omega⟩
  rw [text, List.cons_append] at number ⊢
  exact (readValue_number begins).trans number

theorem ReadBack.sequence {items : List Value} (values : ∀ v ∈ items, Readable v)
    (back : ∀ v ∈ items, ReadBack v) : ReadBack (.sequence items) := by
  intro rest fuel _ enough
  rw [compact, List.length_cons, List.length_append, List.length_singleton] at enough
  obtain ⟨fuel, rfl⟩ : ∃ more, fuel = more + 1 := ⟨fuel - 1, by omega⟩
  rw [compact, again, againItems_eq_map, List.cons_append, List.append_assoc]
  by_cases filled : items = []
  · subst filled
    rfl
  · have fits : (compactItems items).length < fuel := by omega
    have read := readItems_text filled back rest fits
    obtain ⟨c, cs, front, solid, other⟩ := compactItems_front filled values
    rw [front, List.cons_append] at read ⊢
    exact readValue_sequence solid other read

theorem ReadBack.mapping {entries : List (List Char × Value)}
    (back : ∀ e ∈ entries, ReadBack e.2) : ReadBack (.mapping entries) := by
  intro rest fuel _ enough
  rw [compact, List.length_cons, List.length_append] at enough
  obtain ⟨fuel, rfl⟩ : ∃ more, fuel = more + 1 := ⟨fuel - 1, by omega⟩
  rw [compact, again, againEntries_eq_map, List.cons_append, List.append_assoc]
  by_cases filled : entries = []
  · subst filled
    rfl
  · have fits : (compactEntries entries).length ≤ fuel := by omega
    have read := readEntries_text filled back rest fits
    obtain ⟨text, front⟩ := compactEntries_front filled
    rw [front, List.cons_append] at read ⊢
    apply readValue_mapping
    rw [List.map_map]
    exact read

/-- A value is read back from its text. -/
theorem Readable.readBack {v : Value} (readable : Readable v) : ReadBack v := by
  induction readable with
  | null =>
      intro rest fuel _ enough
      obtain ⟨fuel, rfl⟩ : ∃ more, fuel = more + 4 := Nat.exists_eq_add_of_le' enough
      rfl
  | boolean b =>
      intro rest fuel _ enough
      cases b with
      | true =>
          obtain ⟨fuel, rfl⟩ : ∃ more, fuel = more + 4 := Nat.exists_eq_add_of_le' enough
          rfl
      | false =>
          obtain ⟨fuel, rfl⟩ : ∃ more, fuel = more + 5 := Nat.exists_eq_add_of_le' enough
          rfl
  | @natural n below =>
      obtain ⟨c, cs, front, digit⟩ := decimal_cons n
      exact .number front (.inl digit) fun rest ends => readNumber_natural ends below
  | real finite =>
      obtain ⟨c, cs, front, begins⟩ := real_front finite
      exact .number front begins fun rest ends => readNumber_real ends finite
  | text cs =>
      intro rest fuel _ enough
      have pos := length_quoted_pos cs
      change (quoted cs).length ≤ fuel at enough
      obtain ⟨fuel, rfl⟩ : ∃ more, fuel = more + 1 := ⟨fuel - 1, by omega⟩
      exact readValue_text cs
  | sequence values ih => exact .sequence values ih
  | mapping values ih => exact .mapping ih

/-- A text that is written for a value stands for that value. -/
@[simp]
theorem read_compact {v : Value} (readable : Readable v) : read? (compact v) = some (again v) := by
  have enough : (compact v).length ≤ 2 * (compact v).length + 2 := by omega
  have value := readable.readBack [] _ .nil enough
  rw [List.append_nil] at value
  rw [read?, value]
  rfl

end ProofOfWork.Document.Json
