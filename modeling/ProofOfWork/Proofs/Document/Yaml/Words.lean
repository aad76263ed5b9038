import ProofOfWork.Document.Yaml.Layout
import ProofOfWork.Proofs.Text.Digits
set_option autoImplicit false

namespace ProofOfWork.Document.Yaml
open Text

/-! Spaces and line breaks. -/

def isSpacing (x : Char) : Bool := x = ' ' || x = '\n'

def columnAfter (column : Nat) : List Char → Nat
  | [] => column
  | x :: rest => columnAfter (if x = '\n' then 0 else column + 1) rest

/-- A text that goes on with something to read, or ends. -/
def Solid (rest : List Char) : Prop :=
  ∀ x ∈ rest.head?, isBlankOrBreak x = false ∧ x ≠ '#' ∧ x.toNat ≠ 0xFEFF

variable {c : Cursor} {blanks rest : List Char}

theorem spacing_cases {x : Char} (spacing : isSpacing x = true) : x = ' ' ∨ x = '\n' := by
  simpa [isSpacing] using spacing

theorem nextLine_newline (here : c.rest = '\n' :: rest) :
    c.nextLine = (['\n'], ⟨rest, c.index + 1, c.line + 1, 0⟩) := by
  rw [Cursor.nextLine, here]
  rfl

theorem ahead_rest {front : List Char} (here : c.rest = front ++ rest) :
    (c.ahead front.length).rest = rest := by
  rw [Cursor.ahead, here]
  exact List.drop_left

theorem ahead_one {x : Char} (here : c.rest = x :: rest) : (c.ahead 1).rest = rest := by
  rw [Cursor.ahead, here]
  rfl

theorem readGap_blank (here : c.rest = ' ' :: rest) (indent fuel : Nat) (g : Gap) :
    readGap? indent (fuel + 1) g c =
      readGap? indent fuel (if g.broken then g else { g with blanks := g.blanks ++ [' '] })
        (c.ahead 1) := by
  simp [readGap?, here, isBlank]

theorem readGap_newline (here : c.rest = '\n' :: rest) (indent fuel : Nat) (g : Gap) :
    readGap? indent (fuel + 1) g c =
      readGap? indent fuel (if g.broken then { g with more := g.more ++ ['\n'] }
        else ⟨true, [], ['\n'], []⟩) ⟨rest, c.index + 1, c.line + 1, 0⟩ := by
  simp [readGap?, here, isBlank, isBreak, nextLine_newline here]

theorem readGap_spacing (spacing : ∀ x ∈ blanks, isSpacing x = true) (solid : Solid rest)
    (here : c.rest = blanks ++ rest) (indent : Nat) {fuel : Nat} (enough : blanks.length < fuel)
    (g : Gap) : ∃ g' c', readGap? indent fuel g c = some (g', c') ∧ c'.rest = rest ∧
      c'.column = columnAfter c.column blanks ∧ g'.broken = (g.broken || blanks.contains '\n') := by
  -- on the spacing that is left, for any gap before it
  induction blanks generalizing c fuel g with
  | nil =>
      obtain ⟨fuel, rfl⟩ := Nat.exists_eq_add_of_lt enough
      rw [List.nil_append] at here
      refine ⟨g, c, ?_, here, rfl, by simp⟩
      cases rest with
      | nil => simp [readGap?, here]
      | cons x rest =>
        obtain ⟨neither, -⟩ := solid x rfl
        obtain ⟨blank, ends⟩ := Bool.or_eq_false_iff.mp neither
        simp [readGap?, here, blank, ends]
  | cons x blanks ih =>
      obtain ⟨fuel, rfl⟩ : ∃ more, fuel = more + 1 := ⟨fuel - 1, by omega⟩
      have later : ∀ x ∈ blanks, isSpacing x = true := fun x member =>
        spacing x (List.mem_cons_of_mem _ member)
      have fewer : blanks.length < fuel := by
        rw [List.length_cons] at enough
        omega
      rcases spacing_cases (spacing x List.mem_cons_self) with rfl | rfl
      · obtain ⟨g', c', read, at_rest, column, broken⟩ := ih later (ahead_one here) fewer
          (if g.broken then g else { g with blanks := g.blanks ++ [' '] })
        refine ⟨g', c', (readGap_blank here indent fuel g).trans read, at_rest, column,
          broken.trans ?_⟩
        cases known : g.broken <;> simp [known]
      · obtain ⟨g', c', read, at_rest, column, broken⟩ := ih later
          (c := ⟨blanks ++ rest, c.index + 1, c.line + 1, 0⟩) rfl fewer
          (if g.broken then { g with more := g.more ++ ['\n'] } else ⟨true, [], ['\n'], []⟩)
        refine ⟨g', c', (readGap_newline here indent fuel g).trans read, at_rest, column,
          broken.trans ?_⟩
        cases g.broken <;> simp

theorem exists_spaces (spacing : ∀ x ∈ blanks, isSpacing x = true) :
    ∃ k tail, blanks = List.replicate k ' ' ++ tail ∧ (tail = [] ∨ ∃ more, tail = '\n' :: more) := by
  induction blanks with
  | nil => exact ⟨0, [], rfl, .inl rfl⟩
  | cons x blanks ih =>
      rcases spacing_cases (spacing x List.mem_cons_self) with rfl | rfl
      · obtain ⟨k, tail, rfl, ends⟩ := ih fun x member => spacing x (List.mem_cons_of_mem _ member)
        exact ⟨k + 1, tail, rfl, ends⟩
      · exact ⟨0, _, rfl, .inr ⟨blanks, rfl⟩⟩

@[simp] theorem columnAfter_spaces (column k : Nat) (tail : List Char) :
    columnAfter column (List.replicate k ' ' ++ tail) = columnAfter (column + k) tail := by
  induction k generalizing column with
  | zero => rfl
  | succ k ih =>
      rw [List.replicate_succ, List.cons_append, columnAfter, if_neg (by decide), ih]
      congr 1
      omega

theorem ahead_spaces {k : Nat} (here : c.rest = List.replicate k ' ' ++ rest) :
    (c.ahead k).rest = rest := by
  have spaces := ahead_rest here
  rwa [List.length_replicate] at spaces

theorem pass_spaces {p : Char → Bool} {k : Nat} (passes : p ' ' = true)
    (ends : ∀ x ∈ rest.head?, p x = false) (here : c.rest = List.replicate k ' ' ++ rest) :
    c.pass p = c.ahead k := by
  have spaces : ∀ x ∈ List.replicate k ' ', p x = true := fun x member =>
    List.eq_of_mem_replicate member ▸ passes
  rw [Cursor.pass, here, (span_append spaces ends).1, List.length_replicate]

/-- The spaces at the front are skipped; then the line goes on or ends. -/
theorem skip_spaces {l : Layout} {k : Nat} (block : l.outer = [])
    (here : l.cursor.rest = List.replicate k ' ' ++ rest)
    (stop : ∀ x ∈ rest.head?, isBlank x = false ∧ x ≠ '#' ∧ x.toNat ≠ 0xFEFF) (fuel : Nat) :
    l.skip (fuel + 1) =
      if (l.cursor.ahead k).atBreak then
        Layout.skip fuel { l with cursor := (l.cursor.ahead k).nextLine.2, mayOpen := true }
      else { l with cursor := l.cursor.ahead k } := by
  have bare : l.cursor.rest.head?.any (·.toNat = 0xFEFF) = false := by
    rw [here]
    cases k with
    | succ k => rfl
    | zero =>
      cases rest with
      | nil => rfl
      | cons x rest => exact decide_eq_false (stop x rfl).2.2
  have ends : ∀ x ∈ rest.head?, (x = ' ' || ((l.flow || !l.mayOpen) && x = '\t')) = false := by
    intro x first
    obtain ⟨space, tab⟩ := Bool.or_eq_false_iff.mp (stop x first).1
    rw [space, tab, Bool.and_false, Bool.or_false]
  have passed : l.cursor.pass (fun x => x = ' ' || ((l.flow || !l.mayOpen) && x = '\t')) =
      l.cursor.ahead k := pass_spaces rfl ends here
  have comment : ¬(l.cursor.ahead k).rest.head? = some '#' := by
    rw [ahead_spaces here]
    exact fun mark => (stop '#' mark).2.1 rfl
  have outside : l.flow = false := by
    rw [Layout.flow, block]
    rfl
  rw [Layout.skip]
  simp only [bare, Bool.false_eq_true, and_false, if_false, passed]
  rw [if_neg comment, outside, Bool.not_false, Bool.or_true]

theorem skip_to_solid {l : Layout} {k : Nat} (block : l.outer = []) (solid : Solid rest)
    (here : l.cursor.rest = List.replicate k ' ' ++ rest) (fuel : Nat) :
    l.skip (fuel + 1) = { l with cursor := l.cursor.ahead k } := by
  have stop : ∀ x ∈ rest.head?, isBlank x = false ∧ x ≠ '#' ∧ x.toNat ≠ 0xFEFF :=
    fun x first => ⟨(Bool.or_eq_false_iff.mp (solid x first).1).1, (solid x first).2⟩
  have same_line : (l.cursor.ahead k).atBreak = false := by
    rw [Cursor.atBreak, ahead_spaces here]
    cases rest with
    | nil => rfl
    | cons x rest => exact (Bool.or_eq_false_iff.mp (solid x rfl).1).2
  rw [skip_spaces block here stop, same_line, if_neg Bool.false_ne_true]

/-- Spaces that end their line are skipped with it, and a block may begin. -/
theorem skip_line {l : Layout} {k : Nat} (block : l.outer = [])
    (here : l.cursor.rest = List.replicate k ' ' ++ '\n' :: rest) (fuel : Nat) :
    l.skip (fuel + 1) = Layout.skip fuel { l with
      cursor := ⟨rest, (l.cursor.ahead k).index + 1, (l.cursor.ahead k).line + 1, 0⟩
      mayOpen := true } := by
  have stop : ∀ x ∈ ('\n' :: rest).head?, isBlank x = false ∧ x ≠ '#' ∧ x.toNat ≠ 0xFEFF := by
    rintro x ⟨⟩
    decide
  have ends_line : (l.cursor.ahead k).atBreak = true := by
    rw [Cursor.atBreak, ahead_spaces here]
    rfl
  rw [skip_spaces block here stop, if_pos ends_line, nextLine_newline (ahead_spaces here)]

/-- Spacing is skipped up to something solid, and a block may begin on a new line. -/
theorem skip_spacing {l : Layout} (block : l.outer = []) (spacing : ∀ x ∈ blanks, isSpacing x = true)
    (solid : Solid rest) (here : l.cursor.rest = blanks ++ rest) {fuel : Nat}
    (enough : blanks.length < fuel) :
    ∃ c', l.skip fuel =
        { l with cursor := c', mayOpen := l.mayOpen || blanks.contains '\n' } ∧
      c'.rest = rest ∧ c'.column = columnAfter l.cursor.column blanks ∧
      (blanks = [] → c' = l.cursor) := by
  -- one step of the fuel is one line
  induction fuel generalizing l blanks with
  | zero => cases enough
  | succ fuel ih =>
      obtain ⟨k, tail, rfl, ends⟩ := exists_spaces spacing
      rw [List.append_assoc] at here
      rw [columnAfter_spaces]
      rcases ends with rfl | ⟨more, rfl⟩
      · have none : (List.replicate k ' ' ++ []).contains '\n' = false := by simp
        rw [skip_to_solid block solid here, none, Bool.or_false]
        refine ⟨_, rfl, ahead_spaces here, rfl, fun nothing => ?_⟩
        rw [List.append_nil, List.replicate_eq_nil_iff] at nothing
        rw [nothing]
        rfl
      · have fewer : more.length < fuel := by
          rw [List.length_append, List.length_cons] at enough
          omega
        have later : ∀ x ∈ more, isSpacing x = true := fun x member =>
          spacing x (List.mem_append_right _ (List.mem_cons_of_mem _ member))
        have some : (List.replicate k ' ' ++ '\n' :: more).contains '\n' = true := by simp
        obtain ⟨c', skipped, at_rest, column, -⟩ := ih
          (l := { l with
            cursor := ⟨more ++ rest, (l.cursor.ahead k).index + 1, (l.cursor.ahead k).line + 1, 0⟩
            mayOpen := true }) block later rfl fewer
        rw [skip_line block here, some, Bool.or_true]
        refine ⟨c', skipped, at_rest, column, fun nothing => ?_⟩
        simp at nothing

/-! Words. -/

def isVisible (x : Char) : Bool := 33 ≤ x.toNat && x.toNat ≤ 126

theorem visible_of_plain {x : Char} (plain : isPlain x = true) : isVisible x = true := by
  simpa [isVisible] using plain_bounds plain

theorem solid_of_visible {x : Char} (visible : isVisible x = true) :
    isBlankOrBreak x = false ∧ x.toNat ≠ 0xFEFF := by
  simp only [isVisible, Bool.and_eq_true, decide_eq_true_eq] at visible
  have codes : ' '.toNat = 32 ∧ '\t'.toNat = 9 ∧ '\n'.toNat = 10 ∧ '\r'.toNat = 13 := by decide
  refine ⟨?_, by omega⟩
  rw [Bool.eq_false_iff]
  intro space
  simp only [isBlankOrBreak, isBlank, isBreak, Bool.or_eq_true, decide_eq_true_eq] at space
  rcases space with (rfl | rfl) | (((rfl | rfl) | line) | line) | line <;> omega

/-- A word that a scalar may hold with quotes and without. -/
structure IsWord (w : List Char) : Prop where
  filled : w ≠ []
  visible : ∀ x ∈ w, isVisible x = true ∧ x ≠ apostrophe
  first : w.head? ≠ some '#'
  last : w.getLast? ≠ some ':'

/-- Plain characters make a word, also with colons in front of the last of them. -/
theorem isWord_append {front w : List Char} (colons : ∀ x ∈ front, isPlain x = true ∨ x = ':')
    (filled : w ≠ []) (plain : ∀ x ∈ w, isPlain x = true) : IsWord (front ++ w) := by
  have all : ∀ x ∈ front ++ w, isPlain x = true ∨ x = ':' := fun x member =>
    (List.mem_append.mp member).elim (colons x) fun late => .inl (plain x late)
  refine ⟨by simp [filled], fun x member => ?_, fun mark => ?_, fun mark => ?_⟩
  · rcases all x member with kept | rfl
    · refine ⟨visible_of_plain kept, ?_⟩
      rintro rfl
      cases kept
    · decide
  · rcases all '#' (List.mem_of_head? mark) with kept | other
    · cases kept
    · exact absurd other (by decide)
  · rw [List.getLast?_append, List.getLast?_eq_some_getLast filled, Option.some_or,
      ← List.getLast?_eq_some_getLast] at mark
    cases plain ':' (List.mem_of_getLast? mark)

theorem isWord_of_plain {w : List Char} (filled : w ≠ []) (plain : ∀ x ∈ w, isPlain x = true) :
    IsWord w := by
  have none : ∀ x ∈ ([] : List Char), isPlain x = true ∨ x = ':' := nofun
  exact isWord_append none filled plain

def spaced (w : List Char) (ws : List (List Char)) : List Char := w ++ ws.flatMap (' ' :: ·)

@[simp] theorem spaced_cons (w v : List Char) (ws : List (List Char)) :
    spaced w (v :: ws) = w ++ ' ' :: spaced v ws := by
  rw [spaced, List.flatMap_cons, spaced]
  rfl

theorem IsWord.spaced_head {w : List Char} (word : IsWord w) (ws : List (List Char))
    (rest : List Char) :
    ∃ x, (spaced w ws ++ rest).head? = some x ∧ isBlankOrBreak x = false := by
  obtain ⟨x, w, rfl⟩ := List.exists_cons_of_ne_nil word.filled
  exact ⟨x, rfl, (solid_of_visible (word.visible x List.mem_cons_self).1).1⟩

/-- Where a word without quotes ends. -/
def Stops (rest : List Char) : Prop := plainWord? false rest = some []

theorem stops_of_space {x : Char} (space : isBlankOrBreak x = true) (rest : List Char) :
    Stops (x :: rest) := by
  rw [Stops, plainWord?, if_pos space]

theorem stops_of_colon (ends : endsWord rest = true) : Stops (':' :: rest) := by
  simp [Stops, plainWord?, ends]

theorem endsWord_visible {x : Char} (visible : isVisible x = true) (rest : List Char) :
    endsWord (x :: rest) = false := (solid_of_visible visible).1

theorem plainWord_append {w : List Char} (visible : ∀ x ∈ w, isVisible x = true)
    (last : w.getLast? ≠ some ':') (stops : Stops rest) : plainWord? false (w ++ rest) = some w := by
  induction w with
  | nil => exact stops
  | cons x w ih =>
      have seen := solid_of_visible (visible x List.mem_cons_self)
      have later : ∀ x ∈ w, isVisible x = true := fun x member =>
        visible x (List.mem_cons_of_mem _ member)
      have inner : (x = ':' && endsWord (w ++ rest)) = false := by
        cases w with
        | nil =>
          rw [Bool.and_eq_false_iff]
          exact .inl (decide_eq_false fun colon => last (colon ▸ rfl))
        | cons y w =>
          rw [List.cons_append, endsWord_visible (later y List.mem_cons_self), Bool.and_false]
      have last' : w.getLast? ≠ some ':' := by
        cases w with
        | nil => exact nofun
        | cons y w => rwa [List.getLast?_cons_cons] at last
      rw [List.cons_append, plainWord?, seen.1]
      simp [inner, ih later last']

theorem readGap_space {x : Char} (solid : isBlankOrBreak x = false) (first : rest.head? = some x)
    (here : c.rest = ' ' :: rest) (indent : Nat) {fuel : Nat} (enough : 1 < fuel) :
    readGap? indent fuel {} c = some (⟨false, [' '], [], []⟩, c.ahead 1) := by
  obtain ⟨fuel, rfl⟩ : ∃ more, fuel = more + 2 := ⟨fuel - 2, by omega⟩
  obtain ⟨more, rfl⟩ := List.head?_eq_some_iff.mp first
  obtain ⟨blank, ends⟩ := Bool.or_eq_false_iff.mp solid
  have space : isBlank ' ' = true := rfl
  simp [readGap?, here, space, ahead_one here, blank, ends]

theorem IsWord.readPlain_step {w : List Char} (word : IsWord w) (edge : c.atDocumentEdge = false)
    (here : c.rest = w ++ rest) (stops : Stops rest) (indent fuel : Nat) (text : List Char)
    (gap : Gap) : readPlain? false indent (fuel + 1) text gap c =
      if !((c.ahead w.length).atBlank || (c.ahead w.length).atBreak) then
        some (text ++ gap.text ++ w, {}, c.ahead w.length)
      else (readGap? indent (rest.length + 1) {} (c.ahead w.length)).bind fun g =>
        if g.2.column < indent then some (text ++ gap.text ++ w, g.1, g.2)
        else readPlain? false indent fuel (text ++ gap.text ++ w) g.1 g.2 := by
  have read := plainWord_append (fun x member => (word.visible x member).1) word.last stops
  have after : (c.ahead w.length).rest = rest := ahead_rest here
  have comment : ¬((w ++ rest).head? = some '#') := by
    obtain ⟨x, w, rfl⟩ := List.exists_cons_of_ne_nil word.filled
    exact word.first
  have filled : ¬(w.isEmpty = true) := fun empty => word.filled (List.isEmpty_iff.mp empty)
  rw [readPlain?, edge, here]
  simp only [comment, Bool.or_false, decide_false, Bool.false_eq_true, if_false, read,
    Option.bind_eq_bind, Option.bind_some, filled, after, Bool.not_false, Bool.true_and,
    decide_eq_true_eq]
  rfl

/-- A word that a colon ends, as a key has it. -/
theorem IsWord.readPlain_key {w : List Char} (word : IsWord w) (edge : c.atDocumentEdge = false)
    (here : c.rest = w ++ ':' :: rest) (ends : endsWord rest = true) (indent fuel : Nat) :
    readPlain? false indent (fuel + 1) [] {} c = some (w, {}, c.ahead w.length) := by
  have after : (c.ahead w.length).rest = ':' :: rest := ahead_rest here
  have colon : ((c.ahead w.length).atBlank || (c.ahead w.length).atBreak) = false := by
    rw [Cursor.atBlank, Cursor.atBreak, after]
    rfl
  rw [word.readPlain_step edge here (stops_of_colon ends), colon]
  rfl

theorem atDocumentEdge_inner (inner : 0 < c.column) : c.atDocumentEdge = false := by
  simp [Cursor.atDocumentEdge, Cursor.atDocumentMark, Nat.ne_of_gt inner]

theorem IsWord.readPlain_space {w : List Char} {x : Char} (word : IsWord w) (inner : 0 < c.column)
    (here : c.rest = w ++ ' ' :: rest) (first : rest.head? = some x)
    (solid : isBlankOrBreak x = false) {indent : Nat} (deep : indent ≤ c.column) (fuel : Nat)
    (text : List Char) (gap : Gap) : readPlain? false indent (fuel + 1) text gap c =
      readPlain? false indent fuel (text ++ gap.text ++ w) ⟨false, [' '], [], []⟩
        ((c.ahead w.length).ahead 1) := by
  have after := ahead_rest here
  have blank : ((c.ahead w.length).atBlank || (c.ahead w.length).atBreak) = true := by
    rw [Cursor.atBlank, after]
    rfl
  have right : indent ≤ ((c.ahead w.length).ahead 1).column := by
    change indent ≤ c.column + w.length + 1
    omega
  rw [word.readPlain_step (atDocumentEdge_inner inner) here (stops_of_space rfl _), blank,
    Bool.not_true, if_neg Bool.false_ne_true, readGap_space solid first after indent (by simp),
    Option.bind_some, if_neg (Nat.not_lt.mpr right)]

/-- The last word of a line; the gap after it ends left of the indentation. -/
theorem IsWord.readPlain_last {w : List Char} (word : IsWord w) (inner : 0 < c.column)
    (here : c.rest = w ++ '\n' :: (blanks ++ rest)) (spacing : ∀ x ∈ blanks, isSpacing x = true)
    (solid : Solid rest) {indent : Nat} (ends : columnAfter 0 blanks < indent) (fuel : Nat)
    (text : List Char) (gap : Gap) :
    ∃ gap' c', readPlain? false indent (fuel + 1) text gap c =
        some (text ++ gap.text ++ w, gap', c') ∧ gap'.broken = true ∧
      c'.rest = rest ∧ c'.column = columnAfter 0 blanks := by
  have after : (c.ahead w.length).rest = '\n' :: blanks ++ rest := ahead_rest here
  have line : ((c.ahead w.length).atBlank || (c.ahead w.length).atBreak) = true := by
    rw [Cursor.atBlank, Cursor.atBreak, after]
    rfl
  have fits : ('\n' :: blanks).length < ('\n' :: (blanks ++ rest)).length + 1 := by
    rw [List.length_cons, List.length_cons, List.length_append]
    omega
  obtain ⟨gap', c', read, at_rest, column, breaks⟩ :=
    readGap_spacing (List.forall_mem_cons.mpr ⟨rfl, spacing⟩) solid after indent fits {}
  have left : c'.column < indent := column ▸ ends
  rw [word.readPlain_step (atDocumentEdge_inner inner) here (stops_of_space rfl _), line,
    Bool.not_true, if_neg Bool.false_ne_true, read, Option.bind_some, if_pos left]
  exact ⟨gap', c', rfl, breaks.trans (by simp), at_rest, column⟩

/-- Words up to the end of their line; the gap after them ends left of the indentation. -/
theorem readPlain_words {w : List Char} {ws : List (List Char)} (words : ∀ v ∈ w :: ws, IsWord v)
    (here : c.rest = spaced w ws ++ '\n' :: (blanks ++ rest)) (inner : 0 < c.column)
    (spacing : ∀ x ∈ blanks, isSpacing x = true) (solid : Solid rest) {indent : Nat}
    (deep : indent ≤ c.column) (ends : columnAfter 0 blanks < indent) {fuel : Nat}
    (enough : ws.length < fuel) (text : List Char) (gap : Gap) :
    ∃ gap' c', readPlain? false indent fuel text gap c =
        some (text ++ gap.text ++ spaced w ws, gap', c') ∧ gap'.broken = true ∧
      c'.rest = rest ∧ c'.column = columnAfter 0 blanks := by
  induction ws generalizing w c fuel text gap with
  | nil =>
      obtain ⟨fuel, rfl⟩ : ∃ more, fuel = more + 1 := ⟨fuel - 1, by omega⟩
      rw [spaced, List.flatMap_nil, List.append_nil] at here ⊢
      exact (words w List.mem_cons_self).readPlain_last inner here spacing solid ends fuel text gap
  | cons v ws ih =>
      obtain ⟨fuel, rfl⟩ : ∃ more, fuel = more + 1 := ⟨fuel - 1, by omega⟩
      have later : ∀ u ∈ v :: ws, IsWord u := fun u member => words u (List.mem_cons_of_mem _ member)
      rw [spaced_cons, List.append_assoc, List.cons_append] at here
      obtain ⟨x, first, seen⟩ := (later v List.mem_cons_self).spaced_head ws ('\n' :: (blanks ++ rest))
      have right : indent ≤ ((c.ahead w.length).ahead 1).column := by
        change indent ≤ c.column + w.length + 1
        omega
      obtain ⟨gap', c', read, broken, at_rest, column⟩ := ih later (ahead_one (ahead_rest here))
        (Nat.succ_pos _) right (Nat.lt_of_succ_lt_succ enough) (text ++ gap.text ++ w)
        ⟨false, [' '], [], []⟩
      rw [(words w List.mem_cons_self).readPlain_space inner here first seen deep]
      refine ⟨gap', c', read.trans ?_, broken, at_rest, column⟩
      simp [Gap.text, spaced]

/-! Words in quotes. -/

theorem ahead_zero (c : Cursor) : c.ahead 0 = c := rfl

theorem ahead_succ (c : Cursor) (n : Nat) : (c.ahead 1).ahead n = c.ahead (n + 1) := by
  simp only [Cursor.ahead, List.drop_drop, Nat.add_assoc, Nat.add_comm 1 n]

theorem readRun_word {w : List Char} (visible : ∀ x ∈ w, isVisible x = true ∧ x ≠ apostrophe)
    (here : c.rest = w ++ rest)
    (stop : rest.head? = some ' ' ∨ ∃ more, rest = apostrophe :: more ∧ more.head? ≠ some apostrophe)
    {fuel : Nat} (enough : w.length < fuel) :
    readRun? apostrophe fuel c = some (w, false, c.ahead w.length) := by
  induction w generalizing c fuel with
  | nil =>
      obtain ⟨fuel, rfl⟩ : ∃ more, fuel = more + 1 := ⟨fuel - 1, by omega⟩
      rw [List.nil_append] at here
      rcases stop with blank | ⟨more, rfl, ends⟩
      · obtain ⟨more, rfl⟩ := List.head?_eq_some_iff.mp blank
        rw [readRun?, here]
        rfl
      · have solid : isBlankOrBreak apostrophe = false := rfl
        have double : apostrophe ≠ '"' := by decide
        simp [readRun?, here, solid, double, ends, ahead_zero]
  | cons x w ih =>
      obtain ⟨fuel, rfl⟩ : ∃ more, fuel = more + 1 := ⟨fuel - 1, by omega⟩
      have double : apostrophe ≠ '"' := by decide
      have seen := visible x List.mem_cons_self
      have read := ih (fun x member => visible x (List.mem_cons_of_mem _ member)) (ahead_one here)
        (Nat.lt_of_succ_lt_succ enough)
      simp [readRun?, here, (solid_of_visible seen.1).1, seen.2, double, read, ahead_succ]

theorem readQuoted_open {w : List Char} {x : Char} (inner : 0 < c.column)
    (here : c.rest = w ++ x :: rest) :
    (c.atDocumentEdge || c.rest.isEmpty) = false ∧ w.length < c.rest.length + 1 := by
  have filled : c.rest.isEmpty = false := by
    rw [here]
    cases w <;> rfl
  refine ⟨by rw [atDocumentEdge_inner inner, filled, Bool.or_self], ?_⟩
  rw [here, List.length_append]
  omega

theorem IsWord.readQuoted_last {w : List Char} (word : IsWord w) (inner : 0 < c.column)
    (here : c.rest = w ++ apostrophe :: rest) (ends : rest.head? ≠ some apostrophe) (fuel : Nat)
    (text : List Char) :
    readQuoted? apostrophe (fuel + 1) text c = some (text ++ w, (c.ahead w.length).ahead 1) := by
  obtain ⟨opened, length⟩ := readQuoted_open inner here
  have read := readRun_word word.visible here (.inr ⟨rest, rfl, ends⟩) length
  have after := ahead_rest here
  rw [readQuoted?, opened, if_neg Bool.false_ne_true, read]
  simp [after]

theorem IsWord.readQuoted_space {w : List Char} {x : Char} (word : IsWord w) (inner : 0 < c.column)
    (here : c.rest = w ++ ' ' :: rest) (first : rest.head? = some x)
    (solid : isBlankOrBreak x = false) (fuel : Nat) (text : List Char) :
    readQuoted? apostrophe (fuel + 1) text c =
      readQuoted? apostrophe fuel (text ++ w ++ [' ']) ((c.ahead w.length).ahead 1) := by
  obtain ⟨opened, length⟩ := readQuoted_open inner here
  have read := readRun_word word.visible here (.inl rfl) length
  have after := ahead_rest here
  have gap : readGap? 0 ((c.ahead w.length).rest.length + 1) {} (c.ahead w.length) =
      some (⟨false, [' '], [], []⟩, (c.ahead w.length).ahead 1) :=
    readGap_space solid first after 0 (by rw [after]; simp)
  have other : ¬(' ' = apostrophe) := by decide
  have shown : Gap.text ⟨false, [' '], [], []⟩ = [' '] := rfl
  rw [after] at gap
  rw [readQuoted?, opened, if_neg Bool.false_ne_true, read]
  simp only [Option.bind_eq_bind, Option.bind_some, after, List.head?_cons, Option.some.injEq, other,
    if_false, gap, shown]

theorem readQuoted_words {w : List Char} {ws : List (List Char)} (words : ∀ v ∈ w :: ws, IsWord v)
    (here : c.rest = spaced w ws ++ apostrophe :: rest) (inner : 0 < c.column)
    (ends : rest.head? ≠ some apostrophe) {fuel : Nat} (enough : ws.length < fuel)
    (text : List Char) :
    ∃ c', readQuoted? apostrophe fuel text c = some (text ++ spaced w ws, c') ∧ c'.rest = rest := by
  induction ws generalizing w c fuel text with
  | nil =>
      obtain ⟨fuel, rfl⟩ : ∃ more, fuel = more + 1 := ⟨fuel - 1, by omega⟩
      rw [spaced, List.flatMap_nil, List.append_nil] at here ⊢
      have read := (words w List.mem_cons_self).readQuoted_last inner here ends fuel text
      exact ⟨_, read, ahead_one (ahead_rest here)⟩
  | cons v ws ih =>
      obtain ⟨fuel, rfl⟩ : ∃ more, fuel = more + 1 := ⟨fuel - 1, by omega⟩
      have later : ∀ u ∈ v :: ws, IsWord u := fun u member => words u (List.mem_cons_of_mem _ member)
      rw [spaced_cons, List.append_assoc, List.cons_append] at here
      obtain ⟨x, first, seen⟩ := (later v List.mem_cons_self).spaced_head ws (apostrophe :: rest)
      obtain ⟨c', quoted, at_rest⟩ := ih later (ahead_one (ahead_rest here)) (Nat.succ_pos _)
        (Nat.lt_of_succ_lt_succ enough) (text ++ w ++ [' '])
      refine ⟨c', ?_, at_rest⟩
      rw [(words w List.mem_cons_self).readQuoted_space inner here first seen, quoted, spaced_cons]
      simp

end ProofOfWork.Document.Yaml
