import ProofOfWork.Proofs.Document.Yaml.Words
set_option autoImplicit false

namespace ProofOfWork.Document.Yaml
open Text

/-! Lines of settings. -/

/-- A scalar with quotes or without. -/
structure Scalar where
  quoted : Bool
  text : List Char

namespace Scalar

def written (s : Scalar) : List Char :=
  if s.quoted then apostrophe :: (s.text ++ [apostrophe]) else s.text

def token (s : Scalar) : Token := .scalar (if s.quoted then .quoted else .plain) s.text

/-- Words of which the first may begin a scalar without quotes, unless there are quotes. -/
def Sound (s : Scalar) : Prop :=
  ∃ w ws, s.text = spaced w ws ∧ (∀ v ∈ w :: ws, IsWord v) ∧
    (s.quoted = false → ∃ x more, w = x :: more ∧ (Layout.isMark x = false ∨ x = '-' ∧ more ≠ []))

end Scalar

/-- A key of letters, digits and low lines. -/
structure IsKey (key : List Char) : Prop where
  filled : key ≠ []
  letters : ∀ x ∈ key, (x.isAlphanum || x = '_') = true
  short : key.length ≤ 1024

structure Row where
  depth : Nat
  key : List Char
  value : Option Scalar

namespace Row

def after (r : Row) : List Char := r.value.elim [] fun s => ' ' :: s.written

def line (r : Row) : List Char := r.key ++ ':' :: (r.after ++ ['\n'])

def text (r : Row) : List Char := List.replicate (2 * r.depth) ' ' ++ r.line

structure Sound (r : Row) : Prop where
  key : IsKey r.key
  value : ∀ s ∈ r.value, s.Sound

/-- The tokens up to the colon when so many mappings are open. -/
def keyTokens (opened depth : Nat) (key : List Char) : List Token :=
  List.replicate (opened - (depth + 1)) .blockEnd ++
    ((if opened ≤ depth then [.blockMapping] else []) ++ [.key, .scalar .plain key, .value])

def tokens (opened : Nat) (r : Row) : List Token :=
  keyTokens opened r.depth r.key ++ r.value.elim [] fun s => [s.token]

end Row

/-- The tokens of lines, with the ends of the mappings that are open. -/
def rowsTokens : Nat → List Row → List Token
  | opened, [] => List.replicate opened .blockEnd
  | opened, r :: rest => r.tokens opened ++ rowsTokens (r.depth + 1) rest

/-- A line may stand deeper than the line before it, by one, only where that one has no scalar. -/
def Nested : Nat → Bool → List Row → Prop
  | _, _, [] => True
  | opened, bare, r :: rest =>
    (if bare then r.depth ≤ opened else r.depth < opened) ∧ Nested (r.depth + 1) r.value.isNone rest

/-! Keys and scalars. -/

theorem ne_of_isMark {x y : Char} (plain : Layout.isMark x = false) (mark : Layout.isMark y = true) :
    x ≠ y := by
  rintro rfl
  rw [plain] at mark
  cases mark

theorem isMark_of_letter {x : Char} (letter : (x.isAlphanum || x = '_') = true) :
    Layout.isMark x = false := by
  rw [Bool.eq_false_iff]
  intro mark
  have member := List.contains_iff_mem.mp mark
  have none : ∀ y ∈ "-?:,[]\x7b\x7d#&*!|>\x27\"%@\x60".toList, (!(y.isAlphanum || y = '_')) = true :=
    List.all_eq_true.mp (by decide)
  have other := none x member
  rw [letter] at other
  cases other

theorem plain_of_letter {x : Char} (letter : (x.isAlphanum || x = '_') = true) :
    isPlain x = true := by
  rcases Bool.or_eq_true_iff.mp letter with letter | low
  · simp [isPlain, letter]
  · simp [isPlain, low]

theorem IsKey.word {key : List Char} (sound : IsKey key) : IsWord key :=
  isWord_of_plain sound.filled fun x member => plain_of_letter (sound.letters x member)

/-! The blocks that are open. -/

/-- The columns of so many open mappings, the innermost first. -/
def columns : Nat → List Nat
  | 0 => []
  | n + 1 => 2 * n :: columns n

theorem closeBlocks_none (opened : Nat) (tokens : List Token) :
    Layout.closeBlocks none (columns opened) tokens =
      ([], List.replicate opened .blockEnd ++ tokens) := by
  induction opened generalizing tokens with
  | zero => rfl
  | succ opened ih =>
      rw [columns, Layout.closeBlocks, if_pos (by rfl), ih, List.replicate_succ', List.append_assoc]
      rfl

theorem closeBlocks_columns (depth opened : Nat) (tokens : List Token) :
    Layout.closeBlocks (some (2 * depth)) (columns opened) tokens =
      (columns (min opened (depth + 1)),
        List.replicate (opened - (depth + 1)) .blockEnd ++ tokens) := by
  induction opened generalizing tokens with
  | zero =>
      rw [Nat.zero_min, Nat.zero_sub]
      rfl
  | succ opened ih =>
      by_cases deeper : depth < opened
      · have right : (some (2 * depth)).all (· < 2 * opened) = true := decide_eq_true (by omega)
        have least : min (opened + 1) (depth + 1) = min opened (depth + 1) := by omega
        have count : opened + 1 - (depth + 1) = opened - (depth + 1) + 1 := by omega
        rw [columns, Layout.closeBlocks, if_pos right, ih, least, count, List.replicate_succ',
          List.append_assoc]
        rfl
      · have left : ¬(some (2 * depth)).all (· < 2 * opened) = true := by
          rw [Option.all_some, decide_eq_true_eq]
          omega
        have least : min (opened + 1) (depth + 1) = opened + 1 := by omega
        have count : opened + 1 - (depth + 1) = 0 := by omega
        rw [columns, Layout.closeBlocks, if_neg left, least, count]
        rfl

theorem closeBlocks_right {n depth column : Nat} (fits : n ≤ depth + 1) (right : 2 * depth ≤ column)
    (tokens : List Token) :
    Layout.closeBlocks (some column) (columns n) tokens = (columns n, tokens) := by
  cases n with
  | zero => rfl
  | succ n =>
      have inside : ¬(some column).all (· < 2 * n) = true := by
        rw [Option.all_some, decide_eq_true_eq]
        omega
      rw [columns, Layout.closeBlocks, if_neg inside]

/-! Single tokens. -/

section
variable {c : Cursor} {tokens : List Token} {indents : List Nat} {candidate : Option Candidate}
  {mayOpen : Bool} {x : Char} {rest : List Char}

/-- What may begin a scalar without quotes begins one, except at the edge of a document. -/
theorem token_plain (begins : Layout.isMark x = false ∨ x = '-' ∧ endsWord rest = false)
    (solid : isBlankOrBreak x = false) (edge : c.atDocumentEdge = false) :
    Layout.token? ⟨c, tokens, indents, candidate, [], mayOpen⟩ x rest =
      Layout.plain? ⟨c, tokens, indents, candidate, [], mayOpen⟩ := by
  obtain ⟨start, finish⟩ := Bool.or_eq_false_iff.mp edge
  rcases begins with plain | ⟨rfl, inner⟩
  · have other (y : Char) (mark : Layout.isMark y = true) : x ≠ y := ne_of_isMark plain mark
    have possible : Layout.beginsPlain false x rest = true := by
      simp [Layout.beginsPlain, solid, plain]
    simp only [Layout.token?, start, finish, Layout.flow, possible, List.isEmpty_nil, Bool.not_true,
      Bool.not_false, other '%' (by decide), other '[' (by decide), other '\x7b' (by decide),
      other ']' (by decide), other '\x7d' (by decide), other ',' (by decide), other '-' (by decide),
      other '?' (by decide), other ':' (by decide), other '*' (by decide), other '&' (by decide),
      other '!' (by decide), other '|' (by decide), other '>' (by decide), other '\x27' (by decide),
      other '"' (by decide), and_false, false_and, or_self, if_false, if_true, Bool.false_eq_true]
  · have ahead : rest.head?.any isBlank = false := by
      cases rest with
      | nil => rfl
      | cons y rest => exact (Bool.or_eq_false_iff.mp inner).1
    have possible : Layout.beginsPlain false '-' rest = true := by
      simp [Layout.beginsPlain, ahead]
    simp [Layout.token?, start, finish, Layout.flow, possible, inner]

theorem atDocumentMark_inner (inner : 0 < c.column) (mark : Char) :
    c.atDocumentMark mark = false := by
  simp [Cursor.atDocumentMark, Nat.ne_of_gt inner]

theorem token_colon {k : Candidate} (inner : 0 < c.column) (ends : endsWord rest = true) :
    Layout.token? ⟨c, tokens, indents, some k, [], mayOpen⟩ ':' rest =
      some { (Layout.markKey ⟨c, tokens, indents, some k, [], mayOpen⟩ k).take (c.ahead 1) .value with
        candidate := none
        mayOpen := false } := by
  have start := atDocumentMark_inner inner '-'
  have finish := atDocumentMark_inner inner '.'
  simp [Layout.token?, start, finish, Layout.flow, ends, Layout.value?]

theorem token_quote (inner : 0 < c.column) :
    Layout.token? ⟨c, tokens, indents, candidate, [], false⟩ apostrophe rest =
      (readQuoted? apostrophe (c.rest.length + 1) [] (c.ahead 1)).map fun read =>
        ⟨read.2, .scalar .quoted read.1 :: tokens, indents, candidate, [], false⟩ := by
  have start := atDocumentMark_inner inner '-'
  have finish := atDocumentMark_inner inner '.'
  have mark : apostrophe = '\x27' := rfl
  simp [Layout.token?, start, finish, Layout.flow, mark, Layout.keyLike?, Layout.remember?]
  cases readQuoted? '\x27' (c.rest.length + 1) [] (c.ahead 1) <;> rfl

end

/-! Rounds of the scanner. -/

section
variable {l next : Layout} {blanks rest : List Char} {x : Char}

/-- What is found after some spacing where no key is possible. -/
theorem settle (block : l.outer = []) (unclaimed : l.candidate = none)
    (spacing : ∀ x ∈ blanks, isSpacing x = true) (solid : Solid rest)
    (here : l.cursor.rest = blanks ++ rest) :
    ∃ c', (l.skip (l.cursor.rest.length + 1)).refreshAll? =
        some ⟨c', l.tokens, l.indents, none, [], l.mayOpen || blanks.contains '\n'⟩ ∧
      c'.rest = rest ∧ c'.column = columnAfter l.cursor.column blanks := by
  have enough : blanks.length < l.cursor.rest.length + 1 := by
    rw [here, List.length_append]
    omega
  obtain ⟨c', skipped, at_rest, column, -⟩ := skip_spacing block spacing solid here enough
  refine ⟨c', ?_, at_rest, column⟩
  rw [skipped, Layout.refreshAll?, block, unclaimed]
  rfl

theorem settle_space {c : Cursor} (tokens : List Token) (indents : List Nat) (solid : Solid rest)
    (here : c.rest = ' ' :: rest) :
    ∃ c', (Layout.skip (c.rest.length + 1) ⟨c, tokens, indents, none, [], false⟩).refreshAll? =
        some ⟨c', tokens, indents, none, [], false⟩ ∧
      c'.rest = rest ∧ c'.column = c.column + 1 := by
  have one : ∀ x ∈ [' '], isSpacing x = true := by simp [isSpacing]
  exact settle (l := ⟨c, tokens, indents, none, [], false⟩) rfl rfl one solid here

theorem settle_claimed {k : Candidate} (block : l.outer = []) (claimed : l.candidate = some k)
    (solid : Solid l.cursor.rest) (line : k.line = l.cursor.line)
    (near : l.cursor.index ≤ k.index + 1024) :
    (l.skip (l.cursor.rest.length + 1)).refreshAll? = some l := by
  have nothing : l.cursor.rest = [] ++ l.cursor.rest := rfl
  obtain ⟨c', skipped, -, -, same⟩ := skip_spacing block (by simp) solid nothing
    (Nat.succ_pos l.cursor.rest.length)
  obtain rfl := same rfl
  rw [skipped, List.contains_nil, Bool.or_false, Layout.refreshAll?, block, claimed]
  have kept : ¬(k.line < l.cursor.line ∨ k.index + 1024 < l.cursor.index) := by omega
  rw [Layout.refresh?, if_neg kept]
  obtain ⟨cursor, tokens, indents, candidate, outer, mayOpen⟩ := l
  obtain rfl := block
  obtain rfl := claimed
  rfl

theorem finish_next {l' : Layout}
    (settled : (l.skip (l.cursor.rest.length + 1)).refreshAll? = some l')
    (here : l'.cursor.rest = x :: rest)
    (taken : (l'.close (some l'.cursor.column)).token? x rest = some next) (fuel : Nat) :
    l.finish? (fuel + 1) = next.finish? fuel := by
  rw [Layout.finish?, settled]
  simp only [Option.bind_eq_bind, Option.bind_some, here, taken]

theorem finish_end {l' : Layout}
    (settled : (l.skip (l.cursor.rest.length + 1)).refreshAll? = some l')
    (here : l'.cursor.rest = []) (unclaimed : l'.candidate = none) (block : l'.outer = [])
    {opened : Nat} (columns : l'.indents = columns opened) (fuel : Nat) :
    l.finish? (fuel + 1) = some (List.replicate opened .blockEnd ++ l'.tokens) := by
  rw [Layout.finish?, settled]
  simp [here, Layout.close, Layout.flow, block, columns, closeBlocks_none, Layout.drop?, unclaimed]

end

/-! Lines. -/

/-- Between two lines: some spacing, and then the rest in a column where a block may begin. -/
structure Ready (l : Layout) (opened column : Nat) (done : List Token) (rest : List Char) : Prop where
  block : l.outer = []
  unclaimed : l.candidate = none
  indents : l.indents = columns opened
  tokens : l.tokens = done
  place : ∃ blanks, (∀ x ∈ blanks, isSpacing x = true) ∧ l.cursor.rest = blanks ++ rest ∧
    columnAfter l.cursor.column blanks = column ∧ (l.mayOpen || blanks.contains '\n') = true

section
variable {c : Cursor} {tokens done : List Token} {candidate : Option Candidate} {mayOpen : Bool}
  {depth opened : Nat} {key rest : List Char}

theorem close_columns (column : c.column = 2 * depth) :
    Layout.close ⟨c, tokens, columns opened, candidate, [], mayOpen⟩ (some c.column) =
      ⟨c, List.replicate (opened - (depth + 1)) .blockEnd ++ tokens,
        columns (min opened (depth + 1)), candidate, [], mayOpen⟩ := by
  rw [Layout.close, column, closeBlocks_columns]
  rfl

theorem close_right {n : Nat} (fits : n ≤ depth + 1) (right : 2 * depth ≤ c.column) :
    Layout.close ⟨c, tokens, columns n, candidate, [], mayOpen⟩ (some c.column) =
      ⟨c, tokens, columns n, candidate, [], mayOpen⟩ := by
  rw [Layout.close, closeBlocks_right fits right]
  rfl

theorem openBlock_columns (fits : depth ≤ opened) :
    Layout.openBlock ⟨c, tokens, columns (min opened (depth + 1)), candidate, [], mayOpen⟩ (2 * depth)
      .blockMapping = ⟨c, (if opened ≤ depth then [.blockMapping] else []) ++ tokens,
        columns (depth + 1), candidate, [], mayOpen⟩ := by
  by_cases first : opened ≤ depth
  · obtain rfl := Nat.le_antisymm fits first
    have deeper : (columns depth).head?.all (· < 2 * depth) = true := by
      cases depth with
      | zero => rfl
      | succ n => exact decide_eq_true (by omega)
    rw [Nat.min_eq_left (Nat.le_succ _), if_pos first, Layout.openBlock, Layout.deeper, deeper]
    rfl
  · have inside : (columns (depth + 1)).head?.all (· < 2 * depth) = false :=
      decide_eq_false (Nat.lt_irrefl _)
    rw [Nat.min_eq_right (Nat.lt_of_not_le first), if_neg first, Layout.openBlock, Layout.deeper,
      inside, Bool.and_false]
    rfl

theorem IsKey.solid (sound : IsKey key) (rest : List Char) : Solid (key ++ rest) := by
  obtain ⟨x, more, rfl⟩ := List.exists_cons_of_ne_nil sound.filled
  rintro y ⟨⟩
  have letter := sound.letters x List.mem_cons_self
  have seen := solid_of_visible (visible_of_plain (plain_of_letter letter))
  exact ⟨seen.1, ne_of_isMark (isMark_of_letter letter) (by decide), seen.2⟩

theorem IsKey.edge (sound : IsKey key) (here : c.rest = key ++ rest) : c.atDocumentEdge = false := by
  obtain ⟨x, more, rfl⟩ := List.exists_cons_of_ne_nil sound.filled
  have letter := sound.letters x List.mem_cons_self
  have other {mark : Char} (sign : (mark.isAlphanum || mark = '_') = false) :
      c.atDocumentMark mark = false := by
    have differs : x ≠ mark := by
      rintro rfl
      rw [sign] at letter
      cases letter
    simp [Cursor.atDocumentMark, here, differs]
  rw [Cursor.atDocumentEdge, other (by decide), other (by decide)]
  rfl

/-- A word at the beginning of a line may turn out to be a key. -/
theorem token_key {x : Char} {more : List Char} (tokens : List Token) (indents : List Nat)
    (sound : IsKey (x :: more)) (here : c.rest = x :: (more ++ ':' :: rest))
    (ends : endsWord rest = true) : ∃ required,
    Layout.token? ⟨c, tokens, indents, none, [], true⟩ x (more ++ ':' :: rest) =
      some ⟨c.ahead (x :: more).length, .scalar .plain (x :: more) :: tokens, indents,
        some ⟨tokens.length, c.index, c.line, c.column, required⟩, [], false⟩ := by
  have letter := sound.letters x List.mem_cons_self
  have solid := (solid_of_visible (visible_of_plain (plain_of_letter letter))).1
  have read := sound.word.readPlain_key (sound.edge here) here ends
  refine ⟨decide (indents.head? = some c.column), ?_⟩
  rw [token_plain (.inl (isMark_of_letter letter)) solid (sound.edge here)]
  simp [Layout.plain?, Layout.remember?, Layout.drop?, Layout.flow, Layout.inside, read,
    Layout.take, Layout.push]

theorem colon_round {k : Candidate} (fits : depth ≤ opened) (count : k.count = tokens.length)
    (column : k.column = 2 * depth) (line : k.line = c.line) (near : c.index ≤ k.index + 1024)
    (here : c.rest = ':' :: rest) (right : 2 * depth < c.column) (ends : endsWord rest = true)
    (fuel : Nat) :
    Layout.finish? (fuel + 1) ⟨c, .scalar .plain key :: tokens, columns (min opened (depth + 1)),
        some k, [], false⟩ =
      Layout.finish? fuel ⟨c.ahead 1, .value :: .scalar .plain key :: .key ::
        ((if opened ≤ depth then [.blockMapping] else []) ++ tokens), columns (depth + 1), none, [],
        false⟩ := by
  have solid : Solid c.rest := by
    rw [here]
    rintro y ⟨⟩
    decide
  refine finish_next (settle_claimed rfl rfl solid line near) here ?_ fuel
  have one : (Token.scalar .plain key :: tokens).length - k.count = 1 := by
    rw [count, List.length_cons, Nat.add_sub_cancel_left]
  rw [close_right (Nat.min_le_right _ _) (Nat.le_of_lt right),
    token_colon (Nat.zero_lt_of_lt right) ends, Layout.markKey, column]
  simp only [one, List.drop_succ_cons, List.drop_zero, List.take_succ_cons, List.take_zero,
    openBlock_columns fits]
  rfl

/-- A key and its colon take a round each. -/
theorem IsKey.rounds {l : Layout} (sound : IsKey key) (fits : depth ≤ opened)
    (ready : Ready l opened (2 * depth) done (key ++ ':' :: rest)) (ends : endsWord rest = true)
    (fuel : Nat) : ∃ c', l.finish? (fuel + 2) = Layout.finish? fuel
        ⟨c', (Row.keyTokens opened depth key).reverse ++ done, columns (depth + 1), none, [], false⟩ ∧
      c'.rest = rest ∧ 2 * depth < c'.column := by
  obtain ⟨blanks, spacing, here, column, opens⟩ := ready.place
  obtain ⟨c, settled, at_key, at_column⟩ :=
    settle ready.block ready.unclaimed spacing (sound.solid _) here
  rw [opens, ready.tokens, ready.indents] at settled
  rw [column] at at_column
  have after : (c.ahead key.length).rest = ':' :: rest := ahead_rest at_key
  obtain ⟨x, more, rfl⟩ := List.exists_cons_of_ne_nil sound.filled
  obtain ⟨required, first⟩ := token_key (List.replicate (opened - (depth + 1)) .blockEnd ++ done)
    (columns (min opened (depth + 1))) sound at_key ends
  rw [← close_columns at_column] at first
  have filled : 0 < (x :: more).length := Nat.succ_pos _
  have right : 2 * depth < (c.ahead (x :: more).length).column := by
    change 2 * depth < c.column + (x :: more).length
    omega
  refine ⟨(c.ahead (x :: more).length).ahead 1, ?_, ahead_one after, Nat.lt_succ_of_lt right⟩
  rw [finish_next settled at_key first, colon_round fits rfl at_column rfl
    (Nat.add_le_add_left sound.short _) after right ends, Row.keyTokens]
  by_cases begins : opened ≤ depth <;> simp [begins]

theorem length_le_spaced (w : List Char) (ws : List (List Char)) :
    ws.length ≤ (spaced w ws).length := by
  rw [spaced, List.length_append]
  induction ws with
  | nil => exact Nat.zero_le _
  | cons v ws ih =>
      rw [List.flatMap_cons, List.length_append, List.length_cons, List.length_cons]
      omega

theorem solid_word {w : List Char} (word : IsWord w) (rest : List Char) : Solid (w ++ rest) := by
  obtain ⟨x, more, rfl⟩ := List.exists_cons_of_ne_nil word.filled
  rintro y ⟨⟩
  have seen := solid_of_visible (word.visible x List.mem_cons_self).1
  exact ⟨seen.1, fun mark => word.first (mark ▸ rfl), seen.2⟩

theorem spaced_append (w : List Char) (ws : List (List Char)) (rest : List Char) :
    spaced w ws ++ rest = w ++ (ws.flatMap (' ' :: ·) ++ rest) := List.append_assoc ..

/-- A scalar without quotes goes on to the next line. -/
theorem plain_round {w : List Char} {ws : List (List Char)} {blanks : List Char}
    (words : ∀ v ∈ w :: ws, IsWord v)
    (begins : ∃ x more, w = x :: more ∧ (Layout.isMark x = false ∨ x = '-' ∧ more ≠ []))
    (here : c.rest = ' ' :: (spaced w ws ++ '\n' :: (blanks ++ rest))) (right : 2 * depth < c.column)
    (spacing : ∀ x ∈ blanks, isSpacing x = true) (solid : Solid rest)
    (left : columnAfter 0 blanks ≤ 2 * depth) (fuel : Nat) :
    ∃ l', Layout.finish? (fuel + 1) ⟨c, tokens, columns (depth + 1), none, [], false⟩ =
        l'.finish? fuel ∧ Ready l' (depth + 1) (columnAfter 0 blanks)
          (.scalar .plain (spaced w ws) :: tokens) rest := by
  have first := words w List.mem_cons_self
  have stop : Solid (spaced w ws ++ '\n' :: (blanks ++ rest)) := by
    rw [spaced_append]
    exact solid_word first _
  obtain ⟨c', settled, at_text, at_column⟩ := settle_space tokens (columns (depth + 1)) stop here
  have right' : 2 * depth + 1 ≤ c'.column := by
    rw [at_column]
    exact Nat.le_succ_of_le right
  have enough : ws.length < c'.rest.length + 1 := by
    rw [at_text, List.length_append]
    exact Nat.lt_succ_of_le (Nat.le_add_right_of_le (length_le_spaced w ws))
  obtain ⟨gap, c'', read, broken, at_rest, column⟩ := readPlain_words words at_text
    (Nat.zero_lt_of_lt right') spacing solid right' (Nat.lt_succ_of_le left) enough [] {}
  have plain : Layout.plain? ⟨c', tokens, columns (depth + 1), none, [], false⟩ =
      some ⟨c'', .scalar .plain (spaced w ws) :: tokens, columns (depth + 1), none, [], true⟩ := by
    have shown : ([] : List Char) ++ Gap.text {} ++ spaced w ws = spaced w ws := rfl
    rw [shown] at read
    have inside : Layout.inside ⟨c', tokens, columns (depth + 1), none, [], false⟩ = 2 * depth + 1 := rfl
    simp [Layout.plain?, Layout.remember?, Layout.flow, inside, read, broken, Layout.take, Layout.push]
  obtain ⟨x, more, rfl, start⟩ := begins
  have start' : Layout.isMark x = false ∨ x = '-' ∧
      endsWord (more ++ (ws.flatMap (' ' :: ·) ++ '\n' :: (blanks ++ rest))) = false := by
    refine start.imp_right (And.imp_right fun inner => ?_)
    obtain ⟨y, more, rfl⟩ := List.exists_cons_of_ne_nil inner
    exact endsWord_visible (first.visible y (List.mem_cons_of_mem _ List.mem_cons_self)).1 _
  have taken := (token_plain start' (solid_of_visible (first.visible x List.mem_cons_self).1).1
    (atDocumentEdge_inner (Nat.zero_lt_of_lt right'))).trans plain
  rw [← close_right (Nat.le_refl _) (Nat.le_of_lt right')] at taken
  rw [spaced_append] at at_text
  exact ⟨_, finish_next settled at_text taken fuel, rfl, rfl, rfl, rfl, [], by simp, at_rest, column, rfl⟩

theorem quoted_round {w : List Char} {ws : List (List Char)} {blanks : List Char}
    (words : ∀ v ∈ w :: ws, IsWord v)
    (here : c.rest = ' ' :: apostrophe :: (spaced w ws ++ apostrophe :: '\n' :: (blanks ++ rest)))
    (right : 2 * depth < c.column) (spacing : ∀ x ∈ blanks, isSpacing x = true) (fuel : Nat) :
    ∃ l', Layout.finish? (fuel + 1) ⟨c, tokens, columns (depth + 1), none, [], false⟩ =
        l'.finish? fuel ∧ Ready l' (depth + 1) (columnAfter 0 blanks)
          (.scalar .quoted (spaced w ws) :: tokens) rest := by
  have stop : Solid (apostrophe :: (spaced w ws ++ apostrophe :: '\n' :: (blanks ++ rest))) := by
    rintro y ⟨⟩
    decide
  obtain ⟨c', settled, at_text, at_column⟩ := settle_space tokens (columns (depth + 1)) stop here
  have right' : 2 * depth < c'.column := by
    rw [at_column]
    exact Nat.lt_succ_of_lt right
  have enough : ws.length < c'.rest.length + 1 := by
    have spaces := length_le_spaced w ws
    rw [at_text, List.length_cons, List.length_append]
    omega
  obtain ⟨c'', read, at_rest⟩ := readQuoted_words words (ahead_one at_text) (Nat.succ_pos _)
    (by simp [apostrophe]) enough []
  have taken : Layout.token? ⟨c', tokens, columns (depth + 1), none, [], false⟩ apostrophe
      (spaced w ws ++ apostrophe :: '\n' :: (blanks ++ rest)) =
        some ⟨c'', .scalar .quoted (spaced w ws) :: tokens, columns (depth + 1), none, [], false⟩ := by
    rw [token_quote (Nat.zero_lt_of_lt right'), read]
    rfl
  rw [← close_right (Nat.le_refl _) (Nat.le_of_lt right')] at taken
  exact ⟨_, finish_next settled at_text taken fuel, rfl, rfl, rfl, rfl, '\n' :: blanks,
    List.forall_mem_cons.mpr ⟨rfl, spacing⟩, at_rest, rfl, by simp⟩

theorem Scalar.Sound.round {s : Scalar} {blanks : List Char} (sound : s.Sound)
    (here : c.rest = ' ' :: (s.written ++ '\n' :: (blanks ++ rest))) (right : 2 * depth < c.column)
    (spacing : ∀ x ∈ blanks, isSpacing x = true) (solid : Solid rest)
    (left : columnAfter 0 blanks ≤ 2 * depth) (fuel : Nat) :
    ∃ l', Layout.finish? (fuel + 1) ⟨c, tokens, columns (depth + 1), none, [], false⟩ =
        l'.finish? fuel ∧ Ready l' (depth + 1) (columnAfter 0 blanks) (s.token :: tokens) rest := by
  obtain ⟨w, ws, written, words, begins⟩ := sound
  obtain ⟨quoted, text⟩ := s
  obtain rfl : text = spaced w ws := written
  cases quoted with
  | false => exact plain_round words (begins rfl) here right spacing solid left fuel
  | true =>
      refine quoted_round words (here.trans ?_) right spacing fuel
      simp [written]

end

/-- The rounds that a line takes. -/
def Row.rounds (r : Row) : Nat := r.value.elim 2 fun _ => 3

def rowsRounds : List Row → Nat
  | [] => 0
  | r :: rows => r.rounds + rowsRounds rows

@[simp]
theorem Row.endsWord_after (r : Row) (rest : List Char) : endsWord (r.after ++ '\n' :: rest) = true := by
  cases known : r.value with
  | none =>
      rw [Row.after, known]
      rfl
  | some s =>
      rw [Row.after, known]
      rfl

theorem Row.finish_line {r : Row} {l : Layout} {opened : Nat} {done : List Token}
    {blanks rest : List Char} (sound : r.Sound) (fits : r.depth ≤ opened)
    (ready : Ready l opened (2 * r.depth) done (r.line ++ (blanks ++ rest)))
    (spacing : ∀ x ∈ blanks, isSpacing x = true) (solid : Solid rest)
    (left : r.value.isNone = false → columnAfter 0 blanks ≤ 2 * r.depth) (fuel : Nat) :
    ∃ l', l.finish? (fuel + r.rounds) = l'.finish? fuel ∧
      Ready l' (r.depth + 1) (columnAfter 0 blanks) ((r.tokens opened).reverse ++ done) rest := by
  have parts : r.line ++ (blanks ++ rest) = r.key ++ ':' :: (r.after ++ '\n' :: (blanks ++ rest)) := by
    simp [Row.line]
  rw [parts] at ready
  -- a key without a scalar ends its line, and the next line lies deeper
  cases known : r.value with
  | none =>
      obtain ⟨c, key, after, right⟩ := sound.key.rounds fits ready (r.endsWord_after _) fuel
      rw [Row.after, known] at after
      rw [Row.rounds, Row.tokens, known]
      refine ⟨_, key, rfl, rfl, rfl, ?_, '\n' :: blanks, List.forall_mem_cons.mpr ⟨rfl, spacing⟩, after,
        rfl, by simp⟩
      rw [Option.elim_none, List.append_nil]
  | some s =>
      obtain ⟨c, key, after, right⟩ := sound.key.rounds fits ready (r.endsWord_after _) (fuel + 1)
      rw [Row.after, known] at after
      obtain ⟨l', scalar, ready'⟩ := (sound.value s known).round after right spacing solid
        (left (known ▸ rfl)) fuel
      rw [Row.rounds, Row.tokens, known]
      refine ⟨l', key.trans scalar, ?_⟩
      rw [Option.elim_some, List.reverse_append]
      exact ready'

/-! All lines. -/

section
variable (tail : List Char)

def lead : List Row → List Char
  | [] => tail
  | r :: _ => List.replicate (2 * r.depth) ' '

def body : List Row → List Char
  | [] => []
  | r :: rest => r.line ++ (rest.flatMap Row.text ++ tail)

theorem lead_append_body (rows : List Row) :
    lead tail rows ++ body tail rows = rows.flatMap Row.text ++ tail := by
  cases rows with
  | nil => rw [lead, body, List.append_nil, List.flatMap_nil, List.nil_append]
  | cons r rows => simp [lead, body, Row.text]

variable {tail}

theorem lead_spacing (breaks : ∀ x ∈ tail, x = '\n') (rows : List Row) :
    ∀ x ∈ lead tail rows, isSpacing x = true := by
  intro x member
  cases rows with
  | nil => rw [breaks x member]; rfl
  | cons r rows => rw [List.eq_of_mem_replicate member]; rfl

theorem columnAfter_lead (breaks : ∀ x ∈ tail, x = '\n') (rows : List Row) :
    columnAfter 0 (lead tail rows) = (rows.head?.elim 0 fun r => 2 * r.depth) := by
  cases rows with
  | nil =>
      rw [lead, List.head?_nil, Option.elim_none]
      induction tail with
      | nil => rfl
      | cons x tail ih =>
          rw [columnAfter, if_pos (breaks x List.mem_cons_self)]
          exact ih fun y member => breaks y (List.mem_cons_of_mem _ member)
  | cons r rows =>
      have all := columnAfter_spaces 0 (2 * r.depth) []
      rw [List.append_nil, Nat.zero_add] at all
      exact all

theorem solid_body {rows : List Row} (sound : ∀ r ∈ rows, r.Sound) : Solid (body tail rows) := by
  cases rows with
  | nil => exact nofun
  | cons r rows =>
      rw [body, Row.line, List.append_assoc]
      exact (sound r List.mem_cons_self).key.solid _

/-- Lines are read one after another, and then all mappings end. -/
theorem finish_rows (breaks : ∀ x ∈ tail, x = '\n') {rows : List Row} (sound : ∀ r ∈ rows, r.Sound)
    {l : Layout} {opened : Nat} {bare : Bool} {done : List Token} (nested : Nested opened bare rows)
    (ready : Ready l opened (columnAfter 0 (lead tail rows)) done (body tail rows)) (fuel : Nat) :
    l.finish? (fuel + 1 + rowsRounds rows) =
      some ((rowsTokens opened rows).reverse ++ done) := by
  -- on the lines that are left; `Ready` is what holds between two of them
  induction rows generalizing l opened bare done with
  | nil =>
      obtain ⟨blanks, spacing, here, -, -⟩ := ready.place
      obtain ⟨c, settled, at_end, -⟩ :=
        settle ready.block ready.unclaimed spacing (solid_body sound) here
      rw [ready.indents, ready.tokens] at settled
      rw [rowsRounds, Nat.add_zero, rowsTokens, List.reverse_replicate]
      exact finish_end settled at_end rfl rfl rfl fuel
  | cons r rows ih =>
      obtain ⟨fits, deeper⟩ := nested
      have fits' : r.depth ≤ opened := by
        cases bare with
        | false => exact Nat.le_of_lt fits
        | true => exact fits
      have sound' : ∀ r ∈ rows, r.Sound := fun r member => sound r (List.mem_cons_of_mem _ member)
      have left : r.value.isNone = false → columnAfter 0 (lead tail rows) ≤ 2 * r.depth := by
        intro scalar
        rw [columnAfter_lead breaks]
        cases rows with
        | nil => exact Nat.zero_le _
        | cons next rows =>
          rw [scalar] at deeper
          exact Nat.mul_le_mul_left 2 (Nat.le_of_lt_succ deeper.1)
      rw [columnAfter_lead breaks, body, ← lead_append_body] at ready
      have count : fuel + 1 + rowsRounds (r :: rows) = fuel + 1 + rowsRounds rows + r.rounds := by
        rw [rowsRounds]
        omega
      obtain ⟨l', line, ready'⟩ := Row.finish_line (sound r List.mem_cons_self) fits' ready
        (lead_spacing breaks rows) (solid_body sound') left (fuel + 1 + rowsRounds rows)
      rw [count, line, ih sound' deeper ready', rowsTokens, List.reverse_append, List.append_assoc]

end

/-! The characters of lines. -/

theorem allowed_of_visible {x : Char} (visible : isVisible x = true) : isAllowed x = true := by
  simp only [isVisible, Bool.and_eq_true, decide_eq_true_eq] at visible
  simp only [isAllowed, Bool.or_eq_true, Bool.and_eq_true, decide_eq_true_eq]
  omega

theorem allowed_spaced {w : List Char} {ws : List (List Char)} (words : ∀ v ∈ w :: ws, IsWord v) :
    ∀ x ∈ spaced w ws, isAllowed x = true := by
  have word {v : List Char} (word : IsWord v) : ∀ x ∈ v, isAllowed x = true :=
    fun x member => allowed_of_visible (word.visible x member).1
  intro x member
  rcases List.mem_append.mp member with first | later
  · exact word (words w List.mem_cons_self) x first
  · obtain ⟨v, among, inside⟩ := List.mem_flatMap.mp later
    rcases List.mem_cons.mp inside with rfl | inside
    · rfl
    · exact word (words v (List.mem_cons_of_mem _ among)) x inside

theorem Scalar.Sound.allowed {s : Scalar} (sound : s.Sound) : ∀ x ∈ s.written, isAllowed x = true := by
  obtain ⟨w, ws, written, words, -⟩ := sound
  obtain ⟨quoted, text⟩ := s
  obtain rfl : text = spaced w ws := written
  have text := allowed_spaced words
  cases quoted with
  | false => exact text
  | true =>
      intro x member
      rcases List.mem_cons.mp member with rfl | member
      · rfl
      · rcases List.mem_append.mp member with inside | quote
        · exact text x inside
        · rw [List.mem_singleton.mp quote]
          rfl

theorem Row.Sound.allowed {r : Row} (sound : r.Sound) : ∀ x ∈ r.text, isAllowed x = true := by
  have key : ∀ x ∈ r.key, isAllowed x = true := fun x member =>
    allowed_of_visible (visible_of_plain (plain_of_letter (sound.key.letters x member)))
  have value : ∀ x ∈ r.after, isAllowed x = true := by
    intro x member
    cases known : r.value with
    | none =>
        rw [Row.after, known] at member
        cases member
    | some s =>
        rw [Row.after, known] at member
        rcases List.mem_cons.mp member with rfl | member
        · rfl
        · exact (sound.value s known).allowed x member
  intro x member
  rcases List.mem_append.mp member with spaces | line
  · rw [List.eq_of_mem_replicate spaces]
    rfl
  · rcases List.mem_append.mp line with inside | line
    · exact key x inside
    · rcases List.mem_cons.mp line with rfl | line
      · rfl
      · rcases List.mem_append.mp line with inside | break_
        · exact value x inside
        · rw [List.mem_singleton.mp break_]
          rfl

theorem Row.Sound.rounds_le {r : Row} (sound : r.Sound) : r.rounds ≤ r.text.length := by
  have filled : 0 < r.key.length := List.length_pos_iff.mpr sound.key.filled
  have most : r.rounds ≤ 3 := by
    rw [Row.rounds]
    cases r.value with
    | none => exact Nat.le_succ 2
    | some s => exact Nat.le_refl 3
  rw [Row.text, Row.line]
  simp only [List.length_append, List.length_cons, List.length_nil]
  omega

theorem rowsRounds_le {rows : List Row} (sound : ∀ r ∈ rows, r.Sound) :
    rowsRounds rows ≤ (rows.flatMap Row.text).length := by
  induction rows with
  | nil => exact Nat.zero_le _
  | cons r rows ih =>
      rw [rowsRounds, List.flatMap_cons, List.length_append]
      exact Nat.add_le_add (sound r List.mem_cons_self).rounds_le
        (ih fun r member => sound r (List.mem_cons_of_mem _ member))

theorem tokens_rows {rows : List Row} (sound : ∀ r ∈ rows, r.Sound) (nested : Nested 0 true rows)
    {tail : List Char} (breaks : ∀ x ∈ tail, x = '\n') :
    tokens? (rows.flatMap Row.text ++ tail) = some (rowsTokens 0 rows) := by
  have allowed : (rows.flatMap Row.text ++ tail).all isAllowed = true := by
    rw [List.all_eq_true]
    intro x member
    rcases List.mem_append.mp member with inside | last
    · obtain ⟨r, among, inside⟩ := List.mem_flatMap.mp inside
      exact (sound r among).allowed x inside
    · rw [breaks x last]
      rfl
  have enough : rowsRounds rows ≤ (rows.flatMap Row.text ++ tail).length := by
    rw [List.length_append]
    exact Nat.le_add_right_of_le (rowsRounds_le sound)
  obtain ⟨more, count⟩ := Nat.exists_eq_add_of_le enough
  have fuel : (rows.flatMap Row.text ++ tail).length + 2 = more + 1 + 1 + rowsRounds rows := by
    omega
  have ready : Ready { cursor := { rest := rows.flatMap Row.text ++ tail } } 0
      (columnAfter 0 (lead tail rows)) [] (body tail rows) :=
    ⟨rfl, rfl, rfl, rfl, lead tail rows, lead_spacing breaks rows, (lead_append_body tail rows).symm,
      rfl, rfl⟩
  rw [tokens?, if_pos allowed, fuel, finish_rows breaks sound nested ready, Option.map_some,
    List.append_nil, List.reverse_reverse]

end ProofOfWork.Document.Yaml
