import ProofOfWork.Document.Yaml.Node
import ProofOfWork.Document.Yaml.Text
import ProofOfWork.Proofs.Document.Yaml.Layout
set_option autoImplicit false

namespace ProofOfWork.Document.Yaml
open Text

def scalar? : Value → Option Scalar
  | .sequence _ | .mapping _ => none
  | .text cs => some ⟨isAmbiguous cs, cs⟩
  | v => some ⟨false, scalarText v⟩

/-- Mappings whose keys are names and whose innermost values are scalars of words. -/
inductive Regular : Value → Prop
  | scalar {v : Value} {s : Scalar} : scalar? v = some s → s.Sound → Regular v
  | mapping {entries : List (List Char × Value)} : entries ≠ [] → (∀ e ∈ entries, IsKey e.1) →
      (∀ e ∈ entries, Regular e.2) → Regular (.mapping entries)

/-! The lines of a value. -/

mutual

def entryRows (depth : Nat) (key : List Char) : Value → List Row
  | .mapping entries => ⟨depth, key, none⟩ :: entriesRows (depth + 1) entries
  | v => [⟨depth, key, scalar? v⟩]

def entriesRows (depth : Nat) : List (List Char × Value) → List Row
  | [] => []
  | (key, v) :: rest => entryRows depth key v ++ entriesRows depth rest

end

mutual

/-- The tokens of a value. -/
def valueTokens : Value → List Token
  | .mapping entries => .blockMapping :: (entriesTokens entries ++ [.blockEnd])
  | v => (scalar? v).elim [] fun s => [s.token]

def entriesTokens : List (List Char × Value) → List Token
  | [] => []
  | (key, v) :: rest =>
    [.key, .scalar .plain key, .value] ++ (valueTokens v ++ entriesTokens rest)

end

mutual

def node : Value → Node
  | .mapping entries => .mapping none (nodes entries)
  | v => (scalar? v).elim .empty fun s => .scalar none (if s.quoted then .quoted else .plain) s.text

def nodes : List (List Char × Value) → List (Node × Node)
  | [] => []
  | (key, v) :: rest => (.scalar none .plain key, node v) :: nodes rest

end

section
variable {v : Value} {s : Scalar} {depth : Nat} {key : List Char}

theorem entryRows_scalar (scalar : scalar? v = some s) :
    entryRows depth key v = [⟨depth, key, some s⟩] := by
  cases v <;> cases scalar <;> rfl

theorem valueTokens_scalar (scalar : scalar? v = some s) : valueTokens v = [s.token] := by
  cases v <;> cases scalar <;> rfl

theorem node_scalar (scalar : scalar? v = some s) :
    node v = .scalar none (if s.quoted then .quoted else .plain) s.text := by
  cases v <;> cases scalar <;> rfl

theorem entryLines_scalar (scalar : scalar? v = some s) :
    entryLines key v = [key ++ [':', ' '] ++ scalarText v] := by
  cases v <;> cases scalar <;> rfl

theorem Scalar.Sound.apart (sound : s.Sound) : apostrophe ∉ s.text := by
  obtain ⟨w, ws, written, words, -⟩ := sound
  rw [written]
  intro member
  rcases List.mem_append.mp member with first | later
  · exact ((words w List.mem_cons_self).visible _ first).2 rfl
  · obtain ⟨v, among, inside⟩ := List.mem_flatMap.mp later
    rcases List.mem_cons.mp inside with space | inside
    · exact absurd space (by decide)
    · exact ((words v (List.mem_cons_of_mem _ among)).visible _ inside).2 rfl

theorem written_scalar (scalar : scalar? v = some s) (sound : s.Sound) : s.written = scalarText v := by
  cases v with
  | text cs =>
      cases scalar
      have same : cs.flatMap (fun x => if x = apostrophe then [x, x] else [x]) = cs := by
        have single : ∀ x ∈ cs, (if x = apostrophe then [x, x] else [x]) = [x] := by
          intro x member
          refine if_neg ?_
          rintro rfl
          exact sound.apart member
        rw [List.flatMap_def, List.map_congr_left single]
        exact List.flatMap_singleton' cs
      change (if isAmbiguous cs then _ else _) = textOf cs
      rw [textOf, same]
  | sequence items | mapping entries => cases scalar
  | null | boolean b | integer n | real x | other =>
      cases scalar
      rfl

end

/-! The lines of a value. -/

theorem sound_entriesRows {entries : List (List Char × Value)} {depth : Nat}
    (values : ∀ e ∈ entries, ∀ r ∈ entryRows depth e.1 e.2, r.Sound) :
    ∀ r ∈ entriesRows depth entries, r.Sound := by
  induction entries with
  | nil => nofun
  | cons e entries ih =>
      intro r member
      rcases List.mem_append.mp member with first | later
      · exact values e List.mem_cons_self r first
      · exact ih (fun e member => values e (List.mem_cons_of_mem _ member)) r later

theorem Regular.sound_rows {v : Value} (regular : Regular v) {key : List Char} (name : IsKey key)
    (depth : Nat) : ∀ r ∈ entryRows depth key v, r.Sound := by
  induction regular generalizing key depth with
  | scalar spelled sound =>
      rw [entryRows_scalar spelled]
      rintro r (_ | ⟨_, ⟨⟩⟩)
      exact ⟨name, fun s known => Option.some.inj known ▸ sound⟩
  | mapping filled keys values ih =>
      rw [entryRows]
      refine List.forall_mem_cons.mpr ⟨⟨name, nofun⟩, ?_⟩
      exact sound_entriesRows fun e member => ih e member (keys e member) (depth + 1)

/-- Lines further left may follow wherever more mappings are open. -/
theorem Nested.mono {rows : List Row} {n opened : Nat} {bare : Bool} (nested : Nested n false rows)
    (more : n ≤ opened) : Nested opened bare rows := by
  cases rows with
  | nil => trivial
  | cons r rows =>
      refine ⟨?_, nested.2⟩
      have fits : r.depth < n := nested.1
      cases bare with
      | false => exact Nat.lt_of_lt_of_le fits more
      | true => exact Nat.le_of_lt (Nat.lt_of_lt_of_le fits more)

theorem Nested.bare {rows : List Row} {n : Nat} (nested : Nested (n + 1) false rows) :
    Nested n true rows := by
  cases rows with
  | nil => trivial
  | cons r rows =>
      have fits : r.depth < n + 1 := nested.1
      exact ⟨Nat.le_of_lt_succ fits, nested.2⟩

section
variable {entries : List (List Char × Value)} {depth : Nat} {rest : List Row}

theorem nested_entriesRows
    (values : ∀ e ∈ entries, ∀ rest, Nested (depth + 1) false rest →
      Nested (depth + 1) false (entryRows depth e.1 e.2 ++ rest))
    (follow : Nested (depth + 1) false rest) :
    Nested (depth + 1) false (entriesRows depth entries ++ rest) := by
  induction entries with
  | nil => exact follow
  | cons e entries ih =>
      rw [entriesRows, List.append_assoc]
      exact values e List.mem_cons_self _ (ih fun e member => values e (List.mem_cons_of_mem _ member))

theorem Regular.nested {v : Value} (regular : Regular v) (key : List Char)
    (follow : Nested (depth + 1) false rest) :
    Nested (depth + 1) false (entryRows depth key v ++ rest) := by
  induction regular generalizing key depth rest with
  | scalar spelled sound =>
      rw [entryRows_scalar spelled]
      exact ⟨Nat.lt_succ_self _, follow.mono (Nat.le_refl _)⟩
  | mapping filled keys values ih =>
      rw [entryRows]
      refine ⟨Nat.lt_succ_self _, Nested.bare ?_⟩
      exact nested_entriesRows (fun e member rest => ih e member e.1)
        (follow.mono (Nat.le_succ _))

/-! Their tokens. -/

/-- The next line further left ends the mappings that it is not in. -/
theorem rowsTokens_close {base opened : Nat} (follow : Nested base false rest)
    (more : base ≤ opened) :
    rowsTokens opened rest = List.replicate (opened - base) .blockEnd ++ rowsTokens base rest := by
  cases rest with
  | nil =>
      rw [rowsTokens, rowsTokens, List.replicate_append_replicate, Nat.sub_add_cancel more]
  | cons r rest =>
      have fits : r.depth < base := follow.1
      have count : opened - (r.depth + 1) = opened - base + (base - (r.depth + 1)) := by omega
      rw [rowsTokens, rowsTokens, Row.tokens, Row.tokens, Row.keyTokens, Row.keyTokens,
        if_neg (Nat.not_le.mpr fits), if_neg (by omega), count, ← List.replicate_append_replicate]
      simp only [List.append_assoc]

theorem keyTokens_next (depth : Nat) (key : List Char) :
    Row.keyTokens (depth + 1) depth key = [.key, .scalar .plain key, .value] := by
  rw [Row.keyTokens, Nat.sub_self, if_neg (Nat.not_succ_le_self depth)]
  rfl

theorem rowsTokens_open (e : List Char × Value) (entries : List (List Char × Value)) :
    rowsTokens depth (entriesRows depth (e :: entries) ++ rest) =
      .blockMapping :: rowsTokens (depth + 1) (entriesRows depth (e :: entries) ++ rest) := by
  have first : ∃ value more, entryRows depth e.1 e.2 = ⟨depth, e.1, value⟩ :: more := by
    cases e.2 <;> exact ⟨_, _, rfl⟩
  obtain ⟨value, more, first⟩ := first
  have count : depth - (depth + 1) = 0 := by omega
  rw [entriesRows, first]
  simp only [List.cons_append, rowsTokens, Row.tokens, keyTokens_next]
  rw [Row.keyTokens, count, if_pos (Nat.le_refl _)]
  rfl

theorem entries_tokens
    (nested : ∀ e ∈ entries, ∀ rest, Nested (depth + 1) false rest →
      Nested (depth + 1) false (entryRows depth e.1 e.2 ++ rest))
    (values : ∀ e ∈ entries, ∀ rest, Nested (depth + 1) false rest →
      rowsTokens (depth + 1) (entryRows depth e.1 e.2 ++ rest) =
        [.key, .scalar .plain e.1, .value] ++ (valueTokens e.2 ++ rowsTokens (depth + 1) rest))
    (follow : Nested (depth + 1) false rest) :
    rowsTokens (depth + 1) (entriesRows depth entries ++ rest) =
      entriesTokens entries ++ rowsTokens (depth + 1) rest := by
  induction entries with
  | nil => rfl
  | cons e entries ih =>
      have nested' := fun e member => nested e (List.mem_cons_of_mem _ member)
      have values' := fun e member => values e (List.mem_cons_of_mem _ member)
      have later := nested_entriesRows nested' follow
      rw [entriesRows, List.append_assoc, values e List.mem_cons_self _ later, ih nested' values',
        entriesTokens]
      simp only [List.append_assoc]

theorem Regular.tokens {v : Value} (regular : Regular v) (key : List Char)
    (follow : Nested (depth + 1) false rest) :
    rowsTokens (depth + 1) (entryRows depth key v ++ rest) =
      [.key, .scalar .plain key, .value] ++ (valueTokens v ++ rowsTokens (depth + 1) rest) := by
  induction regular generalizing key depth rest with
  | scalar spelled sound =>
      rw [entryRows_scalar spelled, valueTokens_scalar spelled, List.singleton_append, rowsTokens,
        Row.tokens, keyTokens_next]
      rfl
  | mapping filled keys values ih =>
      obtain ⟨e, entries, rfl⟩ := List.exists_cons_of_ne_nil filled
      have deeper : Nested (depth + 1 + 1) false rest := follow.mono (Nat.le_succ _)
      have inner := entries_tokens (fun e member rest => (values e member).nested e.1)
        (fun e member rest => ih e member e.1) deeper
      have one : depth + 1 + 1 - (depth + 1) = 1 := Nat.add_sub_cancel_left _ _
      rw [entryRows, List.cons_append, rowsTokens, rowsTokens_open, inner,
        rowsTokens_close follow (Nat.le_succ _), one, Row.tokens, keyTokens_next, valueTokens]
      simp

end

/-! Their text. -/

def inset (depth : Nat) (line : List Char) : List Char :=
  List.replicate (2 * depth) ' ' ++ (line ++ ['\n'])

theorem inset_deeper (depth : Nat) (line : List Char) :
    inset depth ([' ', ' '] ++ line) = inset (depth + 1) line := by
  have count : 2 * (depth + 1) = 2 * depth + 2 := rfl
  rw [inset, inset, count, ← List.replicate_append_replicate]
  simp

theorem text_entriesRows {entries : List (List Char × Value)} {depth : Nat}
    (values : ∀ e ∈ entries,
      (entryLines e.1 e.2).map (inset depth) = (entryRows depth e.1 e.2).map Row.text) :
    (entriesLines entries).map (inset depth) = (entriesRows depth entries).map Row.text := by
  induction entries with
  | nil => rfl
  | cons e entries ih =>
      rw [entriesLines, entriesRows, List.map_append, List.map_append, values e List.mem_cons_self,
        ih fun e member => values e (List.mem_cons_of_mem _ member)]

theorem Regular.text_rows {v : Value} (regular : Regular v) (key : List Char) (depth : Nat) :
    (entryLines key v).map (inset depth) = (entryRows depth key v).map Row.text := by
  induction regular generalizing key depth with
  | scalar spelled sound =>
      rw [entryLines_scalar spelled, entryRows_scalar spelled]
      simp [inset, Row.text, Row.line, Row.after, written_scalar spelled sound]
  | mapping filled keys values ih =>
      obtain ⟨e, entries, rfl⟩ := List.exists_cons_of_ne_nil filled
      have deeper : inset depth ∘ ([' ', ' '] ++ ·) = inset (depth + 1) := funext (inset_deeper depth)
      have lines : entryLines key (.mapping (e :: entries)) =
          (key ++ [':']) :: (entriesLines (e :: entries)).map ([' ', ' '] ++ ·) := rfl
      rw [lines, entryRows, List.map_cons, List.map_cons, List.map_map, deeper,
        text_entriesRows fun e member => ih e member e.1 (depth + 1)]
      simp [inset, Row.text, Row.line, Row.after]

theorem text_mapping {entries : List (List Char × Value)} (filled : entries ≠ [])
    (values : ∀ e ∈ entries, Regular e.2) :
    text (.mapping entries) = (entriesRows 0 entries).flatMap Row.text := by
  obtain ⟨e, entries, rfl⟩ := List.exists_cons_of_ne_nil filled
  have lines : lines (.mapping (e :: entries)) = entriesLines (e :: entries) := rfl
  rw [text, lines, List.flatMap_def, List.flatMap_def,
    ← text_entriesRows fun e member => (values e member).text_rows e.1 0]
  rfl

theorem tokens_text {entries : List (List Char × Value)} (regular : Regular (.mapping entries))
    {tail : List Char} (breaks : ∀ x ∈ tail, x = '\n') :
    tokens? (text (.mapping entries) ++ tail) = some (valueTokens (.mapping entries)) := by
  cases regular with
  | scalar spelled => cases spelled
  | mapping filled keys values =>
      have sound : ∀ r ∈ entriesRows 0 entries, r.Sound :=
        sound_entriesRows fun e member => (values e member).sound_rows (keys e member) 0
      have nested : ∀ e ∈ entries, ∀ rest, Nested 1 false rest →
          Nested 1 false (entryRows 0 e.1 e.2 ++ rest) :=
        fun e member rest => (values e member).nested e.1
      have end_ : Nested 1 false [] := trivial
      have fits : Nested 0 true (entriesRows 0 entries) := by
        have fits := nested_entriesRows nested end_
        rw [List.append_nil] at fits
        exact fits.bare
      have inner := entries_tokens nested (fun e member rest => (values e member).tokens e.1) end_
      obtain ⟨e, entries, rfl⟩ := List.exists_cons_of_ne_nil filled
      have first : rowsTokens 0 (entriesRows 0 (e :: entries) ++ []) = _ := rowsTokens_open e entries
      rw [inner, List.append_nil] at first
      rw [text_mapping filled values, tokens_rows sound fits breaks, first]
      rfl

/-! The nodes of the tokens. -/

open Node (build? buildUnless? blockEntries? Context Place)

section
variable {c : Context} {place : Place}

theorem build_scalar (style : Style) (cs : List Char) (rest : List Token) (fuel : Nat) :
    build? place (fuel + 1) c (.scalar style cs :: rest) = some (.scalar none style cs, c, rest) := by
  simp [build?, Node.readProperties?, Context.beginNode, Context.endNode]

theorem build_mapping (block : place ≠ .flow) (tokens : List Token) (fuel : Nat) :
    build? place (fuel + 1) c (.blockMapping :: tokens) = (blockEntries? fuel c tokens).map
      fun built => (.mapping none built.1, built.2.1, built.2.2) := by
  simp [build?, Node.readProperties?, Context.beginNode, Context.endNode, block]
  cases blockEntries? fuel c tokens <;> rfl

theorem blockEntries_cons (key : List Char) (tokens : List Token) (fuel : Nat) :
    blockEntries? (fuel + 3) c ([.key, .scalar .plain key, .value] ++ tokens) =
      (buildUnless? [.key, .value, .blockEnd] .afterKey (fuel + 2) c tokens).bind fun v =>
        (blockEntries? (fuel + 2) v.2.1 v.2.2).map fun more =>
          ((.scalar none .plain key, v.1) :: more.1, more.2.1, more.2.2) := by
  have present : Node.isAbsent [.key, .value, .blockEnd]
      (.scalar .plain key :: .value :: tokens) = false := rfl
  rw [List.cons_append, List.cons_append, List.cons_append, List.nil_append]
  rw [blockEntries?, buildUnless?, present, if_neg Bool.false_ne_true, build_scalar]
  simp only [Option.bind_eq_bind, Option.bind_some]
  refine congrArg (Option.bind _) (funext fun v => ?_)
  cases blockEntries? (fuel + 2) v.2.1 v.2.2 <;> rfl

theorem present_value {v : Value} (regular : Regular v) (rest : List Token) :
    Node.isAbsent [.key, .value, .blockEnd] (valueTokens v ++ rest) = false := by
  cases regular with
  | scalar spelled sound =>
      rw [valueTokens_scalar spelled]
      rfl
  | mapping filled keys values => rfl

theorem build_entries {entries : List (List Char × Value)}
    (regular : ∀ e ∈ entries, Regular e.2)
    (values : ∀ e ∈ entries, ∀ rest fuel, (valueTokens e.2).length ≤ fuel →
      build? .afterKey fuel c (valueTokens e.2 ++ rest) = some (node e.2, c, rest))
    (rest : List Token) {fuel : Nat} (enough : (entriesTokens entries).length < fuel) :
    blockEntries? fuel c (entriesTokens entries ++ .blockEnd :: rest) =
      some (nodes entries, c, rest) := by
  induction entries generalizing fuel with
  | nil =>
      obtain ⟨fuel, rfl⟩ : ∃ more, fuel = more + 1 := ⟨fuel - 1, by omega⟩
      rw [entriesTokens, List.nil_append, blockEntries?]
      rfl
  | cons e entries ih =>
      rw [entriesTokens, List.length_append, List.length_append] at enough
      have three : [Token.key, .scalar .plain e.1, .value].length = 3 := rfl
      obtain ⟨fuel, rfl⟩ : ∃ more, fuel = more + 3 := ⟨fuel - 3, by omega⟩
      have first := values e List.mem_cons_self
        (entriesTokens entries ++ .blockEnd :: rest) (fuel + 1) (by omega)
      have more : (entriesTokens entries).length < fuel + 2 := by omega
      have later := ih (fun e member => regular e (List.mem_cons_of_mem _ member))
        (fun e member => values e (List.mem_cons_of_mem _ member)) more
      rw [entriesTokens, List.append_assoc, List.append_assoc, blockEntries_cons, buildUnless?,
        present_value (regular e List.mem_cons_self), if_neg Bool.false_ne_true, first,
        Option.bind_some, later]
      rfl

end

/-- A value is built of its tokens. -/
theorem Regular.build {v : Value} (regular : Regular v) {place : Place} (block : place ≠ .flow)
    (c : Context) (rest : List Token) {fuel : Nat} (enough : (valueTokens v).length ≤ fuel) :
    build? place fuel c (valueTokens v ++ rest) = some (node v, c, rest) := by
  induction regular generalizing place rest fuel with
  | scalar spelled sound =>
      rw [valueTokens_scalar spelled] at enough ⊢
      obtain ⟨fuel, rfl⟩ := Nat.exists_eq_add_of_le' enough
      rw [node_scalar spelled]
      exact build_scalar _ _ _ _
  | @mapping entries filled keys values ih =>
      rw [valueTokens, List.length_cons, List.length_append] at enough
      have one : [Token.blockEnd].length = 1 := rfl
      obtain ⟨fuel, rfl⟩ : ∃ more, fuel = more + 1 := ⟨fuel - 1, by omega⟩
      have inner : Place.afterKey ≠ .flow := nofun
      have fits : (entriesTokens entries).length < fuel := by omega
      have built := build_entries (c := c) values (fun e member rest _ => ih e member inner rest) rest
        fits
      rw [valueTokens, List.cons_append, List.append_assoc, build_mapping block]
      exact congrArg _ built

/-- A mapping is read back from its text, with any number of line breaks after it. -/
theorem read_text {entries : List (List Char × Value)} (regular : Regular (.mapping entries))
    {tail : List Char} (breaks : ∀ x ∈ tail, x = '\n') :
    read? (text (.mapping entries) ++ tail) = some ⟨node (.mapping entries), []⟩ := by
  have enough : (valueTokens (.mapping entries)).length ≤
      4 * (valueTokens (.mapping entries)).length + 8 := by omega
  have block : Place.block ≠ .flow := nofun
  have built := regular.build block ⟨Node.commonHandles, [], 0, []⟩ [] enough
  rw [List.append_nil] at built
  rw [read?, tokens_text regular breaks]
  change Node.ofTokens? (valueTokens (.mapping entries)) = _
  rw [valueTokens] at built ⊢
  have undirected : Node.readDirectives? 0 []
      (.blockMapping :: (entriesTokens entries ++ [.blockEnd])) =
        some (false, [], .blockMapping :: (entriesTokens entries ++ [.blockEnd])) := rfl
  rw [Node.ofTokens?, undirected]
  simp only [Option.bind_eq_bind, Option.bind_some, List.nil_append, Bool.false_eq_true, if_false,
    built]
  rfl

end ProofOfWork.Document.Yaml
