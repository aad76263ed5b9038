import ProofOfWork.CommandLine.Level
import ProofOfWork.Proofs.Text.Digits
set_option autoImplicit false

namespace ProofOfWork

namespace Text

theorem splitAt_of_not_mem {mark : Char} {text : List Char} (absent : mark ∉ text) :
    splitAt? mark text = none := by
  induction text with
  | nil => rfl
  | cons c text ih =>
      obtain ⟨differs, later⟩ := not_or.mp (mt List.mem_cons.mpr absent)
      rw [splitAt?, if_neg (Ne.symm differs), ih later]
      rfl

theorem splitAt_append {mark : Char} {before : List Char} (after : List Char)
    (absent : mark ∉ before) : splitAt? mark (before ++ mark :: after) = some (before, after) := by
  induction before with
  | nil => rw [List.nil_append, splitAt?, if_pos rfl]
  | cons c before ih =>
      obtain ⟨differs, later⟩ := not_or.mp (mt List.mem_cons.mpr absent)
      rw [List.cons_append, splitAt?, if_neg (Ne.symm differs), ih later]
      rfl

end Text

/-- A flag with the value that is attached to it, as one argument. -/
def Flag.argument {α : Type} (f : Flag α) : Option (List Char) → List Char
  | none => '-' :: '-' :: f.long.toList
  | some value => '-' :: '-' :: (f.long.toList ++ '=' :: value)

namespace Effect
variable {α : Type} {effect : Effect α} {given after : α} {value : Option (List Char)}

theorem isSome_of_accept (accepted : effect.accept given value = .ok after) :
    value.isSome = effect.takesValue := by
  cases effect <;> cases value <;> first | rfl | cases accepted

end Effect

namespace Taken
variable {α : Type} {t : Taken α} {effect : Effect α} {attached : Option (List Char)} {given : α}

theorem meet_accepted {more : α} (settled : t.settle = .ok given)
    (accepted : effect.accept given attached = .ok more) :
    t.meet effect attached = .ok { given := more } := by
  have takes := Effect.isSome_of_accept accepted
  have needed : (!effect.takesValue && attached.isSome) = false := by
    rw [← takes]
    cases attached <;> rfl
  have come : (effect.takesValue && attached.isNone) = false := by
    rw [← takes]
    cases attached <;> rfl
  simp only [meet, needed, come, settled, Bool.false_eq_true, if_false]
  change (effect.accept given attached).bind _ = _
  rw [accepted]
  rfl

theorem meet_cases {after : Taken α} (met : t.meet effect attached = .ok after) :
    ∃ given, t.settle = .ok given ∧
      (after = { given, pending := some (effect, none) } ∨
        ∃ more, effect.accept given attached = .ok more ∧ after = { given := more }) := by
  rw [meet] at met
  split at met
  · cases met
  · obtain ⟨given, settled, met⟩ := ok_of_bind met
    refine ⟨given, settled, ?_⟩
    split at met
    · exact .inl (Except.ok.inj met).symm
    · obtain ⟨more, accepted, met⟩ := ok_of_bind met
      exact .inr ⟨more, accepted, (Except.ok.inj met).symm⟩

end Taken

namespace Level
variable {α : Type} {l : Level α}

/-- What one argument does that is not the name of a command. -/
def step (l : Level α) (argument : List Char) (t : Taken α) : Except UsageFault (Taken α) :=
  match argument with
  | '-' :: '-' :: text =>
    let (name, value) := match Text.splitAt? '=' text with
      | some (name, value) => (name, some value)
      | none => (text, none)
    match l.long? name with
    | none => .error .unknownArgument
    | some effect => t.meet effect value
  | '-' :: c :: cluster => l.letters (c :: cluster) t
  | value =>
    match t.pending with
    | some (effect, none) => .ok { t with pending := some (effect, some value) }
    | _ => .error (l.stray false value)

theorem read_cons (argument : List Char) (rest : List (List Char)) (t : Taken α) :
    l.read (argument :: rest) t =
      if !t.awaits && l.commands.contains argument then .ok (t, some (argument, rest))
      else if argument = ['-', '-'] then
        match rest with
        | [] => .ok (t, none)
        | next :: _ => .error (l.stray true next)
      else (l.step argument t).bind (l.read rest) := by
  rw [read.eq_def]
  dsimp only
  split
  · rfl
  · split
    · rfl
    · rename_i text short _
      rw [if_neg fun same => short (by simpa using same), step]
      cases parted : Text.splitAt? '=' text with
      | none =>
          cases known : l.long? text with
          | none => simp only [known, Except.bind]
          | some effect =>
              simp only [known]
              rfl
      | some parts =>
          cases known : l.long? parts.1 with
          | none => simp only [known, Except.bind]
          | some effect =>
              simp only [known]
              rfl
    · rename_i c cluster short long _
      have differs : ¬ '-' :: c :: cluster = ['-', '-'] := by simpa using short
      rw [if_neg differs, step]
      · rfl
      · exact long
    · rename_i bare long short
      rw [if_neg bare, step]
      · rcases t.pending with _ | ⟨effect, _ | value⟩ <;> rfl
      · exact long
      · exact short

/-- All the ways in which an argument may be taken. -/
theorem read_cons_cases {argument : List Char} {rest : List (List Char)} {t after : Taken α}
    {branch : Option Branch} (read : l.read (argument :: rest) t = .ok (after, branch)) :
    t.awaits = false ∧ argument ∈ l.commands ∧ after = t ∧ branch = some (argument, rest) ∨
    branch = none ∧ after = t ∨
    (t.awaits = true ∨ argument ∉ l.commands) ∧ argument ≠ ['-', '-'] ∧
      ∃ next, l.step argument t = .ok next ∧ l.read rest next = .ok (after, branch) := by
  rw [read_cons] at read
  split at read
  · rename_i name
    simp only [Bool.and_eq_true, Bool.not_eq_true', List.contains_iff_mem] at name
    obtain ⟨rfl, rfl⟩ := Prod.mk.inj (Except.ok.inj read)
    exact .inl ⟨name.1, name.2, rfl, rfl⟩
  · rename_i other
    split at read
    · split at read
      · obtain ⟨rfl, rfl⟩ := Prod.mk.inj (Except.ok.inj read)
        exact .inr (.inl ⟨rfl, rfl⟩)
      · cases read
    · rename_i bare
      obtain ⟨next, stepped, read⟩ := ok_of_bind read
      refine .inr (.inr ⟨?_, bare, next, stepped, read⟩)
      cases awaits : t.awaits with
      | true => exact .inl rfl
      | false =>
          refine .inr fun member => other ?_
          rw [awaits, List.contains_iff_mem.mpr member]
          rfl

/-- What stands before the name of a command is read alike before the name of any other. -/
theorem read_branch {arguments : List (List Char)} {t after : Taken α} {name : List Char}
    {inner : List (List Char)} (read : l.read arguments t = .ok (after, some (name, inner))) :
    ∃ before, arguments = before ++ name :: inner ∧
      ∀ other ∈ l.commands, ∀ rest,
        l.read (before ++ other :: rest) t = .ok (after, some (other, rest)) := by
  -- on the arguments before the name; what has been taken so far is arbitrary
  induction arguments generalizing t with
  | nil =>
      rw [Level.read] at read
      cases read
  | cons argument arguments ih =>
      rcases read_cons_cases read with
        ⟨awaits, -, rfl, branch⟩ | ⟨branch, -⟩ | ⟨apart, bare, next, stepped, later⟩
      · obtain ⟨rfl, rfl⟩ := Prod.mk.inj (Option.some.inj branch)
        refine ⟨[], rfl, ?_⟩
        intro other member rest
        rw [List.nil_append, read_cons, awaits, List.contains_iff_mem.mpr member]
        rfl
      · cases branch
      · obtain ⟨before, rfl, alike⟩ := ih later
        refine ⟨argument :: before, rfl, ?_⟩
        intro other member rest
        have no_name : (!t.awaits && l.commands.contains argument) = false := by
          rcases apart with awaits | absent
          · rw [awaits]
            rfl
          · rw [Bool.eq_false_iff.mpr fun name => absent (List.contains_iff_mem.mp name),
              Bool.and_false]
        rw [List.cons_append, read_cons, no_name, if_neg Bool.false_ne_true, if_neg bare, stepped]
        exact alike other member rest

theorem read_argument {β : Type} {f : Flag β} {effect : Effect α} {value : Option (List Char)}
    {t : Taken α} {given : α} (rest : List (List Char))
    (known : l.long? f.long.toList = some effect) (plain : '=' ∉ f.long.toList)
    (some_name : f.long.toList ≠ []) (alone : l.commands = []) (settled : t.pending = none)
    (accepted : effect.accept t.given value = .ok given) :
    l.read (f.argument value :: rest) t = l.read rest { given } := by
  have no_name : (!t.awaits && l.commands.contains (f.argument value)) = false := by
    rw [alone, List.contains_nil, Bool.and_false]
  have bare : f.argument value ≠ ['-', '-'] := by
    cases value with
    | none => simpa [Flag.argument] using some_name
    | some value => simp [Flag.argument]
  have ready : t.settle = .ok t.given := by
    rw [Taken.settle, settled]
  have met : t.meet effect value = .ok { given } := Taken.meet_accepted ready accepted
  have stepped : l.step (f.argument value) t = .ok { given } := by
    cases value with
    | none =>
        simp only [Flag.argument, step, Text.splitAt_of_not_mem plain, known]
        exact met
    | some value =>
        simp only [Flag.argument, step, Text.splitAt_append value plain, known]
        exact met
  rw [read_cons, no_name, if_neg Bool.false_ne_true, if_neg bare, stepped]
  rfl

section Invariant
variable (l : Level α) (P : α → Prop)

/-- What all accepted flags leave in force. -/
def Keeps : Prop :=
  ∀ f ∈ l.flags, ∀ given value after, P given → f.effect.accept given value = .ok after → P after

/-- It holds of what has been given, and a pending flag is one of the level. -/
structure Holds (t : Taken α) : Prop where
  given : P t.given
  pending : ∀ effect value, t.pending = some (effect, value) → ∃ f ∈ l.flags, f.effect = effect

variable {l P} (keeps : l.Keeps P)

include keeps

theorem Holds.settle {t : Taken α} {given : α} (holds : l.Holds P t)
    (settled : t.settle = .ok given) : P given := by
  rw [Taken.settle] at settled
  split at settled
  · rw [← Except.ok.inj settled]
    exact holds.given
  · rename_i effect value pending
    obtain ⟨f, member, rfl⟩ := holds.pending effect value pending
    exact keeps f member _ _ _ holds.given settled

theorem Holds.meet {t after : Taken α} (holds : l.Holds P t) {f : Flag α} (member : f ∈ l.flags)
    {value : Option (List Char)} (met : t.meet f.effect value = .ok after) : l.Holds P after := by
  obtain ⟨given, settled, waits | ⟨more, accepted, rfl⟩⟩ := Taken.meet_cases met
  · rw [waits]
    refine ⟨holds.settle keeps settled, ?_⟩
    rintro effect value ⟨⟩
    exact ⟨f, member, rfl⟩
  · exact ⟨keeps f member _ _ _ (holds.settle keeps settled) accepted, nofun⟩

theorem Holds.letters {letters : List Char} {t after : Taken α} (holds : l.Holds P t)
    (read : l.letters letters t = .ok after) : l.Holds P after := by
  induction letters generalizing t with
  | nil =>
      rw [Level.letters] at read
      rw [← Except.ok.inj read]
      exact holds
  | cons c rest ih =>
      rw [Level.letters] at read
      cases known : l.short? c with
      | none =>
          rw [known] at read
          cases read
      | some effect =>
          obtain ⟨f, found, rfl⟩ := Option.map_eq_some_iff.mp known
          have member := List.mem_of_find?_eq_some found
          rw [known] at read
          dsimp only at read
          split at read
          · exact holds.meet keeps member read
          · obtain ⟨next, met, read⟩ := ok_of_bind read
            exact ih (holds.meet keeps member met) read

theorem Holds.step {argument : List Char} {t after : Taken α} (holds : l.Holds P t)
    (stepped : l.step argument t = .ok after) : l.Holds P after := by
  unfold Level.step at stepped
  split at stepped
  · dsimp only at stepped
    split at stepped
    · cases stepped
    · rename_i effect known
      obtain ⟨f, found, rfl⟩ := Option.map_eq_some_iff.mp known
      exact holds.meet keeps (List.mem_of_find?_eq_some found) stepped
  · exact holds.letters keeps stepped
  · split at stepped
    · rename_i effect pending
      rw [← Except.ok.inj stepped]
      refine ⟨holds.given, ?_⟩
      rintro same value ⟨⟩
      exact holds.pending effect none pending
    · cases stepped

/-- What one argument leaves in force, all of them do. -/
theorem Holds.read {arguments : List (List Char)} {t after : Taken α} {branch : Option Branch}
    (holds : l.Holds P t) (read : l.read arguments t = .ok (after, branch)) : l.Holds P after := by
  induction arguments generalizing t with
  | nil =>
      rw [Level.read] at read
      obtain ⟨rfl, -⟩ := Prod.mk.inj (Except.ok.inj read)
      exact holds
  | cons argument rest ih =>
      rcases read_cons_cases read with ⟨-, -, rfl, -⟩ | ⟨-, rfl⟩ | ⟨-, -, next, stepped, later⟩
      · exact holds
      · exact holds
      · exact ih (holds.step keeps stepped) later

end Invariant
end Level
end ProofOfWork
