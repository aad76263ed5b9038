import ProofOfWork.CommandLine.Read
import ProofOfWork.Proofs.CommandLine.Level
import ProofOfWork.Proofs.Text.Digits
set_option autoImplicit false

namespace ProofOfWork

namespace Effect
variable {α β : Type}

theorem accept_within (part : β → α) (put : α → β → β) (effect : Effect α) (given : β)
    (value : Option (List Char)) :
    (effect.within part put).accept given value =
      (effect.accept (part given) value).map (put · given) := by
  cases effect with
  | value isGiven take =>
      cases value with
      | none => rfl
      | some text =>
          simp only [within, accept, Function.comp]
          split <;> rfl
  | switch isGiven take =>
      cases value with
      | some text => rfl
      | none =>
          simp only [within, accept, Function.comp]
          split <;> rfl
  | ask fault => cases value <;> rfl

end Effect

namespace Flag
variable {α β : Type}

theorem fallBack_within {part : β → α} {put : α → β → β} {given : β}
    (same : put (part given) given = given) (f : Flag α)
    (setting : String → Option (List Char)) :
    (f.within part put).fallBack setting given =
      (f.fallBack setting (part given)).map (put · given) := by
  have kept : (Except.ok (part given) : Except UsageFault α).map (put · given) = .ok given :=
    congrArg Except.ok same
  cases f with
  | mk short long name effect =>
    simp only [fallBack, within]
    cases name.bind setting with
    | none => cases effect <;> exact kept.symm
    | some text =>
        cases effect with
        | value isGiven take =>
            simp only [Effect.within, Function.comp]
            split
            · exact kept.symm
            · rfl
        | switch isGiven take => exact kept.symm
        | ask fault => exact kept.symm

end Flag

namespace CommandLine
variable {τ : Type} {own : List (Flag τ)} {setting : String → Option (List Char)}

theorem common_long : ∀ f ∈ CommonOptions.flags, '=' ∉ f.long.toList ∧ f.long.toList ≠ [] := by
  decide

theorem find_common : ∀ f ∈ CommonOptions.flags,
    CommonOptions.flags.find? (fun g => g.long.toList = f.long.toList) = some f := by
  simp only [CommonOptions.flags, List.forall_mem_cons]
  exact ⟨rfl, rfl, rfl, rfl, rfl, rfl, rfl, rfl, nofun⟩

/-- The flags of a command do not hide the common ones. -/
def Apart (own : List (Flag τ)) : Prop :=
  ∀ f ∈ own, ∀ g ∈ CommonOptions.flags, f.long.toList ≠ g.long.toList

theorem inner_long (apart : Apart own) {f : Flag CommonOptions} (member : f ∈ CommonOptions.flags) :
    (inner own).long? f.long.toList =
      some (f.effect.within Prod.fst fun o given => (o, given.2)) := by
  have hidden : (own.map (Flag.within Prod.snd fun o (given : CommonOptions × τ) =>
      (given.1, o))).find? (fun g => g.long.toList = f.long.toList) = none := by
    refine List.find?_eq_none.mpr ?_
    intro g listed
    obtain ⟨g, among, rfl⟩ := List.mem_map.mp listed
    have differs : (g.within Prod.snd fun o (given : CommonOptions × τ) =>
        (given.1, o)).long.toList ≠ f.long.toList := apart g among f member
    simpa using differs
  have found := find_common f member
  have shown : (CommonOptions.flags.map (Flag.within Prod.fst fun o (given : CommonOptions × τ) =>
      (o, given.2))).find? (fun g => g.long.toList = f.long.toList) =
        some (f.within Prod.fst fun o given => (o, given.2)) := by
    rw [List.find?_map]
    exact congrArg (Option.map _) found
  rw [Level.long?, inner, List.find?_append, List.find?_append, hidden, shown]
  rfl

/-- Arguments of common flags with their values attached, and the options that they give. -/
inductive Spelled : List (List Char) → CommonOptions → Prop
  | nil : Spelled [] {}
  | snoc {arguments : List (List Char)} {o more : CommonOptions} {f : Flag CommonOptions}
      {value : Option (List Char)} (spelled : Spelled arguments o)
      (member : f ∈ CommonOptions.flags) (accepted : f.effect.accept o value = .ok more) :
      Spelled (arguments ++ [f.argument value]) more

theorem Spelled.read {arguments : List (List Char)} {o : CommonOptions}
    (spelled : Spelled arguments o) (apart : Apart own) (x : τ) (rest : List (List Char)) :
    (inner own).read (arguments ++ rest) { given := ({}, x) } =
      (inner own).read rest { given := (o, x) } := by
  induction spelled generalizing rest with
  | nil => rfl
  | @snoc arguments o more f value spelled member accepted ih =>
      obtain ⟨plain, some_name⟩ := common_long f member
      have within := Effect.accept_within Prod.fst (fun o (given : CommonOptions × τ) =>
        (o, given.2)) f.effect (o, x) value
      rw [accepted] at within
      rw [List.append_assoc, ih]
      exact Level.read_argument rest (inner_long apart member) plain some_name rfl rfl within

theorem inner_keeps (own : List (Flag τ)) :
    (inner own).Keeps fun given => ∃ arguments, Spelled arguments given.1 := by
  rintro f member given value after ⟨arguments, spelled⟩ accepted
  rcases List.mem_append.mp member with listed | help
  · rcases List.mem_append.mp listed with mine | common
    · obtain ⟨g, -, rfl⟩ := List.mem_map.mp mine
      rw [Flag.within, Effect.accept_within] at accepted
      obtain ⟨more, -, rfl⟩ := ok_of_map accepted
      exact ⟨arguments, spelled⟩
    · obtain ⟨g, among, rfl⟩ := List.mem_map.mp common
      rw [Flag.within, Effect.accept_within] at accepted
      obtain ⟨more, taken, rfl⟩ := ok_of_map accepted
      exact ⟨_, spelled.snoc among taken⟩
  · rw [List.mem_singleton.mp help] at accepted
    cases value <;> cases accepted

def common : Level CommonOptions where
  flags := CommonOptions.flags
  commands := []

theorem fallBack_own (setting : String → Option (List Char))
    (unset : ∀ f ∈ own, f.setting = none) (o : CommonOptions) (x : τ) :
    (own.map (Flag.within Prod.snd fun o (given : CommonOptions × τ) => (given.1, o))).foldlM
      (fun given f => f.fallBack setting given) (o, x) = .ok (o, x) := by
  induction own with
  | nil => rfl
  | cons f own ih =>
      have kept : f.fallBack setting x = .ok x := by
        rw [Flag.fallBack, unset f List.mem_cons_self]
        cases f.effect <;> rfl
      rw [List.map_cons, List.foldlM_cons, Flag.fallBack_within rfl, kept]
      exact ih fun g member => unset g (List.mem_cons_of_mem f member)

theorem fallBack_shared (setting : String → Option (List Char))
    (flags : List (Flag CommonOptions)) (o : CommonOptions) (x : τ) :
    (flags.map (Flag.within Prod.fst fun o (given : CommonOptions × τ) => (o, given.2))).foldlM
      (fun given f => f.fallBack setting given) (o, x) =
        (flags.foldlM (fun o (f : Flag CommonOptions) => f.fallBack setting o) o).map (·, x) := by
  induction flags generalizing o with
  | nil => rfl
  | cons f flags ih =>
      rw [List.map_cons, List.foldlM_cons, List.foldlM_cons, Flag.fallBack_within rfl]
      cases f.fallBack setting o with
      | error fault => rfl
      | ok more => exact ih more

theorem inner_fallBack (unset : ∀ f ∈ own, f.setting = none) (o : CommonOptions) (x : τ) :
    (inner own).fallBack setting (o, x) = (common.fallBack setting o).map (·, x) := by
  have shared := fallBack_shared setting CommonOptions.flags o x
  rw [Level.fallBack, inner, List.foldlM_append, List.foldlM_append, fallBack_own setting unset]
  change (List.foldlM (fun given (f : Flag (CommonOptions × τ)) => f.fallBack setting given) (o, x)
    (CommonOptions.flags.map _)).bind _ = _
  rw [shared]
  change ((common.fallBack setting o).map (·, x)).bind _ = _
  cases common.fallBack setting o <;> rfl

theorem readInner_cases {empty : τ} {make : τ → Except UsageFault Command}
    {arguments : List (List Char)} {o : CommonOptions} {command : Command}
    (read : readInner own empty make setting arguments = .ok (o, command)) :
    ∃ taken branch x settled,
      (inner own).read arguments { given := ({}, empty) } = .ok (taken, branch) ∧
      taken.settle = .ok (o, x) ∧ (inner own).fallBack setting (o, x) = .ok settled ∧
      make x = .ok command := by
  simp only [readInner] at read
  obtain ⟨⟨taken, branch⟩, all, read⟩ := ok_of_bind read
  obtain ⟨⟨given, x⟩, settled, read⟩ := ok_of_bind read
  obtain ⟨environment, fallen, read⟩ := ok_of_bind read
  obtain ⟨made, command, read⟩ := ok_of_bind read
  obtain ⟨rfl, rfl⟩ := Prod.mk.inj (Except.ok.inj read)
  exact ⟨taken, branch, x, environment, all, settled, fallen, command⟩

theorem readInner_of_settled {empty : τ} {make : τ → Except UsageFault Command}
    {arguments : List (List Char)} {taken : Taken (CommonOptions × τ)} {branch : Option Branch}
    {o : CommonOptions} {x : τ} {settled : CommonOptions × τ} {command : Command}
    (read : (inner own).read arguments { given := ({}, empty) } = .ok (taken, branch))
    (given : taken.settle = .ok (o, x))
    (environment : (inner own).fallBack setting (o, x) = .ok settled)
    (made : make x = .ok command) :
    readInner own empty make setting arguments = .ok (o, command) := by
  simp only [readInner, read]
  change (taken.settle).bind _ = _
  rw [given]
  change ((inner own).fallBack setting (o, x)).bind _ = _
  rw [environment]
  change (make x).bind _ = _
  rw [made]
  rfl

theorem readInner_spelled (unset : ∀ f ∈ own, f.setting = none) {empty : τ}
    {make : τ → Except UsageFault Command} {arguments : List (List Char)} {o : CommonOptions}
    {command : Command} (read : readInner own empty make setting arguments = .ok (o, command)) :
    (∃ options, Spelled options o) ∧ ∃ settled, common.fallBack setting o = .ok settled := by
  obtain ⟨taken, branch, x, environment, all, given, fallen, -⟩ := readInner_cases read
  constructor
  · have begun : (inner own).Holds (fun given => ∃ arguments, Spelled arguments given.1)
        { given := ({}, empty) } := ⟨⟨[], .nil⟩, nofun⟩
    exact (begun.read (inner_keeps own) all).settle (inner_keeps own) given
  · rw [inner_fallBack unset] at fallen
    obtain ⟨alone, read_alone, -⟩ := ok_of_map fallen
    exact ⟨alone, read_alone⟩

theorem readCommand_spelled {arguments : List (List Char)} {name : CommandName}
    {o : CommonOptions} {command : Command}
    (read : readCommand setting arguments name = .ok (o, command)) :
    (∃ options, Spelled options o) ∧ ∃ settled, common.fallBack setting o = .ok settled := by
  have no_flags : ∀ f ∈ ([] : List (Flag Unit)), f.setting = none := nofun
  cases name with
  | mine => exact readInner_spelled (by decide) read
  | verify => exact readInner_spelled (by decide) read
  | run => exact readInner_spelled (by decide) read
  | test =>
      rw [readCommand] at read
      exact readInner_spelled no_flags read
  | miner =>
      rw [readCommand] at read
      exact readInner_spelled no_flags read

theorem verify_apart : Apart VerifyOptions.flags := by
  unfold Apart
  decide

/-- The arguments of a claim, each value attached to its flag. -/
def claimArguments (data nonce digest : List Char) : List (List Char) :=
  ["--data=".toList ++ data, "--nonce=".toList ++ nonce, "--digest=".toList ++ digest]

section Claim
variable (o : CommonOptions) (data digest : List Char) {nonce : List Char} {n : UInt64}
  (number : Text.readWord64 nonce = .ok n)

include number

theorem read_claim :
    (inner VerifyOptions.flags).read (claimArguments data nonce digest) { given := (o, {}) } =
      .ok ({ given := (o, ⟨data, n, digest⟩) }, none) := by
  have lifted (f : Flag VerifyOptions) (given : VerifyOptions) (value : Option (List Char)) :=
    Effect.accept_within Prod.snd (fun x (given : CommonOptions × VerifyOptions) => (given.1, x))
      f.effect (o, given) value
  have word : Flag.word nonce = .ok n := by
    rw [Flag.word, number]
    rfl
  have number_taken : VerifyOptions.flags[1].effect.accept { data := some data } (some nonce) =
      .ok { data := some data, nonce := some n } := by
    change (Flag.word nonce).map _ = _
    rw [word]
    rfl
  have nonce_lifted := lifted VerifyOptions.flags[1] { data := some data } (some nonce)
  rw [number_taken] at nonce_lifted
  have first := Level.read_argument
    (["--nonce=".toList ++ nonce, "--digest=".toList ++ digest]) (t := { given := (o, {}) })
    (l := inner VerifyOptions.flags) (f := VerifyOptions.flags[0])
    rfl (by decide) (by decide) rfl rfl (lifted VerifyOptions.flags[0] {} (some data))
  have second := Level.read_argument (["--digest=".toList ++ digest])
    (t := { given := (o, { data := some data }) }) (l := inner VerifyOptions.flags)
    (f := VerifyOptions.flags[1]) rfl (by decide) (by decide) rfl rfl nonce_lifted
  have third := Level.read_argument [] (l := inner VerifyOptions.flags)
    (t := { given := (o, { data := some data, nonce := some n }) }) (f := VerifyOptions.flags[2])
    rfl (by decide) (by decide) rfl rfl
    (lifted VerifyOptions.flags[2] { data := some data, nonce := some n } (some digest))
  exact first.trans (second.trans third)

theorem readCommand_claim {options : List (List Char)} {settled : CommonOptions}
    (spelled : Spelled options o) (environment : common.fallBack setting o = .ok settled) :
    readCommand setting (options ++ claimArguments data nonce digest) .verify =
      .ok (o, .verify data n digest) := by
  have read := spelled.read verify_apart {} (claimArguments data nonce digest)
  rw [read_claim o data digest number] at read
  have fallen : (inner VerifyOptions.flags).fallBack setting (o, ⟨data, n, digest⟩) =
      .ok (settled, ⟨data, n, digest⟩) := by
    rw [inner_fallBack (by decide), environment]
    rfl
  exact readInner_of_settled read rfl fallen rfl

end Claim

/-- The steps in which a command line is read. -/
theorem read_cases {arguments : List (List Char)} {line : CommandLine}
    (read : CommandLine.read setting arguments = .ok line) :
    ∃ taken branch options given settled,
      outer.read arguments { given := {} } = .ok (taken, branch) ∧
      readBranch setting branch = .ok (options, line.command) ∧
      taken.settle = .ok given ∧ outer.fallBack setting given = .ok settled ∧
      line.toCommonOptions = options.over settled := by
  rw [CommandLine.read] at read
  obtain ⟨⟨taken, branch⟩, all, read⟩ := ok_of_bind read
  obtain ⟨⟨options, command⟩, followed, read⟩ := ok_of_bind read
  obtain ⟨given, settle, read⟩ := ok_of_bind read
  obtain ⟨settled, environment, read⟩ := ok_of_bind read
  obtain rfl := Except.ok.inj read
  exact ⟨taken, branch, options, given, settled, all, followed, settle, environment, rfl⟩

theorem read_of_settled {arguments : List (List Char)} {taken : Taken CommonOptions}
    {branch : Option Branch} {o given settled : CommonOptions} {command : Option Command}
    (all : outer.read arguments { given := {} } = .ok (taken, branch))
    (followed : readBranch setting branch = .ok (o, command)) (settle : taken.settle = .ok given)
    (environment : outer.fallBack setting given = .ok settled) :
    CommandLine.read setting arguments =
      .ok { toCommonOptions := o.over settled, command } := by
  rw [CommandLine.read, all]
  change (readBranch setting branch).bind _ = _
  rw [followed]
  change taken.settle.bind _ = _
  rw [settle]
  change (outer.fallBack setting given).bind _ = _
  rw [environment]
  rfl

theorem readBranch_cases {branch : Option Branch} {o : CommonOptions} {command : Command}
    (read : readBranch setting branch = .ok (o, some command)) :
    ∃ name inner known, branch = some (name, inner) ∧
      readCommand setting inner known = .ok (o, command) := by
  cases branch with
  | none => cases read
  | some branch =>
      obtain ⟨name, inner⟩ := branch
      rw [readBranch] at read
      cases named : Text.named? CommandName.all CommandName.text name with
      | none =>
          rw [named] at read
          cases read
      | some known =>
          simp only [named] at read
          obtain ⟨parts, own, same⟩ := ok_of_map read
          cases same
          exact ⟨name, inner, known, rfl, own⟩

/-- A command line that gives a command can be made into one that gives a claim to verify: what
stands before the name of the command stays, and the common options after it are spelled anew. -/
theorem read_claimed {arguments : List (List Char)} {line : CommandLine} {command : Command}
    (read : CommandLine.read setting arguments = .ok line)
    (commanded : line.command = some command) (data digest : List Char) {nonce : List Char}
    {n : UInt64} (number : Text.readWord64 nonce = .ok n) :
    ∃ before options, (∃ name inner, arguments = before ++ name :: inner) ∧
      CommandLine.read setting
          (before ++ "verify".toList :: (options ++ claimArguments data nonce digest)) =
        .ok { line with command := some (.verify data n digest) } := by
  obtain ⟨taken, branch, o, given, settled, all, followed, settle, environment, common⟩ :=
    read_cases read
  rw [commanded] at followed
  obtain ⟨name, inner, known, rfl, own⟩ := readBranch_cases followed
  obtain ⟨before, same, alike⟩ := Level.read_branch all
  obtain ⟨⟨options, spelled⟩, fallen, readable⟩ := readCommand_spelled own
  have claim := readCommand_claim o data digest number spelled readable
  have outer_read := alike "verify".toList (by decide)
    (options ++ claimArguments data nonce digest)
  have verified : readBranch setting
      (some ("verify".toList, options ++ claimArguments data nonce digest)) =
        .ok (o, some (.verify data n digest)) := by
    change (readCommand setting (options ++ claimArguments data nonce digest) .verify).map _ = _
    rw [claim]
    rfl
  refine ⟨before, options, ⟨name, inner, same⟩, ?_⟩
  rw [common]
  exact read_of_settled outer_read verified settle environment

end CommandLine
end ProofOfWork
