import ProofOfWork.Program.Run
import ProofOfWork.Proofs.Document.Yaml.Settings
import ProofOfWork.Proofs.Program.Run
set_option autoImplicit false

namespace ProofOfWork
open Document

/-- What is printed: every line ends with a line break. -/
def Ending.printed (e : Ending) : List Char := e.lines.flatMap fun line => line.toList ++ ['\n']

theorem Ending.printed_textLines (v : Value) :
    Ending.printed { lines := Yaml.textLines v ++ [""] } = Yaml.text v ++ ['\n'] := by
  rw [printed, List.flatMap_append, Yaml.textLines, List.flatMap_map, Yaml.text]
  simp only [String.toList_ofList]
  rfl

/-- Nothing on the command line replaces a setting. -/
def CommandLine.Silent (line : CommandLine) : Prop :=
  line.algorithm = none ∧ line.target = none ∧ line.threads = none ∧ line.mode = none ∧
    line.logLevel = none ∧ line.logFormat = none ∧
    match line.command with
    | some (.mine _ maxAttempts _) => maxAttempts = none
    | some (.run _ _ targetPeriod noRetarget _) => targetPeriod = none ∧ noRetarget = false
    | _ => True

namespace Config

theorem override_silent {line : CommandLine} (silent : line.Silent) (c : Config) :
    c.override line = c := by
  obtain ⟨algorithm, target, threads, mode, level, format, command⟩ := silent
  have options : c.withOptions line.toCommonOptions = c := by
    rw [withOptions, algorithm, target, threads, mode, level, format]
    rfl
  unfold override
  rw [options]
  match given : line.command with
  | none => rfl
  | some (.mine data limit start) =>
      rw [given] at command
      obtain rfl : limit = none := command
      rfl
  | some (.run rounds payload period noRetarget json) =>
      rw [given] at command
      obtain ⟨rfl, rfl⟩ : period = none ∧ noRetarget = false := command
      simp [withCommand]
  | some (.verify data nonce digest) => rfl
  | some .test => rfl
  | some .miner => rfl

theorem textOf_toUTF8 (text : List Char) : textOf? (String.ofList text).toUTF8 = some text := by
  have read : String.fromUTF8? (String.ofList text).toUTF8 = some (String.ofList text) :=
    dif_pos (String.ofList text).isValidUTF8
  rw [textOf?, read, Option.map_some, String.toList_ofList]

theorem parse_yaml {c : Config} (valid : c.check = .ok ()) {tail : List Char}
    (breaks : ∀ x ∈ tail, x = '\n') : parse (Yaml.text c.toDocument ++ tail) .yaml = .ok c := by
  obtain ⟨proper, finite⟩ := proper_of_check valid
  have read : Yaml.read? (Yaml.text c.toDocument ++ tail) = some ⟨Yaml.node c.toDocument, []⟩ :=
    Yaml.read_text (c.regular proper finite) breaks
  have made := ofDocument_toDocument Yaml.faithful proper finite
  rw [parse, read, Option.bind_some, made]
  rfl

section
variable {m : Type → Type} [Monad m] [LawfulMonad m]

theorem ofFile_eq {read : List Char → m (Option ByteArray)} {path text : List Char}
    {format : ConfigFormat} {c : Config} (known : ConfigFormat.ofPath path = .ok format)
    (holds : read path = pure (some (String.ofList text).toUTF8)) (parsed : parse text format = .ok c) :
    ofFile read path = pure (.ok c) := by
  rw [ofFile, known]
  simp only [holds, pure_bind, Option.bind_some, textOf_toUTF8, parsed]

theorem load_file {read : List Char → m (Option ByteArray)} {line : CommandLine} {path text : List Char}
    {format : ConfigFormat} {c : Config} (named : line.config = some path)
    (known : ConfigFormat.ofPath path = .ok format)
    (holds : read path = pure (some (String.ofList text).toUTF8)) (parsed : parse text format = .ok c) :
    load read line = pure (finish line c) := by
  rw [load, named]
  simp only [ofFile_eq known holds parsed, pure_bind]
  rfl

end
end Config

namespace Program
variable {m : Type → Type} [Monad m] [LawfulMonad m]

/-- What is printed for a valid configuration stands for it. Put into a file, it is the
configuration that any command line naming the file starts from, and the one in effect if nothing
there replaces a setting. -/
theorem printed_reloads {c : Config} (valid : c.check = .ok ()) (w : World m) {line : CommandLine}
    (asked : line.printConfig = true) : ∃ e : Ending, follow w line c = pure e ∧ e.code = 0 ∧
      Config.parse e.printed .yaml = .ok c ∧
      ∀ (read : List Char → m (Option ByteArray)) (again : CommandLine) (path : List Char),
        again.config = some path → ConfigFormat.ofPath path = .ok .yaml →
        read path = pure (some (String.ofList e.printed).toUTF8) →
          Config.load read again = pure (Config.finish again c) ∧
          (again.Silent → Config.load read again = pure (.ok c)) := by
  have parsed : Config.parse
      (Ending.printed { lines := Yaml.textLines c.toDocument ++ [""] }) .yaml = .ok c := by
    rw [Ending.printed_textLines]
    exact Config.parse_yaml valid (by simp)
  refine ⟨{ lines := Yaml.textLines c.toDocument ++ [""] }, ?_, rfl, parsed, ?_⟩
  · simp only [follow, asked]
    rfl
  · intro read again path named known holds
    have loaded := Config.load_file named known holds parsed
    refine ⟨loaded, fun silent => loaded.trans ?_⟩
    rw [Config.finish, Config.override_silent silent, valid]
    rfl

/-- A target of decimal digits only, the greatest number of nonces and a period in three units. -/
def mixedConfig : Config where
  target := .digits (.ofNat (16 ^ 60))
  maxAttempts := 18446744073709551615
  session := { targetPeriod := ⟨3661000000007, by decide⟩, tolerance := 0.1 }

theorem printed_reloads_of_mixed : mixedConfig.check = .ok () ∧ ∃ e : Ending,
    Id.run (follow (.scripted 2 (fun _ => none) (fun _ => none) (fun _ => {}) .zero)
      { printConfig := true } mixedConfig) = e ∧
    Config.parse e.printed .yaml = .ok mixedConfig ∧
    Id.run (Config.load (fun _ => pure (some (String.ofList e.printed).toUTF8))
      { config := some "mine.yaml".toList }) = .ok mixedConfig := by
  have valid : mixedConfig.check = .ok () := rfl
  obtain ⟨e, printed, -, parsed, loads⟩ := printed_reloads (m := Id) valid
    (.scripted 2 (fun _ => none) (fun _ => none) (fun _ => {}) .zero)
    (rfl : ({ printConfig := true } : CommandLine).printConfig = true)
  obtain ⟨-, loaded⟩ := loads (fun _ => pure (some (String.ofList e.printed).toUTF8))
    { config := some "mine.yaml".toList } "mine.yaml".toList rfl (by rfl) rfl
  exact ⟨valid, e, printed, parsed, loaded ⟨rfl, rfl, rfl, rfl, rfl, rfl, trivial⟩⟩

end Program
end ProofOfWork
