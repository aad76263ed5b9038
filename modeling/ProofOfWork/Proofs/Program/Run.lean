import ProofOfWork.Program.Run
import ProofOfWork.Proofs.CommandLine.Level
import ProofOfWork.Proofs.Engine.Answer
set_option autoImplicit false

namespace ProofOfWork

/-- A machine whose files and environment are fixed and whose searches go by the script. -/
def World.scripted (cores : Nat) (setting : String → Option (List Char))
    (contents : List Char → Option ByteArray) (script : UInt64 → Circumstances)
    (elapsed : Duration) : World Id where
  cores
  setting
  contents
  drive search plan := (Host.scripted (script search)).drive plan
  timed act := (act, elapsed)
  tell _ _ := ()

namespace Config
variable {c : Config}

theorem resolve_of_check (valid : c.check = .ok ()) :
    ∃ t, c.target.resolve = .ok t ∧ c.engine.check = .ok () := by
  rw [check] at valid
  obtain ⟨t, resolved, valid⟩ := ok_of_bind valid
  split at valid
  · cases valid
  · obtain ⟨⟨⟩, engine, -⟩ := ok_of_bind valid
    exact ⟨t, resolved, engine⟩

def engineOn (c : Config) (cores : Nat) (t : Target) : Engine where
  hasher := .of c.algorithm
  target := t
  config := c.engine
  workers := c.engine.workerCount cores

theorem makeEngine_of_check {t : Target} (valid : c.check = .ok ())
    (resolved : c.target.resolve = .ok t) (cores : Nat) :
    c.makeEngine cores = .ok (c.engineOn cores t) := by
  obtain ⟨_, _, engine⟩ := resolve_of_check valid
  rw [makeEngine, resolved]
  change Engine.make (Hasher.of c.algorithm) t c.engine cores = _
  rw [Engine.make, engine]
  rfl

/-- What is hashed and against what target is decided by the common options alone. -/
theorem override_hashing (c : Config) (line : CommandLine) :
    (c.override line).algorithm = (c.withOptions line.toCommonOptions).algorithm ∧
      (c.override line).target = (c.withOptions line.toCommonOptions).target := by
  unfold override
  dsimp only
  split
  · rename_i command _
    cases command <;> exact ⟨rfl, rfl⟩
  · exact ⟨rfl, rfl⟩

/-- What the command line is put over. -/
def basis (contents : List Char → Option ByteArray) : Option (List Char) → Except Error Config
  | some path => Id.run (ofFile contents path)
  | none => .ok {}

theorem load_eq_bind (contents : List Char → Option ByteArray) (line : CommandLine) :
    Id.run (load contents line) = (basis contents line.config).bind (finish line) := by
  unfold load basis
  cases line.config <;> rfl

theorem finish_eq_ok {line : CommandLine} {base : Config} :
    finish line base = .ok c ↔ c = base.override line ∧ c.check = .ok () := by
  constructor
  · intro done
    obtain ⟨⟨⟩, valid, same⟩ := ok_of_bind done
    obtain rfl := Except.ok.inj same
    exact ⟨rfl, valid⟩
  · rintro ⟨rfl, valid⟩
    rw [finish, valid]
    rfl

theorem load_eq_ok {contents : List Char → Option ByteArray} {line : CommandLine} :
    Id.run (load contents line) = .ok c ↔
      ∃ base, basis contents line.config = .ok base ∧ c = base.override line ∧
        c.check = .ok () := by
  rw [load_eq_bind]
  cases basis contents line.config with
  | error fault =>
      refine iff_of_false nofun ?_
      rintro ⟨base, none, -⟩
      cases none
  | ok base =>
      refine finish_eq_ok.trans ⟨fun valid => ⟨base, rfl, valid⟩, ?_⟩
      rintro ⟨base, ⟨⟩, valid⟩
      exact valid

end Config

namespace Program
variable {cores : Nat} {setting : String → Option (List Char)}
  {contents : List Char → Option ByteArray} {script : UInt64 → Circumstances} {elapsed : Duration}
  {line : CommandLine} {config : Config}

theorem run_loaded {arguments : List (List Char)}
    (read : CommandLine.read setting arguments = .ok line)
    (loaded : Id.run (Config.load contents line) = .ok config) :
    Id.run (run (.scripted cores setting contents script elapsed) arguments) =
      Id.run (follow (.scripted cores setting contents script elapsed) line config) := by
  have same : (World.scripted cores setting contents script elapsed).setting = setting := rfl
  have files : (World.scripted cores setting contents script elapsed).contents = contents := rfl
  simp only [run, same, read, Id.run_bind, files, loaded]

theorem run_unloaded {arguments : List (List Char)} {fault : Error}
    (read : CommandLine.read setting arguments = .ok line)
    (unloaded : Id.run (Config.load contents line) = .error fault) :
    Id.run (run (.scripted cores setting contents script elapsed) arguments) =
      .failed "Failed to load configuration" := by
  have same : (World.scripted cores setting contents script elapsed).setting = setting := rfl
  have files : (World.scripted cores setting contents script elapsed).contents = contents := rfl
  simp only [run, same, read, Id.run_bind, files, unloaded]
  rfl

theorem follow_printed (printed : line.printConfig = true) :
    Id.run (follow (.scripted cores setting contents script elapsed) line config) =
      { lines := Document.Yaml.textLines config.toDocument ++ [""] } := by
  simp only [follow, printed]
  rfl

theorem follow_mine {data : List Char} {limit : Option UInt64} {start : UInt64} {e : Engine}
    (unprinted : line.printConfig = false) (command : line.command = some (.mine data limit start))
    (made : config.makeEngine cores = .ok e) :
    Id.run (follow (.scripted cores setting contents script elapsed) line config) =
      match Payload.read data with
      | .error fault => .ofError fault
      | .ok data =>
        match (e.search
          { data, start := ⟨start⟩, maxAttempts := config.maxAttempts, token := .idle }
          (script 0)).answer with
        | .error fault => .ofError fault
        | .ok o => { lines := o.lines } := by
  have same : (World.scripted cores setting contents script elapsed).cores = cores := rfl
  simp only [follow, unprinted, command, same, made]
  cases read : Payload.read data with
  | error fault =>
      simp only [perform, mine, read]
      rfl
  | ok data =>
      simp only [perform, mine, read]
      rfl

theorem follow_verify {data digest : List Char} {n : UInt64} {e : Engine}
    (unprinted : line.printConfig = false)
    (command : line.command = some (.verify data n digest))
    (made : config.makeEngine cores = .ok e) :
    Id.run (follow (.scripted cores setting contents script elapsed) line config) =
      match Payload.read data with
      | .error fault => .ofError fault
      | .ok data =>
        match Digest.ofHex digest with
        | .error fault => .ofError fault
        | .ok claimed =>
          let v := e.verdict data ⟨n⟩ claimed
          { code := if v.isValid then 0 else 1, lines := [v.text] } := by
  have same : (World.scripted cores setting contents script elapsed).cores = cores := rfl
  simp only [follow, unprinted, command, same, made]
  cases read : Payload.read data with
  | error fault =>
      simp only [perform, verify, read]
      rfl
  | ok data =>
      cases claimed : Digest.ofHex digest with
      | error fault =>
          simp only [perform, verify, read, claimed]
          rfl
      | ok claimed =>
          simp only [perform, verify, read, claimed]
          rfl

end Program
end ProofOfWork
