import ProofOfWork.Proofs.Config.Json
import ProofOfWork.Proofs.Program.Printed
set_option autoImplicit false

/-!
The command line over a configuration, setting by setting. Each setting comes out as the command
line gives it or, if nothing is given for it, as it was; no setting depends on another. Since the
check comes last, what is replaced does no harm and what is not replaced is checked.
-/
namespace ProofOfWork

/-- The settings of a configuration, one by one. -/
inductive Setting where
  | algorithm
  | target
  | maxAttempts
  | threads
  | batch
  | mode
  | roundAttempts
  | retarget
  | targetPeriod
  | tolerance
  | logLevel
  | logFormat
  deriving DecidableEq

namespace Setting

def Value : Setting → Type
  | .algorithm => HashAlgorithm
  | .target => TargetSpec
  | .maxAttempts | .threads | .batch | .roundAttempts => UInt64
  | .mode => SearchMode
  | .retarget => Bool
  | .targetPeriod => Duration
  | .tolerance => Float
  | .logLevel => LogLevel
  | .logFormat => LogFormat

def Allowed : (s : Setting) → s.Value → Prop
  | .target, (spec : TargetSpec) => ∃ t, spec.resolve = .ok t
  | .maxAttempts, (n : UInt64) => n ≠ 0
  | .batch, (n : UInt64) => n ≠ 0
  | .roundAttempts, (n : UInt64) => n ≠ 0
  | .targetPeriod, (period : Duration) => period.nanos ≠ 0
  | .tolerance, (x : Float) => x.isFinite = true ∧ x ≥ 0
  | _, _ => True

def ofSession : Setting → Bool
  | .roundAttempts | .retarget | .targetPeriod | .tolerance => true
  | _ => false

end Setting

def Config.get (c : Config) : (s : Setting) → s.Value
  | .algorithm => c.algorithm
  | .target => c.target
  | .maxAttempts => c.maxAttempts
  | .threads => c.engine.threads
  | .batch => c.engine.batch
  | .mode => c.engine.mode
  | .roundAttempts => c.session.maxAttempts
  | .retarget => c.session.retarget
  | .targetPeriod => c.session.targetPeriod
  | .tolerance => c.session.tolerance
  | .logLevel => c.logging.level
  | .logFormat => c.logging.format

namespace Command

/-- The bound that is given for the nonces of a search. -/
def maxAttempts? : Command → Option UInt64
  | .mine _ maxAttempts _ => maxAttempts
  | _ => none

/-- The period that is given for the rounds of a session. -/
def targetPeriod? : Command → Option Duration
  | .run _ _ targetPeriod _ _ => targetPeriod
  | _ => none

/-- The rounds of a session can only be told not to retarget. -/
def retarget? : Command → Option Bool
  | .run _ _ _ true _ => some false
  | _ => none

end Command

/-- What the command line gives for a setting. Some settings cannot be given. -/
def CommandLine.given (line : CommandLine) : (s : Setting) → Option s.Value
  | .algorithm => line.algorithm
  | .target => line.target
  | .maxAttempts => line.command.bind Command.maxAttempts?
  | .threads => line.threads
  | .mode => line.mode
  | .retarget => line.command.bind Command.retarget?
  | .targetPeriod => line.command.bind Command.targetPeriod?
  | .logLevel => line.logLevel
  | .logFormat => line.logFormat
  | .batch | .roundAttempts | .tolerance => none

namespace CommandLine

theorem given_maxAttempts (line : CommandLine) (n : UInt64) :
    line.given .maxAttempts = some n ↔
      ∃ data start, line.command = some (.mine data (some n) start) := by
  obtain ⟨options, command⟩ := line
  constructor
  · intro given
    cases command with
    | none => cases given
    | some command =>
        cases command with
        | mine data limit start =>
            obtain rfl : limit = some n := given
            exact ⟨data, start, rfl⟩
        | _ => cases given
  · rintro ⟨data, start, rfl⟩
    rfl

theorem run_of_given (line : CommandLine) (s : Setting) (session : s.ofSession = true)
    (given : line.given s ≠ none) :
    ∃ rounds payload period noRetarget json,
      line.command = some (.run rounds payload period noRetarget json) ∧
        (s = .targetPeriod ∧ period ≠ none ∨ s = .retarget ∧ noRetarget = true) := by
  obtain ⟨options, command⟩ := line
  cases s with
  | retarget =>
      cases command with
      | none => exact absurd rfl given
      | some command =>
          cases command with
          | run rounds payload period noRetarget json =>
              cases noRetarget with
              | true => exact ⟨rounds, payload, period, true, json, rfl, .inr ⟨rfl, rfl⟩⟩
              | false => exact absurd rfl given
          | _ => exact absurd rfl given
  | targetPeriod =>
      cases command with
      | none => exact absurd rfl given
      | some command =>
          cases command with
          | run rounds payload period noRetarget json =>
              exact ⟨rounds, payload, period, noRetarget, json, rfl, .inl ⟨rfl, given⟩⟩
          | _ => exact absurd rfl given
  | roundAttempts | tolerance => exact absurd rfl given
  | _ => cases session

end CommandLine

namespace Config
variable {c d : Config} {line : CommandLine}

theorem ext_get (same : ∀ s, c.get s = d.get s) : c = d := by
  obtain ⟨algorithm, target, attempts, ⟨threads, batch, mode⟩, ⟨rounds, retarget, period, tolerance⟩,
    ⟨level, format⟩⟩ := c
  obtain rfl : algorithm = d.algorithm := same .algorithm
  obtain rfl : target = d.target := same .target
  obtain rfl : attempts = d.maxAttempts := same .maxAttempts
  obtain rfl : threads = d.engine.threads := same .threads
  obtain rfl : batch = d.engine.batch := same .batch
  obtain rfl : mode = d.engine.mode := same .mode
  obtain rfl : rounds = d.session.maxAttempts := same .roundAttempts
  obtain rfl : retarget = d.session.retarget := same .retarget
  obtain rfl : period = d.session.targetPeriod := same .targetPeriod
  obtain rfl : tolerance = d.session.tolerance := same .tolerance
  obtain rfl : level = d.logging.level := same .logLevel
  obtain rfl : format = d.logging.format := same .logFormat
  rfl

/-- The options of a command line replace each its own setting. -/
theorem get_override (line : CommandLine) (c : Config) (s : Setting) :
    (c.override line).get s = (line.given s).getD (c.get s) := by
  obtain ⟨options, command⟩ := line
  match command with
  | none => cases s <;> rfl
  | some (.mine data limit start) => cases s <;> rfl
  | some (.verify data nonce digest) => cases s <;> rfl
  | some (.run rounds payload period noRetarget json) =>
      cases s with
      | retarget =>
          change (c.session.retarget && !noRetarget) = _
          cases noRetarget with
          | true => exact Bool.and_false _
          | false => exact Bool.and_true _
      | _ => rfl
  | some .test => cases s <;> rfl
  | some .miner => cases s <;> rfl

/-- Configurations that differ only in what is given do not differ under the command line. -/
theorem override_congr (agree : ∀ s, line.given s = none → c.get s = d.get s) :
    c.override line = d.override line := by
  refine ext_get fun s => ?_
  rw [get_override, get_override]
  cases given : line.given s with
  | none => exact agree s given
  | some v => rfl

theorem check_ok_iff_allowed : c.check = .ok () ↔ ∀ s : Setting, s.Allowed (c.get s) := by
  rw [check_ok_iff, EngineConfig.check_ok_iff, SessionConfig.check_ok_iff]
  constructor
  · rintro ⟨target, attempts, batch, rounds, period, tolerance⟩ s
    cases s with
    | target => exact target
    | maxAttempts => exact attempts
    | batch => exact batch
    | roundAttempts => exact rounds
    | targetPeriod => exact period
    | tolerance => exact tolerance
    | _ => trivial
  · intro allowed
    exact ⟨allowed .target, allowed .maxAttempts, allowed .batch, allowed .roundAttempts,
      allowed .targetPeriod, allowed .tolerance⟩

/-- The settings under a command line are in range if what is given is, and what is not replaced. -/
theorem check_override_ok_iff (line : CommandLine) (c : Config) :
    (c.override line).check = .ok () ↔
      (∀ s v, line.given s = some v → s.Allowed v) ∧
        ∀ s, line.given s = none → s.Allowed (c.get s) := by
  rw [check_ok_iff_allowed]
  constructor
  · intro allowed
    constructor
    · intro s v given
      have value := allowed s
      rw [get_override, given] at value
      exact value
    · intro s silent
      have value := allowed s
      rw [get_override, silent] at value
      exact value
  · rintro ⟨flags, rest⟩ s
    rw [get_override]
    cases given : line.given s with
    | none => exact rest s given
    | some v => exact flags s v given

theorem finish_error {fault : Error} (refused : finish line c = .error fault) :
    fault.isConfiguration = true := by
  rcases error_of_bind refused with bad | ⟨⟨⟩, -, none⟩
  · exact check_error bad
  · cases none

/-- What the command line gives for a setting is all that the setting is afterwards, and nothing
else changes. Only a search can be given a bound of its nonces, and only a session its period or its
target. So what a file says counts exactly where the command line says nothing: there it has to be
in range, and elsewhere it may be anything. -/
theorem override_separates :
    (∀ (line : CommandLine) (c d : Config), (∀ s, line.given s = none → c.get s = d.get s) →
      finish line c = finish line d ∧ c.override line = d.override line) ∧
    (∀ (line : CommandLine) (c : Config) (s : Setting),
      (line.given s = none → (c.override line).get s = c.get s) ∧
      ∀ v, line.given s = some v → (c.override line).get s = v) ∧
    (∀ (line : CommandLine) (n : UInt64), line.given .maxAttempts = some n ↔
      ∃ data start, line.command = some (.mine data (some n) start)) ∧
    (∀ (line : CommandLine) (s : Setting), s.ofSession = true → line.given s ≠ none →
      ∃ rounds payload period noRetarget json,
        line.command = some (.run rounds payload period noRetarget json) ∧
          (s = .targetPeriod ∧ period ≠ none ∨ s = .retarget ∧ noRetarget = true)) ∧
    ∀ (contents : List Char → Option ByteArray) (line : CommandLine) (base : Config),
      basis contents line.config = .ok base →
      ((∃ c, Id.run (load contents line) = .ok c) ↔
        (∀ s v, line.given s = some v → s.Allowed v) ∧
          ∀ s, line.given s = none → s.Allowed (base.get s)) ∧
      ∀ s, line.given s = none → ¬ s.Allowed (base.get s) →
        ∃ fault, Id.run (load contents line) = .error fault ∧ fault.isConfiguration = true := by
  refine ⟨?_, ?_, CommandLine.given_maxAttempts, CommandLine.run_of_given, ?_⟩
  · intro line c d agree
    have same := override_congr agree
    refine ⟨?_, same⟩
    rw [finish, finish, same]
  · intro line c s
    rw [get_override]
    constructor
    · intro silent
      rw [silent]
      rfl
    · intro v given
      rw [given]
      rfl
  · intro contents line base read
    have loads : (∃ c, Id.run (load contents line) = .ok c) ↔
        (base.override line).check = .ok () := by
      rw [load_eq_bind, read]
      constructor
      · rintro ⟨c, done⟩
        obtain ⟨rfl, valid⟩ := finish_eq_ok.mp done
        exact valid
      · intro valid
        exact ⟨_, finish_eq_ok.mpr ⟨rfl, valid⟩⟩
    rw [check_override_ok_iff] at loads
    refine ⟨loads, ?_⟩
    intro s silent outside
    cases done : Id.run (load contents line) with
    | ok c => exact absurd ((loads.mp ⟨c, done⟩).2 s silent) outside
    | error fault =>
        rw [load_eq_bind, read] at done
        exact ⟨fault, rfl, finish_error done⟩

/-- A configuration that leaves no time for a round. -/
def idleConfig : Config where
  session := { targetPeriod := .zero }

/-- A machine whose files all hold it. -/
def idleFiles : List Char → Option ByteArray :=
  fun _ => some (String.ofList (Document.Json.compact idleConfig.toDocument)).toUTF8

def idlePath : List Char := "pow.json".toList

theorem basis_idleFiles : basis idleFiles (some idlePath) = .ok idleConfig := by
  have known : ConfigFormat.ofPath idlePath = .ok .json := rfl
  have tolerance : Document.Json.reread 0.25 = 0.25 :=
    Document.Json.reread_of_scalesExactly (by decide +kernel)
  have parsed := parse_compact (c := idleConfig) trivial rfl
  have reread : idleConfig.rereadWith Document.Json.reread = idleConfig := by
    rw [rereadWith]
    change ({ idleConfig with session := { idleConfig.session with
      tolerance := Document.Json.reread 0.25 } } : Config) = idleConfig
    rw [tolerance]
    rfl
  rw [reread] at parsed
  have holds : idleFiles idlePath = pure (f := Id)
      (some (String.ofList (Document.Json.compact idleConfig.toDocument)).toUTF8) := rfl
  have read : ofFile (m := Id) idleFiles idlePath = pure (.ok idleConfig) :=
    ofFile_eq known holds parsed
  rw [basis, read]
  rfl

/-- A command line that names such a file and gives a period of its own. -/
def hurried : CommandLine where
  config := some idlePath
  command := some (.run 3 [] (some (.ofSeconds 2)) false false)

/-- The period that is given mends the file, which is refused without it. -/
theorem override_separates_of_idle : finish hurried idleConfig = finish hurried {} ∧
    (∃ c, Id.run (load idleFiles hurried) = .ok c) ∧
    ∃ fault, Id.run (load idleFiles { config := some idlePath }) = .error fault ∧
      fault.isConfiguration = true := by
  obtain ⟨agreeing, -, -, -, loads⟩ := override_separates
  have unchanged (s : Setting) (silent : hurried.given s = none) :
      idleConfig.get s = ({} : Config).get s := by
    cases s with
    | targetPeriod => cases silent
    | _ => rfl
  have valid : ({} : Config).check = .ok () := rfl
  refine ⟨(agreeing hurried idleConfig {} unchanged).1,
    (loads idleFiles hurried idleConfig basis_idleFiles).1.mpr ⟨?_, ?_⟩,
    (loads idleFiles { config := some idlePath } idleConfig basis_idleFiles).2 .targetPeriod rfl
      (not_not_intro rfl)⟩
  · intro s v given
    cases s with
    | targetPeriod =>
        obtain rfl : Duration.ofSeconds 2 = v := Option.some.inj given
        exact show (Duration.ofSeconds 2).nanos ≠ 0 by decide
    | _ => cases given
  · intro s silent
    rw [unchanged s silent]
    exact check_ok_iff_allowed.mp valid s

end Config
end ProofOfWork
