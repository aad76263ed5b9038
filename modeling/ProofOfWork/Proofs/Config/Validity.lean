import ProofOfWork.Proofs.Program.Run
import ProofOfWork.Proofs.Session.Report
set_option autoImplicit false

namespace ProofOfWork

theorem TargetSpec.resolve_error {spec : TargetSpec} {fault : Error}
    (refused : spec.resolve = .error fault) : ∃ cause, fault = .invalidTarget cause := by
  have powers : ∀ {exponent : UInt32}, Target.belowPowerOfTwo exponent = .error fault →
      ∃ cause, fault = .invalidTarget cause := by
    intro exponent refused
    unfold Target.belowPowerOfTwo at refused
    split at refused
    · exact ⟨_, (Except.error.inj refused).symm⟩
    · cases refused
  cases spec with
  | digits target => cases refused
  | leadingZeros bits =>
      change Target.ofLeadingZeros bits = _ at refused
      unfold Target.ofLeadingZeros at refused
      split at refused
      · exact ⟨_, (Except.error.inj refused).symm⟩
      · exact powers refused
  | powerOfTwo exponent => exact powers refused
  | compact word =>
      change Target.ofCompact word = _ at refused
      unfold Target.ofCompact at refused
      dsimp only at refused
      split at refused
      · cases refused
      · split at refused
        · cases refused
        · exact ⟨_, (Except.error.inj refused).symm⟩
  | difficulty value =>
      change Target.ofDifficulty value = _ at refused
      unfold Target.ofDifficulty at refused
      split at refused
      · exact ⟨_, (Except.error.inj refused).symm⟩
      · split at refused
        · cases refused
        · exact ⟨_, (Except.error.inj refused).symm⟩

theorem EngineConfig.check_ok_iff {c : EngineConfig} : c.check = .ok () ↔ c.batch ≠ 0 := by
  unfold check
  split
  · rename_i zero
    exact iff_of_false nofun (not_not_intro zero)
  · rename_i some_nonces
    exact iff_of_true rfl some_nonces

theorem EngineConfig.check_error {c : EngineConfig} {fault : Error}
    (refused : c.check = .error fault) : ∃ cause, fault = .setting cause := by
  unfold check at refused
  split at refused
  · exact ⟨_, (Except.error.inj refused).symm⟩
  · cases refused

theorem SessionConfig.check_ok_iff {c : SessionConfig} : c.check = .ok () ↔
    c.maxAttempts ≠ 0 ∧ c.targetPeriod.nanos ≠ 0 ∧ c.tolerance.isFinite = true ∧
      c.tolerance ≥ 0 := by
  have bounded : (c.tolerance.isFinite && c.tolerance ≥ 0) = true ↔
      c.tolerance.isFinite = true ∧ c.tolerance ≥ 0 := by
    rw [Bool.and_eq_true, decide_eq_true_eq]
  rw [← bounded]
  unfold check
  split
  · rename_i zero
    exact iff_of_false nofun fun allowed => allowed.1 zero
  rename_i some_nonces
  split
  · rename_i zero
    exact iff_of_false nofun fun allowed => allowed.2.1 zero
  rename_i some_time
  split
  · rename_i within
    exact iff_of_true rfl ⟨some_nonces, some_time, within⟩
  · rename_i outside
    exact iff_of_false nofun fun allowed => outside allowed.2.2

theorem SessionConfig.check_error {c : SessionConfig} {fault : Error}
    (refused : c.check = .error fault) : ∃ cause, fault = .setting cause := by
  unfold check at refused
  split at refused
  · exact ⟨_, (Except.error.inj refused).symm⟩
  split at refused
  · exact ⟨_, (Except.error.inj refused).symm⟩
  split at refused
  · cases refused
  · exact ⟨_, (Except.error.inj refused).symm⟩

namespace Config
variable {c : Config}

theorem check_ok_iff : c.check = .ok () ↔
    (∃ t, c.target.resolve = .ok t) ∧ c.maxAttempts ≠ 0 ∧ c.engine.check = .ok () ∧
      c.session.check = .ok () := by
  unfold check
  constructor
  · intro valid
    obtain ⟨t, resolved, valid⟩ := ok_of_bind valid
    split at valid
    · cases valid
    · rename_i attempts
      obtain ⟨⟨⟩, engine, session⟩ := ok_of_bind valid
      exact ⟨⟨t, resolved⟩, attempts, engine, session⟩
  · rintro ⟨⟨t, resolved⟩, attempts, engine, session⟩
    rw [resolved, engine, session]
    change (if c.maxAttempts = 0 then _ else _) = _
    rw [if_neg attempts]
    rfl

theorem makeEngine_ok_iff {cores : Nat} {e : Engine} : c.makeEngine cores = .ok e ↔
    ∃ t, c.target.resolve = .ok t ∧ c.engine.check = .ok () ∧ e = c.engineOn cores t := by
  unfold makeEngine
  constructor
  · intro made
    obtain ⟨t, resolved, made⟩ := ok_of_bind made
    obtain ⟨⟨⟩, engine, same⟩ := ok_of_bind made
    exact ⟨t, resolved, engine, (Except.ok.inj same).symm⟩
  · rintro ⟨t, resolved, engine, rfl⟩
    rw [resolved]
    change Engine.make _ t c.engine cores = _
    rw [Engine.make, engine]
    rfl

theorem check_error {fault : Error} (refused : c.check = .error fault) :
    fault.isConfiguration = true := by
  unfold check at refused
  rcases error_of_bind refused with bad | ⟨t, resolved, refused⟩
  · obtain ⟨cause, rfl⟩ := TargetSpec.resolve_error bad
    rfl
  split at refused
  · obtain rfl := Except.error.inj refused
    rfl
  rcases error_of_bind refused with bad | ⟨⟨⟩, engine, bad⟩
  · obtain ⟨cause, rfl⟩ := EngineConfig.check_error bad
    rfl
  · obtain ⟨cause, rfl⟩ := SessionConfig.check_error bad
    rfl

/-- The settings of a valid configuration pass wherever they are checked: the engine is made, the
session begins, and whatever has become of the engine by then, neither a search with the bound of
the configuration nor a round of its session is refused. They end early by cancellation only. -/
theorem check_suffices (c : Config) (cores : Nat) :
    (c.check = .ok () ↔ c.maxAttempts ≠ 0 ∧ (∃ t, c.target.resolve = .ok t) ∧
      (∃ e, c.makeEngine cores = .ok e) ∧ c.session.check = .ok ()) ∧
    (∀ fault, c.check = .error fault → fault.isConfiguration = true) ∧
    ∀ e, c.check = .ok () → c.makeEngine cores = .ok e → ∀ (now : Target) (counted : Ledger),
      let e := { e with target := now, ledger := counted }
      (∀ data start token circumstances fault, data ≠ [] → e.hasher.checkInput data = .ok () →
        (e.search { data, start, maxAttempts := c.maxAttempts, token } circumstances).answer =
          .error fault → fault = .cancelled "mining") ∧
      ∀ payload number token circumstances fault,
        e.hasher.checkInput (salted payload number) = .ok () →
        (Id.run (Session.roundOn (Host.scripted circumstances) c.session payload number e
          token)).outcome = .error fault → fault = .cancelled "mining" := by
  refine ⟨?_, fun fault => check_error, ?_⟩
  · rw [check_ok_iff]
    constructor
    · rintro ⟨⟨t, resolved⟩, attempts, engine, session⟩
      have made : c.makeEngine cores = .ok (c.engineOn cores t) :=
        makeEngine_ok_iff.mpr ⟨t, resolved, engine, rfl⟩
      exact ⟨attempts, ⟨t, resolved⟩, ⟨_, made⟩, session⟩
    · rintro ⟨attempts, resolves, ⟨e, made⟩, session⟩
      obtain ⟨t, -, engine, -⟩ := makeEngine_ok_iff.mp made
      exact ⟨resolves, attempts, engine, session⟩
  · -- the engine may have another target and ledger by then, but neither is checked again
    intro made valid _ now counted e
    obtain ⟨-, attempts, -, session⟩ := check_ok_iff.mp valid
    constructor
    · intro data start token circumstances fault some_data taken answer
      have admits : e.Admits { data, start, maxAttempts := c.maxAttempts, token } :=
        ⟨some_data, one_le_toNat attempts, taken⟩
      exact admits.error_eq answer
    · intro payload number token circumstances fault taken ended
      have admits : e.Admits (Session.request c.session payload token number) :=
        ⟨salted_ne_nil payload number, SessionConfig.maxAttempts_pos session, taken⟩
      cases answer : (e.search (Session.request c.session payload token number)
        circumstances).answer with
      | error cause =>
          rw [Session.roundOn_refused answer] at ended
          obtain rfl := Except.error.inj ended
          exact admits.error_eq answer
      | ok a =>
          rw [Session.roundOn_answered answer] at ended
          cases ended

/-- With the settings that a program starts from, a search and a round of a session whose token has
fired are cancelled and not refused. -/
theorem check_suffices_of_default :
    ∃ e, (default : Config).makeEngine 2 = .ok e ∧
      (∃ fault, (e.search { data := [7], start := ⟨0⟩, maxAttempts := 10000000, token := .fired }
        {}).answer = .error fault ∧ fault = .cancelled "mining") ∧
      ∃ fault, (Id.run (Session.roundOn (Host.scripted {}) (default : Config).session [] 3 e
        .fired)).outcome = .error fault ∧ fault = .cancelled "mining" := by
  obtain ⟨valid, -, passes⟩ := check_suffices default 2
  have made : (default : Config).makeEngine 2 =
      .ok (engineOn default 2 (.ofNat (2 ^ 240 - 1))) := rfl
  have session : (default : Config).session.check = .ok () := rfl
  have checked := valid.mpr ⟨by decide, ⟨_, rfl⟩, ⟨_, made⟩, session⟩
  obtain ⟨searches, rounds⟩ := passes _ checked made (.ofNat (2 ^ 240 - 1)) {}
  refine ⟨_, made, ⟨_, rfl, ?_⟩, ⟨_, rfl, ?_⟩⟩
  · exact searches [7] ⟨0⟩ .fired {} _ (List.cons_ne_nil 7 []) rfl rfl
  · exact rounds [] 3 .fired {} _ rfl rfl

end Config
end ProofOfWork
