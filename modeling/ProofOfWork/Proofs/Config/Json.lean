import ProofOfWork.Config.Format
import ProofOfWork.Proofs.Document.Json.Settings
set_option autoImplicit false

namespace ProofOfWork.Config
open Document Document.Json

variable {c : Config}

theorem parse_compact (proper : c.target.Proper) (finite : c.session.tolerance.isFinite = true) :
    parse (compact c.toDocument) .json = .ok (c.rereadWith reread) := by
  have made := ofDocument_toDocument Json.faithful proper finite
  rw [parse, read_compact (readable finite), Option.bind_some, made]

theorem parse_json (valid : c.check = .ok ()) :
    parse (compact c.toDocument) .json = .ok (c.rereadWith reread) := by
  obtain ⟨proper, finite⟩ := proper_of_check valid
  exact parse_compact proper finite

/-- A tolerance that is read stays one that is let pass. -/
theorem check_reread (valid : c.check = .ok ()) : (c.rereadWith reread).check = .ok () := by
  obtain ⟨resolved, attempts, engine, session⟩ := check_ok_iff.mp valid
  obtain ⟨nonces, period, finite, least⟩ := SessionConfig.check_ok_iff.mp session
  obtain ⟨negative, m, e, shown⟩ := Decimal.exists_shape finite
  obtain ⟨n, t, again⟩ := reread_finite shown
  exact check_ok_iff.mpr ⟨resolved, attempts, engine, SessionConfig.check_ok_iff.mpr
    ⟨nonces, period, Decimal.isFinite_of_shape again, reread_nonneg finite least⟩⟩

/-- A valid configuration that is written as JSON is read as a valid one, which differs from it in
the tolerance at most. It is the same one if the tolerance is read as it was, as it is wherever its
digits and their power of ten are numbers themselves. -/
theorem json_rereads (valid : c.check = .ok ()) :
    ∃ d, parse (compact c.toDocument) .json = .ok d ∧ d.check = .ok () ∧
      d = { c with session := { c.session with tolerance := reread c.session.tolerance } } ∧
      (d = c ↔ reread c.session.tolerance = c.session.tolerance) ∧
      (scalesExactly c.session.tolerance = true → d = c) := by
  have same : c.rereadWith reread = c ↔ reread c.session.tolerance = c.session.tolerance := by
    constructor
    · intro same
      exact congrArg (fun d => d.session.tolerance) same
    · intro same
      rw [rereadWith, same]
  exact ⟨_, parse_json valid, check_reread valid, rfl, same, fun exact =>
    same.mpr (reread_of_scalesExactly exact)⟩

/-- A target of a difficulty with many digits, and a tolerance with few. -/
def exactConfig : Config where
  target := .difficulty 1234.5678901234567
  session := { tolerance := 0.1 }

theorem json_rereads_exact : exactConfig.check = .ok () ∧
    parse (compact exactConfig.toDocument) .json = .ok exactConfig := by
  have valid : exactConfig.check = .ok () := rfl
  obtain ⟨d, parsed, -, -, -, exact⟩ := json_rereads valid
  rw [exact (by decide +kernel)] at parsed
  exact ⟨valid, parsed⟩

/-- A tolerance of seventeen digits. -/
def fineConfig : Config where
  session := { tolerance := 0.43258806521161963 }

/-- It comes back as the number below it. -/
theorem json_loses_tolerance : fineConfig.check = .ok () ∧
    ∃ d, parse (compact fineConfig.toDocument) .json = .ok d ∧
      d.session.tolerance = 0.4325880652116196 ∧
      d.session.tolerance ≠ fineConfig.session.tolerance := by
  have valid : fineConfig.check = .ok () := rfl
  have lower : reread 0.43258806521161963 = 0.4325880652116196 := by decide +kernel
  exact ⟨valid, _, parse_json valid, lower, by decide +kernel⟩

end ProofOfWork.Config
