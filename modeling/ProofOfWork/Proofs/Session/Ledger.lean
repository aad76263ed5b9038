import ProofOfWork.Proofs.Engine.Ledger
import ProofOfWork.Proofs.Session.Report
set_option autoImplicit false

namespace ProofOfWork

def SessionReport.exits (r : SessionReport) : List Exit :=
  r.rounds.map (fun o => Exit.ofResult o.result) ++ if r.cancelled then [.cancelled] else []

namespace Session

def Rounds.exits (rs : Rounds) : List Exit :=
  rs.outcomes.map (fun o => Exit.ofResult o.result) ++ (rs.ended.map Exit.ofError).toList

section Amid
variable (given : UInt64 → Option Target) (script : UInt64 → Circumstances)
  (config : SessionConfig) (payload : List UInt8)

def Turn.hashed (t : Turn) : List Nonce :=
  t.engine.hashedIn (t.request config payload) (script t.number)

/-- The nonces that are hashed in rounds amid others, in order. The round that ends them early
counts as well. -/
def hashedAmid (count : Nat) (number : UInt64) (e : Engine) (token : Token) : List Nonce :=
  (turns given script config payload count number e token).flatMap
    (Turn.hashed script config payload)

theorem roundsAmid_counted (count : Nat) (number : UInt64) (e : Engine) (token : Token)
    (workers : 1 ≤ e.workers) :
    let rounds := roundsAmid given script config payload count number e token
    e.ledger.Counted rounds.engine.ledger rounds.exits
      (hashedAmid given script config payload count number e token).length := by
  induction count generalizing number e token with
  | zero => exact .refl e.ledger
  | succ count ih =>
      let now := e.setTarget ((given number).getD e.target)
      let r := request config payload token number
      have searched := now.search_counted r (script number) workers
      cases answer : (now.search r (script number)).answer with
      | error fault =>
          rw [answer] at searched
          have here := turn_refused given e answer rfl
          rw [roundsAmid_refused given count e answer rfl, hashedAmid, turns_error (by rw [here]),
            here, List.flatMap_singleton]
          exact searched
      | ok a =>
          rw [answer] at searched
          have frame := now.search_frame r (script number)
          have here := turn_answered given e answer rfl
          rw [roundsAmid_answered given count e answer rfl, hashedAmid, turns_ok (by rw [here]),
            here]
          simp only [List.flatMap_cons, List.length_append]
          rw [retarget_eq]
          generalize moved config _ _ = t
          have later := ih (number + 1) ((now.search r (script number)).engine.setTarget t)
            (now.search r (script number)).token (by rw [frame]; exact workers)
          exact searched.trans later

end Amid

/-- A reported session is entered as the searches of its rounds, and as a cancelled one if it was
cancelled. A session that is not reported leaves the engine as it is. -/
theorem run_counted (config : SessionConfig) (e : Engine) (payload : List UInt8) (rounds : UInt64)
    (token : Token) (script : UInt64 → Circumstances) (elapsed : Duration)
    (workers : 1 ≤ e.workers) :
    (∀ report, (run config e payload rounds token script elapsed).report = .ok report →
      e.ledger.Counted (run config e payload rounds token script elapsed).engine.ledger
        report.exits
        (hashedAmid (fun _ => none) script config payload rounds.toNat 0 e token).length) ∧
    (∀ fault, (run config e payload rounds token script elapsed).report = .error fault →
      (run config e payload rounds token script elapsed).engine = e) := by
  rw [run_eq, runAmid]
  by_cases none : rounds = 0
  · rw [if_pos none]
    refine ⟨?_, fun _ _ => rfl⟩
    rintro report ⟨⟩
  · rw [if_neg none]
    have counted := roundsAmid_counted (fun _ => Option.none) script config payload rounds.toNat 0 e
      token workers
    by_cases admits : e.Admits (request config payload token 0)
    · have ended := roundsAmid_ended (fun _ => Option.none) script admits.attempts rounds.toNat 0
        token admits.taken
      dsimp only at counted ended ⊢
      generalize roundsAmid (fun _ => Option.none) script config payload rounds.toNat 0 e token = rs
        at counted ended
      obtain ⟨outcomes, last, engine, left⟩ := rs
      rcases ended with ⟨whole, -⟩ | ⟨cut, -⟩
      · cases whole
        constructor
        · rintro report ⟨⟩
          exact counted
        · rintro fault ⟨⟩
      · cases cut
        constructor
        · rintro report ⟨⟩
          exact counted
        · rintro fault ⟨⟩
    · obtain ⟨count, more⟩ := Nat.exists_eq_succ_of_ne_zero (Nat.ne_of_gt (one_le_toNat none))
      obtain ⟨same, cause, refused⟩ := Engine.search_unadmitted admits (script 0)
      have rounds_eq := roundsAmid_refused (fun _ => Option.none) count e refused rfl
      dsimp only at rounds_eq
      rw [same] at rounds_eq
      simp only [more, Nat.succ_eq_add_one, rounds_eq, Rounds.report, reduceCtorEq, false_implies,
        implies_true, and_self]

end Session
end ProofOfWork
