import ProofOfWork.Proofs.Engine.Lowest
import ProofOfWork.Proofs.Session.Round
set_option autoImplicit false

namespace ProofOfWork.Session

/-- A round mined against `target` by an engine like `e`, whatever it has counted before. -/
def Mined (config : SessionConfig) (payload : List UInt8) (e : Engine) (c : Circumstances)
    (number : UInt64) (target : Target) (o : RoundOutcome) : Prop :=
  ∃ token a, ((e.setTarget target).search (request config payload token number) c).answer = .ok a ∧
    o = outcome (e.setTarget (c.replaced.getD target)) payload number a

section Mined
variable {c : Circumstances} {config : SessionConfig} {payload : List UInt8} {number : UInt64}
  {e : Engine} {target : Target} {o : RoundOutcome}

theorem Mined.round_eq (mined : Mined config payload e c number target o) : o.round = number := by
  obtain ⟨token, a, -, rfl⟩ := mined
  rfl

theorem Mined.difficulty_eq (mined : Mined config payload e c number target o) :
    o.difficulty = .of target := by
  obtain ⟨token, a, answer, rfl⟩ := mined
  obtain ⟨-, -, rfl⟩ := (Engine.admits_of_answer answer).answer_cases answer
  rfl

theorem Mined.hashRate_eq (mined : Mined config payload e c number target o) :
    o.hashRate = .measured o.attempts.toNat o.elapsed := by
  obtain ⟨token, a, -, rfl⟩ := mined
  rfl

theorem Mined.search_eq (mined : Mined config payload e c number target o) :
    ∃ token, ((e.setTarget target).search (request config payload token number) c).answer =
        .ok ⟨o.result, target, o.attempts, o.elapsed⟩ := by
  obtain ⟨token, a, answer, rfl⟩ := mined
  refine ⟨token, ?_⟩
  rw [answer]
  obtain ⟨-, -, rfl⟩ := (Engine.admits_of_answer answer).answer_cases answer
  rfl

theorem Mined.genuine (mined : Mined config payload e c number target o)
    (workers : 1 ≤ e.workers) (token : Token) :
    o.result.Genuine ((e.setTarget target).Solves (request config payload token number))
      (e.hasher.digest (salted payload number)) := by
  obtain ⟨given, a, answer, rfl⟩ := mined
  exact (Engine.admits_of_answer answer).answer_genuine workers answer

theorem Mined.lowest (mined : Mined config payload e c number target o)
    (workers : 1 ≤ e.workers) (lowest : e.config.mode = .lowest) (token : Token) :
    o.result.Lowest ((e.setTarget target).Solves (request config payload token number))
      (e.hasher.digest (salted payload number)) := by
  obtain ⟨given, a, answer, rfl⟩ := mined
  exact (Engine.admits_of_answer answer).answer_lowest workers lowest answer

theorem Mined.verdict_eq_none_iff (mined : Mined config payload e c number target o) :
    o.verdict = none ↔ o.result = .exhausted := by
  obtain ⟨token, a, -, rfl⟩ := mined
  cases result : a.result <;> simp [outcome, judged, result]

theorem Mined.verdict_of_found (mined : Mined config payload e c number target o)
    (workers : 1 ≤ e.workers) {n : Nonce} {digest : Digest} (found : o.result = .found n digest) :
    o.verdict = some
      (if (c.replaced.getD target).accepts digest then Verdict.valid else Verdict.aboveTarget) := by
  have genuine := mined.genuine workers .absent
  rw [found] at genuine
  obtain ⟨-, rfl⟩ := genuine
  obtain ⟨token, a, -, rfl⟩ := mined
  have result : a.result = .found n (e.hasher.digest (salted payload number) n) := found
  simp only [outcome, judged, result]
  exact congrArg some (Verdict.of_digest e.hasher _ (salted payload number) n)

end Mined

/-- Rounds that follow each other from a number and a target on, and the target they end with. -/
inductive Chain (given : UInt64 → Option Target) (script : UInt64 → Circumstances)
    (config : SessionConfig) (payload : List UInt8) (e : Engine) :
    UInt64 → Target → List RoundOutcome → Target → Prop
  | nil (number : UInt64) (t : Target) : Chain given script config payload e number t [] t
  | cons {number : UInt64} {t final : Target} {o : RoundOutcome} {rest : List RoundOutcome}
      (mined : Mined config payload e (script number) number ((given number).getD t) o)
      (tail : Chain given script config payload e (number + 1)
        (moved config ((script number).replaced.getD ((given number).getD t)) o) rest final) :
      Chain given script config payload e number t (o :: rest) final

section Chain
variable {given : UInt64 → Option Target} {script : UInt64 → Circumstances}
  {config : SessionConfig} {payload : List UInt8} {e : Engine}

/-- The rounds of a session are a chain. Where nobody else changes the target, the engine has the
last target of the chain at the end. -/
theorem roundsAmid_chain (given : UInt64 → Option Target) (script : UInt64 → Circumstances)
    (config : SessionConfig) (payload : List UInt8) (e : Engine) (count : Nat) (number : UInt64)
    (t : Target) (l : Ledger) (token : Token) :
    ∃ final, Chain given script config payload e number t
        (roundsAmid given script config payload count number { e with target := t, ledger := l }
          token).outcomes final ∧
      ((∀ number, given number = none) → (∀ number, (script number).replaced = none) →
        (roundsAmid given script config payload count number { e with target := t, ledger := l }
          token).engine.target = final) := by
  -- on the rounds that are left, for any target and ledger that they begin with
  induction count generalizing number t l token with
  | zero => exact ⟨t, .nil number t, fun _ _ => rfl⟩
  | succ count ih =>
      let begun := (given number).getD t
      let now : Engine := { e with target := begun, ledger := l }
      let searched := now.search (request config payload token number) (script number)
      cases answer : searched.answer with
      | error fault =>
          rw [roundsAmid_refused given count { e with target := t, ledger := l } answer rfl]
          refine ⟨t, .nil number t, ?_⟩
          intro alone kept
          have target : searched.engine.target = begun := (now.search_keeps (kept number)).2
          exact target.trans (congrArg (fun given => Option.getD given t) (alone number))
      | ok a =>
          let checked := (script number).replaced.getD begun
          let o := outcome (e.setTarget checked) payload number a
          have frame := now.search_frame (request config payload token number) (script number)
          have live := now.search_target answer
          have mined : Mined config payload e (script number) number begun o := by
            refine ⟨token, a, ?_, rfl⟩
            rw [← answer]
            exact ((e.setTarget begun).answer_ledger l _ _).symm
          rw [roundsAmid_answered given count { e with target := t, ledger := l } answer rfl]
          dsimp only
          rw [frame, live, retarget_eq]
          obtain ⟨final, tail, same⟩ :=
            ih (number + 1) (moved config checked o) searched.engine.ledger searched.token
          exact ⟨final, .cons mined tail, same⟩

/-- A target before others. -/
def preceded (t : Target) (rest : Nat → Target) : Nat → Target
  | 0 => t
  | i + 1 => rest i

theorem Chain.targets {number : UInt64} {t final : Target} {outcomes : List RoundOutcome}
    (chain : Chain given script config payload e number t outcomes final) :
    ∃ target : Nat → Target, target 0 = t ∧ target outcomes.length = final ∧
      ∀ i o, outcomes[i]? = some o →
        Mined config payload e (script (number + i.toUInt64)) (number + i.toUInt64)
          ((given (number + i.toUInt64)).getD (target i)) o ∧
        target (i + 1) = moved config ((script (number + i.toUInt64)).replaced.getD
          ((given (number + i.toUInt64)).getD (target i))) o := by
  induction chain with
  | nil number t => exact ⟨fun _ => t, rfl, rfl, nofun⟩
  | @cons number t final o rest mined tail ih =>
      obtain ⟨target, first, last, links⟩ := ih
      refine ⟨preceded t target, rfl, last, ?_⟩
      intro i p here
      cases i with
      | zero =>
          simp only [List.getElem?_cons_zero, Option.some.injEq] at here
          subst here
          have same : number + Nat.toUInt64 0 = number := UInt64.add_zero number
          rw [same]
          exact ⟨mined, first⟩
      | succ i =>
          have next : number + 1 + i.toUInt64 = number + (i + 1).toUInt64 := by
            rw [UInt64.add_assoc, UInt64.add_comm 1]
            exact congrArg (number + ·) (UInt64.ofNat_add i 1).symm
          rw [← next]
          exact links i p here

theorem Chain.mined {number : UInt64} {t final : Target} {outcomes : List RoundOutcome}
    (chain : Chain given script config payload e number t outcomes final) {o : RoundOutcome}
    (member : o ∈ outcomes) :
    ∃ target, Mined config payload e (script o.round) o.round target o := by
  induction chain with
  | nil number t => cases member
  | cons mined tail ih =>
      rcases List.mem_cons.mp member with rfl | later
      · have same := mined.round_eq
        subst same
        exact ⟨_, mined⟩
      · exact ih later

end Chain
end ProofOfWork.Session
