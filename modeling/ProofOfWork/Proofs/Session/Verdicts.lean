import ProofOfWork.Proofs.Session.Report
set_option autoImplicit false

namespace ProofOfWork

/-- Only a solution that was found has a verdict, so all that were found are counted exactly if
all of them are valid. -/
theorem SessionReport.solutions_eq_iff {report : SessionReport}
    (judged : ∀ o ∈ report.rounds, o.verdict = none ↔ o.result = .exhausted) :
    report.solutions = report.rounds.countP (fun o => o.result.isFound) ↔
      ∀ o ∈ report.rounds, o.result.isFound = true → o.verdict = some .valid := by
  have found : report.solutions =
      (report.rounds.filter fun o => o.result.isFound).countP fun o => o.verdict = some .valid := by
    rw [List.countP_filter]
    refine List.countP_congr fun o member => ?_
    simp only [decide_eq_true_eq, Bool.and_eq_true, iff_self_and]
    intro valid
    cases result : o.result with
    | found n digest => rfl
    | exhausted =>
        rw [(judged o member).mpr result] at valid
        cases valid
  have all : report.rounds.countP (fun o => o.result.isFound) =
      (report.rounds.filter fun o => o.result.isFound).length := List.countP_eq_length_filter
  rw [found, all, List.countP_eq_length]
  simp only [List.mem_filter, decide_eq_true_eq, and_imp]

namespace Session
variable {given : UInt64 → Option Target} {config : SessionConfig} {e : Engine}
  {payload : List UInt8} {rounds : UInt64} {token : Token} {script : UInt64 → Circumstances}
  {elapsed : Duration} {report : SessionReport}

theorem runAmid_mined
    (reported : (runAmid given config e payload rounds token script elapsed).report = .ok report)
    {o : RoundOutcome} (member : o ∈ report.rounds) :
    ∃ target, Mined config payload e (script o.round) o.round target o := by
  unfold runAmid at reported
  split at reported
  · cases reported
  · rw [(Rounds.report_ok reported).1] at member
    obtain ⟨final, chain, -⟩ :=
      roundsAmid_chain given script config payload e rounds.toNat 0 e.target e.ledger token
    exact chain.mined member

theorem Mined.valid_iff {c : Circumstances} {number : UInt64} {target : Target} {o : RoundOutcome}
    (mined : Mined config payload e c number target o) (workers : 1 ≤ e.workers) {n : Nonce}
    {digest : Digest} (found : o.result = .found n digest) :
    (o.verdict = some .valid ↔ ∀ t, c.replaced = some t → t.accepts digest = true) ∧
      (o.verdict = some .valid ∨ o.verdict = some .aboveTarget) := by
  have genuine := mined.genuine workers .absent
  rw [found] at genuine
  obtain ⟨⟨-, accepted⟩, rfl⟩ := genuine
  have verdict := mined.verdict_of_found workers found
  cases later : c.replaced with
  | none =>
      rw [later, Option.getD_none] at verdict
      have valid : o.verdict = some .valid := verdict.trans (congrArg some (if_pos accepted))
      exact ⟨iff_of_true valid nofun, .inl valid⟩
  | some t =>
      rw [later, Option.getD_some] at verdict
      simp only [Option.some.injEq, forall_eq']
      split at verdict
      · rename_i kept
        exact ⟨iff_of_true verdict kept, .inl verdict⟩
      · rename_i lost
        refine ⟨iff_of_false ?_ lost, .inr verdict⟩
        rw [verdict]
        exact nofun

/-- Whatever targets others give the engine between the rounds and while a round is mined, a
solution is found valid exactly if the target that was given last while it was searched for, if
any, accepts it; else it is above the target. So all solutions of a session count as such exactly
if every one is accepted by the target at its check. -/
theorem runAmid_verdicts (given : UInt64 → Option Target) (config : SessionConfig) (e : Engine)
    (payload : List UInt8) (rounds : UInt64) (token : Token) (script : UInt64 → Circumstances)
    (elapsed : Duration) (workers : 1 ≤ e.workers) {report : SessionReport}
    (reported : (runAmid given config e payload rounds token script elapsed).report =
      .ok report) :
    (∀ o ∈ report.rounds, ∀ n digest, o.result = .found n digest →
      (o.verdict = some .valid ↔
        ∀ t, (script o.round).replaced = some t → t.accepts digest = true) ∧
      (o.verdict = some .valid ∨ o.verdict = some .aboveTarget)) ∧
    (report.solutions = report.rounds.countP (fun o => o.result.isFound) ↔
      ∀ o ∈ report.rounds, ∀ n digest, o.result = .found n digest →
        ∀ t, (script o.round).replaced = some t → t.accepts digest = true) := by
  have judged : ∀ o ∈ report.rounds, ∀ n digest, o.result = .found n digest →
      (o.verdict = some .valid ↔
        ∀ t, (script o.round).replaced = some t → t.accepts digest = true) ∧
      (o.verdict = some .valid ∨ o.verdict = some .aboveTarget) := by
    intro o member n digest found
    obtain ⟨target, mined⟩ := runAmid_mined reported member
    exact mined.valid_iff workers found
  have reached : ∀ o ∈ report.rounds, o.verdict = none ↔ o.result = .exhausted := by
    intro o member
    obtain ⟨target, mined⟩ := runAmid_mined reported member
    exact mined.verdict_eq_none_iff
  refine ⟨judged, (SessionReport.solutions_eq_iff reached).trans ⟨?_, ?_⟩⟩
  · intro valid o member n digest found
    exact (judged o member n digest found).1.mp (valid o member (by rw [found]; rfl))
  · intro accepted o member isFound
    cases result : o.result with
    | found n digest =>
        exact (judged o member n digest result).1.mpr (accepted o member n digest result)
    | exhausted =>
        rw [result] at isFound
        cases isFound

/-- Two rounds, the first mined against the target that accepts everything, which is replaced by
zero before the solution is checked, and the second against zero, which is replaced by that
target. -/
theorem runAmid_verdicts_of_replaced :
    ∃ report, (runAmid (fun number => if number = 1 then some .zero else none)
        { maxAttempts := 9, retarget := false } ((Engine.marking [2] .lowest 2).setTarget .max) [7] 2
        .idle (fun number => { replaced := some (if number = 0 then .zero else .max) })
        .zero).report = .ok report ∧
      report.rounds.map (fun o => (o.result, o.verdict)) =
        [(.found ⟨0⟩ ⟨.max⟩, some .aboveTarget), (.found ⟨2⟩ ⟨.zero⟩, some .valid)] ∧
      report.solutions ≠ report.rounds.countP fun o => o.result.isFound := by
  obtain ⟨report, reported, -⟩ := runAmid_reports
    (fun number => if number = 1 then some .zero else none)
    { maxAttempts := 9, retarget := false } ((Engine.marking [2] .lowest 2).setTarget .max) [7] 2
    .idle (fun number => { replaced := some (if number = 0 then .zero else .max) }) .zero
    (by decide) (by decide) rfl
  obtain ⟨judged, all⟩ := runAmid_verdicts (fun number => if number = 1 then some .zero else none)
    { maxAttempts := 9, retarget := false } ((Engine.marking [2] .lowest 2).setTarget .max) [7] 2
    .idle (fun number => { replaced := some (if number = 0 then .zero else .max) }) .zero
    (by decide) reported
  have seen : (runAmid (fun number => if number = 1 then some .zero else none)
      { maxAttempts := 9, retarget := false } ((Engine.marking [2] .lowest 2).setTarget .max) [7] 2
      .idle (fun number => { replaced := some (if number = 0 then .zero else .max) })
      .zero).report.toOption.map (fun report => report.rounds.map fun o => (o.round, o.result)) =
      some [(0, .found ⟨0⟩ ⟨.max⟩), (1, .found ⟨2⟩ ⟨.zero⟩)] := by
    decide +kernel
  rw [reported] at seen
  obtain ⟨o, rest, rounds, here, later⟩ := List.map_eq_cons_iff.mp (Option.some.inj seen)
  obtain ⟨p, others, rfl, there, none⟩ := List.map_eq_cons_iff.mp later
  obtain rfl := List.map_eq_nil_iff.mp none
  obtain ⟨first, found⟩ := Prod.mk.inj here
  obtain ⟨second, again⟩ := Prod.mk.inj there
  rw [rounds] at judged
  obtain ⟨above, verdict⟩ := judged o List.mem_cons_self _ _ found
  obtain ⟨valid, -⟩ := judged p (List.mem_cons_of_mem _ List.mem_cons_self) _ _ again
  rw [first] at above
  rw [second] at valid
  have lost : o.verdict ≠ some .valid := fun kept => absurd (above.mp kept .zero rfl) (by decide)
  have kept : p.verdict = some .valid := valid.mpr fun t given => by
    obtain rfl := Option.some.inj given
    decide
  refine ⟨report, reported, ?_, fun same => ?_⟩
  · simp [rounds, found, again, verdict.resolve_left lost, kept]
  · have accepted := all.mp same o (by rw [rounds]; exact List.mem_cons_self) _ _ found .zero
      (by rw [first]; rfl)
    exact absurd accepted (by decide)

/-- Somebody gives the engine the target zero while the only round is mined, whose target accepts
everything. The solution is found, and it is said to be above the target. -/
theorem run_found_above_target :
    ∃ report, (run { maxAttempts := 9, retarget := false }
        ((Engine.marking [] .lowest 1).setTarget .max) [7] 1 .idle
        (fun _ => { replaced := some .zero }) .zero).report = .ok report ∧
      report.rounds.countP (fun o => o.result.isFound) = 1 ∧
      (∀ o ∈ report.rounds, o.verdict = some .aboveTarget) ∧ report.solutions = 0 := by
  have seen : (run { maxAttempts := 9, retarget := false }
      ((Engine.marking [] .lowest 1).setTarget .max) [7] 1 .idle
      (fun _ => { replaced := some .zero }) .zero).report.toOption.map (fun report =>
        (report.rounds.countP (fun o => o.result.isFound),
          report.rounds.all (fun o => o.verdict = some .aboveTarget), report.solutions)) =
      some (1, true, 0) := by
    decide +kernel
  cases reported : (run { maxAttempts := 9, retarget := false }
      ((Engine.marking [] .lowest 1).setTarget .max) [7] 1 .idle
      (fun _ => { replaced := some .zero }) .zero).report with
  | error fault =>
      rw [reported] at seen
      cases seen
  | ok report =>
      rw [reported] at seen
      simp only [Except.toOption, Option.map_some, Option.some.injEq, Prod.mk.injEq,
        List.all_eq_true, decide_eq_true_eq] at seen
      exact ⟨report, rfl, seen⟩

end Session
end ProofOfWork
