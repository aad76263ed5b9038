import ProofOfWork.Proofs.Session.Report
set_option autoImplicit false

namespace ProofOfWork

/-- What a round records apart from what it cost. -/
def RoundOutcome.record (o : RoundOutcome) :
    UInt64 × SearchResult × Option Verdict × Difficulty :=
  (o.round, o.result, o.verdict, o.difficulty)

namespace Session
variable {config : SessionConfig} {payload : List UInt8} {e : Engine}

/-- Two rounds of one number mined against one target that nobody replaces record the same, however
their workers are scheduled and whatever became of their tokens. -/
theorem Mined.record_eq {c d : Circumstances} {number : UInt64} {target : Target}
    {o p : RoundOutcome} (mined : Mined config payload e c number target o)
    (again : Mined config payload e d number target p) (workers : 1 ≤ e.workers)
    (lowest : e.config.mode = .lowest) (alone : c.replaced = none) (still : d.replaced = none) :
    o.record = p.record := by
  have result : o.result = p.result :=
    (mined.lowest workers lowest .absent).unique (again.lowest workers lowest .absent)
  have verdict : o.verdict = p.verdict := by
    cases found : o.result with
    | exhausted =>
        have other : p.result = .exhausted := result.symm.trans found
        rw [mined.verdict_eq_none_iff.mpr found, again.verdict_eq_none_iff.mpr other]
    | found n digest =>
        have other : p.result = .found n digest := result.symm.trans found
        rw [mined.verdict_of_found workers found, again.verdict_of_found workers other, alone,
          still]
  rw [RoundOutcome.record, RoundOutcome.record, mined.round_eq, again.round_eq,
    mined.difficulty_eq, again.difficulty_eq, result, verdict]

section Chains
variable {script other : UInt64 → Circumstances} (fixed : config.retarget = false)
  (workers : 1 ≤ e.workers) (lowest : e.config.mode = .lowest)
  (alone : ∀ number, (script number).replaced = none)
  (still : ∀ number, (other number).replaced = none)

include fixed workers lowest alone still in
/-- Of two chains from one number and one target, the shorter one records the first rounds of the
longer one. -/
theorem Chain.record_prefix {number : UInt64} {t last final : Target}
    {outcomes whole : List RoundOutcome}
    (chain : Chain (fun _ => none) script config payload e number t outcomes last)
    (full : Chain (fun _ => none) other config payload e number t whole final)
    (few : outcomes.length ≤ whole.length) :
    outcomes.map RoundOutcome.record <+: whole.map RoundOutcome.record := by
  induction chain generalizing whole with
  | nil number t => exact List.nil_prefix
  | @cons number t last o rest mined tail ih =>
      cases full with
      | nil => exact absurd few (Nat.not_succ_le_zero _)
      | @cons _ _ _ p more again onward =>
          -- The target does not move, so both chains go on from the same one.
          rw [moved_fixed fixed, alone] at tail ih
          rw [moved_fixed fixed, still] at onward
          have same := mined.record_eq again workers lowest (alone number) (still number)
          have after := ih onward (Nat.le_of_succ_le_succ few)
          rw [List.map_cons, List.map_cons, same]
          exact List.cons_prefix_cons.mpr ⟨rfl, after⟩

end Chains

/-- A token that has not fired and never does lets all rounds be completed. -/
theorem roundsAmid_whole {script : UInt64 → Circumstances} {token : Token}
    (attempts : 1 ≤ config.maxAttempts.toNat) (workers : 1 ≤ e.workers) (unfired : token ≠ .fired)
    (calm : ∀ number, .fire ∉ (script number).schedule) (count : Nat)
    (taken : e.hasher.checkInput (salted payload 0) = .ok ()) :
    let rounds := roundsAmid (fun _ => none) script config payload count 0 e token
    rounds.ended = none ∧ rounds.outcomes.length = count := by
  rcases roundsAmid_ended (fun _ => none) script attempts count 0 token taken with
    whole | ⟨-, -, reason⟩
  · exact whole
  · rcases reason workers with before | ⟨number, fires⟩
    · exact absurd before unfired
    · exact absurd fires (calm number)

/-- Whenever the token of a session with a fixed target fires, the report says of its rounds what
the report of the run whose token never fires says of as many of its first ones, also if the
workers of the two runs are scheduled in other ways. A session is reported unless there are no
rounds or the hasher does not take the data, and then both runs are refused for the same reason. -/
theorem run_cancelled_prefix (config : SessionConfig) (e : Engine) (payload : List UInt8)
    (rounds : UInt64) (token unused : Token) (script other : UInt64 → Circumstances)
    (elapsed later : Duration) (valid : config.check = .ok ()) (fixed : config.retarget = false)
    (workers : 1 ≤ e.workers) (lowest : e.config.mode = .lowest)
    (alone : ∀ number, (script number).replaced = none ∧ (other number).replaced = none)
    (unfired : unused ≠ .fired) (calm : ∀ number, .fire ∉ (other number).schedule) :
    (rounds ≠ 0 ∧ e.hasher.checkInput (salted payload 0) = .ok () →
      ∃ report whole,
        (run config e payload rounds token script elapsed).report = .ok report ∧
        (run config e payload rounds unused other later).report = .ok whole ∧
        whole.cancelled = false ∧ whole.rounds.length = rounds.toNat ∧
        (report.cancelled = true ↔ report.rounds.length < whole.rounds.length) ∧
        report.rounds.map RoundOutcome.record <+: whole.rounds.map RoundOutcome.record) ∧
    (rounds = 0 ∨ e.hasher.checkInput (salted payload 0) ≠ .ok () →
      ∃ cause,
        (run config e payload rounds token script elapsed).report = .error (.invalidInput cause) ∧
        (run config e payload rounds unused other later).report = .error (.invalidInput cause)) := by
  have attempts := SessionConfig.maxAttempts_pos valid
  rw [run_eq, run_eq]
  constructor
  · rintro ⟨some_rounds, taken⟩
    obtain ⟨report, reported, outcomes, -, few, cancelled, -⟩ :=
      runAmid_reports (fun _ => none) config e payload rounds token script elapsed attempts
        some_rounds taken
    obtain ⟨whole, told, all, -, -, ended, -⟩ :=
      runAmid_reports (fun _ => none) config e payload rounds unused other later attempts
        some_rounds taken
    have full : whole.rounds.length = rounds.toNat := by
      rw [all]
      exact (roundsAmid_whole attempts workers unfired calm rounds.toNat taken).2
    refine ⟨report, whole, reported, told, ?_, full, ?_, ?_⟩
    · refine Bool.eq_false_iff.mpr fun early => ?_
      have short := ended.mp early
      omega
    · rw [full]
      exact cancelled
    · obtain ⟨last, chain, -⟩ := roundsAmid_chain (fun _ => none) script config payload e
        rounds.toNat 0 e.target e.ledger token
      obtain ⟨final, onward, -⟩ := roundsAmid_chain (fun _ => none) other config payload e
        rounds.toNat 0 e.target e.ledger unused
      rw [← full, outcomes, all] at few
      rw [outcomes, all]
      exact chain.record_prefix fixed workers lowest (fun number => (alone number).1)
        (fun number => (alone number).2) onward few
  · intro refused
    obtain ⟨cause, always⟩ := runAmid_refused config e payload rounds attempts refused
    exact ⟨cause, (always token script elapsed).1, (always unused other later).1⟩

/-- Four rounds over the byte seven, the third of which is cancelled after a worker has hashed one
nonce. In the other run the second worker goes first. -/
theorem run_cancelled_prefix_of_third :
    ∃ report whole,
      (run { maxAttempts := 9, retarget := false } (Engine.marking [7] .lowest 2) [7] 4 .idle
        (fun number => if number = 2 then { schedule := [.work 0 0, .work 0 0, .fire] } else {})
        .zero).report = .ok report ∧
      (run { maxAttempts := 9, retarget := false } (Engine.marking [7] .lowest 2) [7] 4 .idle
        (fun _ => { schedule := [.work 1 0] }) .zero).report = .ok whole ∧
      report.cancelled = true ∧ report.rounds.length = 2 ∧
      report.rounds.map RoundOutcome.record <+: whole.rounds.map RoundOutcome.record := by
  obtain ⟨reports, -⟩ := run_cancelled_prefix { maxAttempts := 9, retarget := false }
    (Engine.marking [7] .lowest 2) [7] 4 .idle .idle
    (fun number => if number = 2 then { schedule := [.work 0 0, .work 0 0, .fire] } else {})
    (fun _ => { schedule := [.work 1 0] }) .zero .zero rfl rfl (by decide) rfl
    (by intro number; exact ⟨by split <;> rfl, rfl⟩) (by decide) (by intro number; decide)
  obtain ⟨report, whole, reported, told, -, -, -, same⟩ := reports ⟨by decide, rfl⟩
  have seen : (run { maxAttempts := 9, retarget := false } (Engine.marking [7] .lowest 2) [7] 4
      .idle (fun number => if number = 2 then { schedule := [.work 0 0, .work 0 0, .fire] } else {})
      .zero).report.toOption.map (fun report => (report.cancelled, report.rounds.length)) =
      some (true, 2) := by
    decide +kernel
  rw [reported] at seen
  obtain ⟨early, length⟩ := Prod.mk.inj (Option.some.inj seen)
  exact ⟨report, whole, reported, told, early, length, same⟩

end Session
end ProofOfWork
