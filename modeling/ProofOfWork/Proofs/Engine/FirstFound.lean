import ProofOfWork.Proofs.Engine.Answer
set_option autoImplicit false

namespace ProofOfWork.Engine

/-- In every order of the workers' steps a search for any solution ends with the first one that was
reported, which no later report replaces, and it finds one whenever there is one. Data that the
hasher does not take is refused. -/
theorem search_eq_first_report (e : Engine) (r : SearchRequest) (c : Circumstances)
    (first : e.config.mode = .firstFound) (untokened : r.token = .absent) (data : r.data ≠ [])
    (attempts : 1 ≤ r.maxAttempts.toNat) (workers : 1 ≤ e.workers) :
    (∀ fault, e.hasher.checkInput r.data = .error fault →
      (e.search r c).answer = .error fault) ∧
    (e.hasher.checkInput r.data = .ok () →
      ∃ o, (e.search r c).answer = .ok o ∧ o.target = e.target ∧
        (o.result.isFound = true ↔ ∃ n, e.Solves r n) ∧
        (∀ n digest, o.result = .found n digest →
          e.Solves r n ∧ digest = e.hasher.digest r.data n) ∧
        o.result = .ofSlot (Search.reports ((e.plan r).moves c.schedule)).head? ∧
        ∀ soFar : Search.Schedule,
          ((e.plan r).start.after (e.plan r).task soFar).board.slot =
            (Search.reports ((e.plan r).start.moves (e.plan r).task soFar)).head?) := by
  constructor
  · intro fault refused
    rw [search_refused (prepare_refused data attempts refused)]
  · intro taken
    have admits : e.Admits r := ⟨data, attempts, taken⟩
    have genuine := outcome_genuine workers (boardAfter_uncancelled workers untokened c)
    refine ⟨e.outcome r c, admits.search_untokened workers untokened c, rfl,
      genuine.isFound_iff, ?_, ?_, Search.Plan.slot_first first⟩
    · intro n digest found
      rw [found] at genuine
      exact genuine
    · exact congrArg SearchResult.ofSlot (Search.Plan.run_first first c.schedule)

/-- Three workers on nine nonces, of which the second and the last are solutions. The worker on the
last three nonces goes first and reports, and only then the first worker comes to the second
nonce. -/
theorem search_eq_first_report_of_race :
    ∃ o, ((Engine.marking [1, 8] .firstFound 3).search
        { data := [7], start := ⟨0⟩, maxAttempts := 9 }
        { schedule := List.replicate 6 (.work 0 0) ++ List.replicate 12 (.work 2 0) }).answer =
          .ok o ∧ o.result.isFound = true := by
  obtain ⟨-, answer⟩ := search_eq_first_report (Engine.marking [1, 8] .firstFound 3)
    { data := [7], start := ⟨0⟩, maxAttempts := 9 }
    { schedule := List.replicate 6 (.work 0 0) ++ List.replicate 12 (.work 2 0) }
    rfl rfl (List.cons_ne_nil _ _) (by decide) (by decide)
  obtain ⟨o, ok, -, found, -⟩ := answer rfl
  have solves : (Engine.marking [1, 8] .firstFound 3).Solves
      { data := [7], start := ⟨0⟩, maxAttempts := 9 } ⟨1⟩ := ⟨⟨by decide, by decide⟩, by decide⟩
  exact ⟨o, ok, found.mpr ⟨⟨1⟩, solves⟩⟩

end ProofOfWork.Engine
