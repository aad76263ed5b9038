import ProofOfWork.Proofs.Engine.Lowest
import ProofOfWork.Proofs.Search.Token
set_option autoImplicit false

namespace ProofOfWork

def SearchRequest.untokened (r : SearchRequest) : SearchRequest := { r with token := .absent }

namespace Engine
variable {e : Engine} {r : SearchRequest} {c : Circumstances}

theorem Admits.untokened (admits : e.Admits r) : e.Admits r.untokened :=
  ⟨admits.data, admits.attempts, admits.taken⟩

theorem outcome_untokened (uncancelled : (e.boardAfter r c).cancelled = false) :
    e.outcome r.untokened c = e.outcome r c := by
  have same : e.boardAfter r.untokened c = e.boardAfter r c :=
    Search.Plan.run_untokened c.schedule uncancelled
  simp only [outcome, same]

/-- A cancelled search has seen its token, which had fired by then. -/
theorem fired_of_cancelled (workers : 1 ≤ e.workers)
    (cancelled : (e.boardAfter r c).cancelled = true) :
    r.token ≠ .absent ∧ .fire ∈ c.schedule := by
  have sound := Search.Plan.run_sound (plan_whole r workers) c.schedule
  obtain ⟨cancellable, fired⟩ := sound.cancelled cancelled
  constructor
  · simpa only [plan, decide_eq_true_eq] using cancellable
  · rcases (Search.Plan.run_fired _ _).mp fired with before | fires
    · cases before
    · exact fires

theorem Admits.token_of_cancelled (admits : e.Admits r) (unfired : r.token ≠ .fired)
    (workers : 1 ≤ e.workers) (cancelled : (e.boardAfter r c).cancelled = true) :
    (e.search r c).token = .fired := by
  have sound := Search.Plan.run_sound (plan_whole r workers) c.schedule
  have fired := (sound.cancelled cancelled).2
  rw [search_prepared (admits.prepare_plan unfired)]
  simp only [fired, if_true]

theorem Admits.error_fired (admits : e.Admits r) (workers : 1 ≤ e.workers) {fault : Error}
    (answer : (e.search r c).answer = .error fault) : r.token = .fired ∨ .fire ∈ c.schedule := by
  by_cases fired : r.token = .fired
  · exact .inl fired
  · cases cancelled : (e.boardAfter r c).cancelled with
    | true => exact .inr (fired_of_cancelled workers cancelled).2
    | false =>
        rw [admits.search_uncancelled fired cancelled] at answer
        cases answer

/-- A token that has fired after a search had fired before, or it fired in the search. -/
theorem token_fired (after : (e.search r c).token = .fired) :
    r.token = .fired ∨ .fire ∈ c.schedule := by
  cases prepared : e.prepare r with
  | error fault =>
      rw [search_refused prepared] at after
      exact .inl after
  | ok plan =>
      obtain ⟨rfl, -⟩ := (admits_of_prepare prepared).prepare_eq prepared
      rw [search_prepared prepared] at after
      dsimp only at after
      split at after
      · rename_i fired
        exact .inr (((Search.Plan.run_fired _ _).mp fired).resolve_left nofun)
      · exact .inl after

/-- A search whose token fires at any moment, or never, is cancelled because it fired, or has the
same answer as without a token; and it is exhausted only after every nonce was hashed and
rejected. -/
theorem search_cancelled_or_untokened (e : Engine) (r : SearchRequest) (c : Circumstances)
    (admits : e.Admits r) (workers : 1 ≤ e.workers) :
    ((e.search r c).answer = .error (.cancelled "mining") ∧ (e.search r c).token = .fired ∧
      (r.token = .fired ∨ r.token = .idle ∧ .fire ∈ c.schedule)) ∨
    ∃ o, (e.search r c).answer = .ok o ∧ (e.search r.untokened c).answer = .ok o ∧
      (e.config.mode = .lowest → ∀ other : Circumstances,
        ∃ o', (e.search r.untokened other).answer = .ok o' ∧ o'.result = o.result) ∧
      (e.config.mode = .firstFound → ∀ n digest, o.result = .found n digest →
        e.Solves r n ∧ digest = e.hasher.digest r.data n) ∧
      (o.result = .exhausted → ∀ n, r.Covers n →
        n ∈ Search.hashed ((e.plan r).moves c.schedule) ∧
          e.target.accepts (e.hasher.digest r.data n) = false) := by
  by_cases before : r.token = .fired
  · obtain ⟨answer, token⟩ := admits.search_fired before c
    exact .inl ⟨answer, token, .inl before⟩
  · cases cancelled : (e.boardAfter r c).cancelled with
    | true =>
        refine .inl ⟨admits.search_cancelled before cancelled,
          admits.token_of_cancelled before workers cancelled, .inr ?_⟩
        obtain ⟨present, fires⟩ := fired_of_cancelled workers cancelled
        refine ⟨?_, fires⟩
        cases token : r.token with
        | absent => exact absurd token present
        | idle => rfl
        | fired => exact absurd token before
    | false =>
        refine .inr ⟨e.outcome r c, admits.search_uncancelled before cancelled, ?_, ?_, ?_, ?_⟩
        · rw [admits.untokened.search_untokened workers rfl c, outcome_untokened cancelled]
        · intro lowest other
          refine ⟨e.outcome r.untokened other,
            admits.untokened.search_untokened workers rfl other, ?_⟩
          have free := boardAfter_uncancelled (r := r.untokened) workers rfl other
          exact (outcome_lowest workers lowest free).unique
            (outcome_lowest workers lowest cancelled)
        · intro _ n digest found
          have genuine := outcome_genuine workers cancelled
          rw [found] at genuine
          exact genuine
        · intro exhausted n covered
          have empty : (e.boardAfter r c).slot = none := by
            cases slot : (e.boardAfter r c).slot with
            | none => rfl
            | some kept =>
                have found : SearchResult.ofSlot (e.boardAfter r c).slot = .exhausted := exhausted
                rw [slot] at found
                cases found
          exact Search.Plan.run_exhausted (plan_whole r workers) c.schedule cancelled empty
            ((mem_plan_range e r n).mpr covered)

/-- The token fires while two workers are under way, one of which has just reported a solution that
is not the smallest. -/
theorem search_cancelled_or_untokened_of_midway :
    ((Engine.marking [1, 8] .lowest 2).search
        { data := [7], start := ⟨0⟩, maxAttempts := 9, token := .idle }
        { schedule := List.replicate 16 (.work 1 0) ++ [.work 0 0, .fire] }).answer =
          .error (.cancelled "mining") ∨
      ∃ o, ((Engine.marking [1, 8] .lowest 2).search
        { data := [7], start := ⟨0⟩, maxAttempts := 9, token := .idle }
        { schedule := List.replicate 16 (.work 1 0) ++ [.work 0 0, .fire] }).answer = .ok o ∧
        ((Engine.marking [1, 8] .lowest 2).search
          { data := [7], start := ⟨0⟩, maxAttempts := 9 } {}).answer.map (fun o => o.result) =
            .ok o.result := by
  have admits : (Engine.marking [1, 8] .lowest 2).Admits
      { data := [7], start := ⟨0⟩, maxAttempts := 9, token := .idle } :=
    marking_admits _ _ _ (List.cons_ne_nil _ _) (by decide)
  have either := search_cancelled_or_untokened (Engine.marking [1, 8] .lowest 2)
    { data := [7], start := ⟨0⟩, maxAttempts := 9, token := .idle }
    { schedule := List.replicate 16 (.work 1 0) ++ [.work 0 0, .fire] } admits (by decide)
  rcases either with ⟨cancelled, -⟩ | ⟨o, answer, -, same, -⟩
  · exact .inl cancelled
  · refine .inr ⟨o, answer, ?_⟩
    obtain ⟨o', untokened, result⟩ := same rfl {}
    have plain : ((Engine.marking [1, 8] .lowest 2).search
        { data := [7], start := ⟨0⟩, maxAttempts := 9 } {}).answer = .ok o' := untokened
    rw [plain, ← result]
    rfl

end Engine
end ProofOfWork
