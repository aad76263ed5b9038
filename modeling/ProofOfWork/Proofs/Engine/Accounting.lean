import ProofOfWork.Proofs.Engine.Answer
import ProofOfWork.Proofs.Search.Count
set_option autoImplicit false

namespace ProofOfWork.Engine
variable {e : Engine} {r : SearchRequest} {c : Circumstances}

/-- The nonces that the search for a request hashes, in order. There are none if it is refused. -/
def hashedIn (e : Engine) (r : SearchRequest) (c : Circumstances) : List Nonce :=
  match e.prepare r with
  | .ok plan => Search.hashed ((plan.counting e.ledger.hashes).moves c.schedule)
  | .error _ => []

theorem hashedIn_refused {fault : Error} (refused : e.prepare r = .error fault) :
    e.hashedIn r c = [] := by
  simp only [hashedIn, refused]

theorem hashedIn_prepared {plan : Search.Plan} (prepared : e.prepare r = .ok plan) :
    e.hashedIn r c = Search.hashed (plan.moves c.schedule) := by
  simp only [hashedIn, prepared, Search.Plan.moves_counting]

theorem hashedIn_nodup (e : Engine) (r : SearchRequest) (c : Circumstances)
    (workers : 1 ≤ e.workers) : (e.hashedIn r c).Nodup := by
  cases prepared : e.prepare r with
  | error fault =>
      rw [hashedIn_refused prepared]
      exact List.nodup_nil
  | ok plan =>
      obtain ⟨rfl, -⟩ := (admits_of_prepare prepared).prepare_eq prepared
      rw [hashedIn_prepared prepared]
      exact Search.Plan.moves_distinct (plan_whole r workers) c.schedule

@[simp] theorem counting_hashes (e : Engine) (hashes : UInt64) :
    (e.counting hashes).ledger.hashes = hashes := rfl

@[simp] theorem refused_hashes (e : Engine) (fault : Error) :
    (e.refused fault).ledger.hashes = e.ledger.hashes := by
  cases fault <;> rfl

/-- Hashes are counted by the workers, not at the end of the search. -/
@[simp] theorem conclude_hashes (e : Engine) (plan : Search.Plan) (course : Search.Course) :
    (e.conclude plan course).2.ledger.hashes = e.ledger.hashes := by
  unfold conclude
  dsimp only
  split
  · rfl
  · cases SearchResult.ofSlot course.board.slot <;> rfl

/-- What a search adds to the engine's count is the number of nonces that it hashes. -/
theorem search_hashes (e : Engine) (r : SearchRequest) (c : Circumstances)
    (workers : 1 ≤ e.workers) :
    ((e.search r c).engine.ledger.hashes - e.ledger.hashes).toNat = (e.hashedIn r c).length := by
  cases prepared : e.prepare r with
  | error fault => simp [search_refused prepared, hashedIn_refused prepared]
  | ok plan =>
      obtain ⟨rfl, -⟩ := (admits_of_prepare prepared).prepare_eq prepared
      have counted := Search.Plan.run_attempts (plan_whole r workers) c.schedule
      simpa [search_prepared prepared, hashedIn_prepared prepared,
        UInt64.add_comm e.ledger.hashes] using counted

theorem plan_range_length (e : Engine) (r : SearchRequest) :
    (e.plan r).range.stop.toNat - (e.plan r).range.first.toNat =
      min (r.start.value.toNat + r.maxAttempts.toNat) (2 ^ 64 - 1) - r.start.value.toNat := by
  have stop := NonceRange.stop_upTo r.start.value r.maxAttempts
  have first := NonceRange.first_upTo r.start.value r.maxAttempts
  simp only [plan, stop, first]

/-- What a search for an admitted request has hashed when it answers: all that is asked for if it
is exhausted, and in a search for the smallest solution all up to the solution. -/
theorem Admits.answer_hashed (admits : e.Admits r) (workers : 1 ≤ e.workers)
    {o : SearchOutcome} (answer : (e.search r c).answer = .ok o) :
    o.attempts.toNat = (e.hashedIn r c).length ∧
    (o.result = .exhausted → (e.hashedIn r c).length =
      min (r.start.value.toNat + r.maxAttempts.toNat) (2 ^ 64 - 1) - r.start.value.toNat) ∧
    (e.config.mode = .lowest → ∀ n digest, o.result = .found n digest →
      (∀ m : Nonce, r.start.value.toNat ≤ m.value.toNat → m.value.toNat ≤ n.value.toNat →
        m ∈ e.hashedIn r c) ∧
      n.value.toNat - r.start.value.toNat + 1 ≤ (e.hashedIn r c).length ∧
      (e.workers = 1 → (e.hashedIn r c).length = n.value.toNat - r.start.value.toNat + 1)) := by
  obtain ⟨unfired, uncancelled, rfl⟩ := admits.answer_cases answer
  have whole := plan_whole r workers
  have first : (e.plan r).range.first = r.start.value := NonceRange.first_upTo _ _
  rw [hashedIn_prepared (admits.prepare_plan unfired)]
  refine ⟨Search.Plan.run_attempts whole c.schedule, ?_, ?_⟩
  · intro exhausted
    have empty := SearchResult.ofSlot_eq_exhausted.mp exhausted
    rw [← plan_range_length]
    exact Search.Plan.run_exhausted_length whole c.schedule uncancelled empty
  · intro lowest n digest found
    have kept := SearchResult.ofSlot_eq_found.mp found
    refine ⟨?_, ?_, ?_⟩
    · intro m low high
      have covered := ((Search.Plan.run_sound whole c.schedule).genuine n digest kept).1
      rw [NonceRange.mem_iff, first] at covered
      exact Search.Plan.run_lowest_hashed whole c.schedule uncancelled lowest kept
        (NonceRange.mem_iff.mpr ⟨by rw [first]; exact low, by omega⟩) high
    · rw [← first]
      exact Search.Plan.run_lowest_length whole c.schedule uncancelled lowest kept
    · intro alone
      have single : (e.plan r).parts.length ≤ 1 := by
        rw [← alone]
        exact NonceRange.length_partition_le _ _
      rw [← first]
      exact Search.Plan.run_single_length whole c.schedule uncancelled lowest kept single

/-- No nonce is hashed twice or outside of the range asked for, and all hashes are counted, by the
search and by the engine, however the search ends. The engine's count is a word, which starts again
at zero after the greatest one; it grows by as much as the search has written down at every moment.
An exhausted search reports the length of its range. A search for the smallest solution has hashed
all nonces up to the one it finds, and a single worker no others. -/
theorem search_counts_hashes (e : Engine) (r : SearchRequest) (c : Circumstances)
    (admits : e.Admits r) (workers : 1 ≤ e.workers) :
    (e.hashedIn r c).Nodup ∧
    (∀ n ∈ e.hashedIn r c, r.Covers n) ∧
    (∀ plan, e.prepare r = .ok plan →
      (plan.run c.schedule).attempts.toNat = (e.hashedIn r c).length ∧
      ∀ soFar : Search.Schedule,
        let board := ((plan.counting e.ledger.hashes).start.after plan.task soFar).board
        board.hashes - e.ledger.hashes = board.attempts) ∧
    ((e.search r c).engine.ledger.hashes - e.ledger.hashes).toNat = (e.hashedIn r c).length ∧
    (e.search r c).engine.ledger.hashes.toNat =
      (e.ledger.hashes.toNat + (e.hashedIn r c).length) % 2 ^ 64 ∧
    (∀ o, (e.search r c).answer = .ok o →
      o.attempts.toNat = (e.hashedIn r c).length ∧
      (o.result = .exhausted → o.attempts.toNat =
        min (r.start.value.toNat + r.maxAttempts.toNat) (2 ^ 64 - 1) - r.start.value.toNat) ∧
      (e.config.mode = .lowest → ∀ n digest, o.result = .found n digest →
        (∀ m : Nonce, r.start.value.toNat ≤ m.value.toNat → m.value.toNat ≤ n.value.toNat →
          m ∈ e.hashedIn r c) ∧
        n.value.toNat - r.start.value.toNat + 1 ≤ o.attempts.toNat ∧
        (e.workers = 1 → o.attempts.toNat = n.value.toNat - r.start.value.toNat + 1))) := by
  have grown := search_hashes e r c workers
  refine ⟨hashedIn_nodup e r c workers, ?_, ?_, grown, ?_, ?_⟩
  · intro n member
    cases prepared : e.prepare r with
    | error fault =>
        rw [hashedIn_refused prepared] at member
        cases member
    | ok plan =>
        obtain ⟨rfl, -⟩ := admits.prepare_eq prepared
        rw [hashedIn_prepared prepared] at member
        exact (mem_plan_range e r n).mp
          (Search.Plan.mem_range_of_hashed (plan_whole r workers) c.schedule member)
  · intro plan prepared
    obtain ⟨rfl, -⟩ := admits.prepare_eq prepared
    rw [hashedIn_prepared prepared]
    refine ⟨Search.Plan.run_attempts (plan_whole r workers) c.schedule, ?_⟩
    intro soFar board
    have both : board.hashes = e.ledger.hashes + board.attempts :=
      ((e.plan r).counting e.ledger.hashes).after_hashes soFar
    rw [both, UInt64.add_comm, UInt64.add_sub_cancel]
  · rw [← grown, ← UInt64.toNat_add, UInt64.add_comm, UInt64.sub_add_cancel]
  · intro o answer
    obtain ⟨counted, exhausted, lowest⟩ := admits.answer_hashed workers answer
    rw [counted]
    exact ⟨rfl, exhausted, lowest⟩

/-- Four workers just below the greatest nonce: of the thousand nonces asked for only nine are there,
and none is a solution. The engine has counted five hashes less than it can, so its count starts
again at zero and comes to four. -/
theorem search_counts_hashes_of_edge :
    ∃ o, (((Engine.marking [] .lowest 4).counting 0xFFFFFFFFFFFFFFFB).search
        { data := [7], start := ⟨0xFFFFFFFFFFFFFFF6⟩, maxAttempts := 1000 }
        { schedule := [.work 3 0, .work 0 0, .work 3 0] }).answer = .ok o ∧
      o.attempts.toNat = 9 ∧
      (((Engine.marking [] .lowest 4).counting 0xFFFFFFFFFFFFFFFB).search
        { data := [7], start := ⟨0xFFFFFFFFFFFFFFF6⟩, maxAttempts := 1000 }
        { schedule := [.work 3 0, .work 0 0, .work 3 0] }).engine.ledger.hashes = 4 := by
  have admits : ((Engine.marking [] .lowest 4).counting 0xFFFFFFFFFFFFFFFB).Admits
      { data := [7], start := ⟨0xFFFFFFFFFFFFFFF6⟩, maxAttempts := 1000 } :=
    ⟨List.cons_ne_nil _ _, by decide, rfl⟩
  obtain ⟨-, -, -, -, ledger, answered⟩ := search_counts_hashes
    ((Engine.marking [] .lowest 4).counting 0xFFFFFFFFFFFFFFFB)
    { data := [7], start := ⟨0xFFFFFFFFFFFFFFF6⟩, maxAttempts := 1000 }
    { schedule := [.work 3 0, .work 0 0, .work 3 0] } admits (by decide)
  have answer := admits.search_untokened (by decide) rfl
    { schedule := [.work 3 0, .work 0 0, .work 3 0] }
  obtain ⟨counted, exhausted, -⟩ := answered _ answer
  have genuine := admits.answer_genuine (by decide) answer
  have empty : (outcome ((Engine.marking [] .lowest 4).counting 0xFFFFFFFFFFFFFFFB)
      { data := [7], start := ⟨0xFFFFFFFFFFFFFFF6⟩, maxAttempts := 1000 }
      { schedule := [.work 3 0, .work 0 0, .work 3 0] }).result = .exhausted := by
    cases result : (outcome ((Engine.marking [] .lowest 4).counting 0xFFFFFFFFFFFFFFFB)
      { data := [7], start := ⟨0xFFFFFFFFFFFFFFF6⟩, maxAttempts := 1000 }
      { schedule := [.work 3 0, .work 0 0, .work 3 0] }).result with
    | exhausted => rfl
    | found n digest =>
        rw [result] at genuine
        exact absurd ((marking_solves [] .lowest 4 _ n).mp genuine.1).2 List.not_mem_nil
  have nine := exhausted empty
  refine ⟨_, answer, nine, UInt64.toNat_inj.mp ?_⟩
  rw [ledger, ← counted, nine]
  rfl

end ProofOfWork.Engine
