import ProofOfWork.Proofs.Engine.Lowest
import ProofOfWork.Proofs.Word256
set_option autoImplicit false

namespace ProofOfWork

theorem SearchResult.Lowest.of_more {few more : Nonce → Prop} {digest : Nonce → Digest}
    {a b : SearchResult} (of_few : a.Lowest few digest) (of_more : b.Lowest more digest)
    (included : ∀ n, few n → more n) :
    (∀ n d, a = .found n d → ∃ m c, b = .found m c ∧ m.value ≤ n.value) ∧
    (b = .exhausted → a = .exhausted) := by
  constructor
  · rintro n d rfl
    have solved := included n of_few.1
    cases b with
    | exhausted => exact absurd solved (of_more n)
    | found m c => exact ⟨m, c, rfl, UInt64.le_iff_toNat_le.mpr (of_more.2.2 n solved)⟩
  · rintro rfl
    cases a with
    | exhausted => rfl
    | found n d => exact absurd (included n of_few.1) (of_more n)

namespace Engine
variable {tight loose : Engine} {r : SearchRequest}

theorem Admits.of_hasher (admits : tight.Admits r) (same : loose.hasher = tight.hasher) :
    loose.Admits r := ⟨admits.data, admits.attempts, same ▸ admits.taken⟩

theorem Solves.looser (same : loose.hasher = tight.hasher) (looser : tight.target ≤ loose.target)
    {n : Nonce} (solved : tight.Solves r n) : loose.Solves r n := by
  rw [Solves, same]
  exact ⟨solved.1, Target.accepts_mono looser solved.2⟩

/-- If a search against a tight target finds a solution, the one against a looser target finds one
that is no greater; if that one is exhausted, so is the one against the tight target. -/
theorem search_tightens (tight loose : Engine) (same : loose.hasher = tight.hasher)
    (looser : tight.target ≤ loose.target) (lowest : tight.config.mode = .lowest)
    (lowest' : loose.config.mode = .lowest) (workers : 1 ≤ tight.workers)
    (workers' : 1 ≤ loose.workers) (r : SearchRequest) (untokened : r.token = .absent)
    (c c' : Circumstances) :
    (∀ o n digest, (tight.search r c).answer = .ok o → o.result = .found n digest →
      ∃ o' m digest', (loose.search r c').answer = .ok o' ∧ o'.result = .found m digest' ∧
        m.value ≤ n.value) ∧
    (∀ o', (loose.search r c').answer = .ok o' → o'.result = .exhausted →
      ∃ o, (tight.search r c).answer = .ok o ∧ o.result = .exhausted) := by
  have included : ∀ n, tight.Solves r n → loose.Solves r n := fun _ => Solves.looser same looser
  have compared (admits : tight.Admits r) (admits' : loose.Admits r) :=
    SearchResult.Lowest.of_more
      (admits.answer_lowest workers lowest (admits.search_untokened workers untokened c))
      (same ▸ admits'.answer_lowest workers' lowest'
        (admits'.search_untokened workers' untokened c')) included
  constructor
  · intro o n digest answer found
    have admits := admits_of_answer answer
    have admits' := admits.of_hasher same
    obtain ⟨-, -, rfl⟩ := admits.answer_cases answer
    obtain ⟨m, digest', found', le⟩ := (compared admits admits').1 n digest found
    exact ⟨_, m, digest', admits'.search_untokened workers' untokened c', found', le⟩
  · intro o' answer exhausted
    have admits' := admits_of_answer answer
    have admits := admits'.of_hasher same.symm
    obtain ⟨-, -, rfl⟩ := admits'.answer_cases answer
    exact ⟨_, admits.search_untokened workers untokened c,
      (compared admits admits').2 exhausted⟩

/-- The target zero has the fourth nonce as its solution, and the greatest target has all of them;
the searches run on three workers and on two. -/
theorem search_tightens_of_mark :
    Target.zero ≤ Target.max ∧
    ∃ o m digest, (({ Engine.marking [3] .lowest 2 with target := .max } : Engine).search
        { data := [7], start := ⟨0⟩, maxAttempts := 9 }
        { schedule := List.replicate 4 (.work 1 0) }).answer = .ok o ∧
      o.result = .found m digest ∧ m.value ≤ 3 := by
  have looser : Target.zero ≤ Target.max := by
    rw [Target.le_iff, Target.value_zero]
    exact Nat.zero_le _
  refine ⟨looser, ?_⟩
  have admits : (Engine.marking [3] .lowest 3).Admits
      { data := [7], start := ⟨0⟩, maxAttempts := 9 } :=
    marking_admits _ _ _ (List.cons_ne_nil _ _) (by decide)
  have answer := admits.search_untokened (by decide) rfl { schedule := [.work 2 0, .work 0 0] }
  have genuine := admits.answer_genuine (by decide) answer
  obtain ⟨finds, -⟩ := search_tightens (Engine.marking [3] .lowest 3)
    { Engine.marking [3] .lowest 2 with target := .max } rfl looser rfl rfl (by decide) (by decide)
    { data := [7], start := ⟨0⟩, maxAttempts := 9 } rfl { schedule := [.work 2 0, .work 0 0] }
    { schedule := List.replicate 4 (.work 1 0) }
  cases result : (outcome (Engine.marking [3] .lowest 3)
      { data := [7], start := ⟨0⟩, maxAttempts := 9 }
      { schedule := [.work 2 0, .work 0 0] }).result with
  | exhausted =>
      rw [result] at genuine
      exact absurd ((marking_solves _ _ _ _ ⟨3⟩).mpr ⟨⟨by decide, by decide⟩, by decide⟩)
        (genuine ⟨3⟩)
  | found n digest =>
      rw [result] at genuine
      obtain ⟨o, m, digest', found, result', le⟩ := finds _ n digest answer result
      have marked := List.mem_singleton.mp ((marking_solves _ _ _ _ n).mp genuine.1).2
      exact ⟨o, m, digest', found, result', marked ▸ le⟩

end Engine
end ProofOfWork
