import ProofOfWork.Proofs.Engine.Accounting
import ProofOfWork.Proofs.Search.Allowance
set_option autoImplicit false

namespace ProofOfWork.Engine
variable {e : Engine} {r : SearchRequest}

/-- Whatever its data, a request with a fired token is refused. -/
theorem prepare_fired (e : Engine) (fired : r.token = .fired) :
    ∃ fault, e.prepare r = .error fault := by
  cases prepared : e.prepare r with
  | error fault => exact ⟨fault, rfl⟩
  | ok plan => exact absurd fired ((admits_of_prepare prepared).prepare_eq prepared).2

theorem searchOn_refused {m : Type → Type} [Monad m] (host : Host m) {fault : Error}
    (refused : e.prepare r = .error fault) :
    e.searchOn host r = pure ⟨.error fault, e.refused fault, r.token⟩ := by
  simp only [searchOn, refused]

/-- In whatever order the workers take their steps, and whenever the token fires, none of them
hashes more than a batch after that, where a batch is at least one nonce; and if it fired before the
search, nothing is hashed. -/
theorem search_prompt (e : Engine) (r : SearchRequest) (token : r.token ≠ .absent) :
    (r.token = .fired → ∃ fault,
      (∀ (m : Type → Type) [Monad m] (host : Host m),
        e.searchOn host r = pure ⟨.error fault, e.refused fault, .fired⟩) ∧
      ∀ c, e.hashedIn r c = []) ∧
    (∀ plan, e.prepare r = .ok plan → ∀ schedule soFar : Search.Schedule,
      soFar <+: plan.course schedule → .fire ∈ soFar →
        ∃ late, plan.moves schedule = plan.start.moves plan.task soFar ++ late ∧
          ∀ place, (Search.hashedBy place late).length ≤ max e.config.batch.toNat 1) := by
  constructor
  · intro fired
    obtain ⟨fault, refused⟩ := e.prepare_fired fired
    refine ⟨fault, ?_, fun c => hashedIn_refused refused⟩
    intro m _ host
    rw [searchOn_refused host refused, fired]
  · intro plan prepared schedule soFar before fires
    obtain ⟨rfl, -⟩ := (admits_of_prepare prepared).prepare_eq prepared
    have cancellable : (e.plan r).task.cancellable = true := decide_eq_true token
    have batch : (e.plan r).task.batch.toNat = max e.config.batch.toNat 1 :=
      apply_ite UInt64.toNat _ _ _
    obtain ⟨late, moves, few⟩ := (e.plan r).moves_after_fire cancellable
      (by rw [batch]; exact Nat.le_max_right _ _) before (.inr fires)
    rw [batch] at few
    exact ⟨late, moves, few⟩

/-- Two workers on five thousand nonces, with batches of a thousand. The token fires when the first
worker has hashed two nonces and the second has not begun. -/
theorem search_prompt_of_late_start :
    ∃ plan late, (Engine.marking [] .lowest 2).prepare
        { data := [7], start := ⟨0⟩, maxAttempts := 5000, token := .idle } = .ok plan ∧
      plan.moves (List.replicate 5 (.work 0 0) ++ [.fire, .work 1 0]) =
        plan.start.moves plan.task (List.replicate 5 (.work 0 0) ++ [.fire]) ++ late ∧
      ∀ place, (Search.hashedBy place late).length ≤ 1000 := by
  have admits : (Engine.marking [] .lowest 2).Admits
      { data := [7], start := ⟨0⟩, maxAttempts := 5000, token := .idle } :=
    marking_admits _ _ _ (List.cons_ne_nil _ _) (by decide)
  obtain ⟨-, bounded⟩ := search_prompt (Engine.marking [] .lowest 2)
    { data := [7], start := ⟨0⟩, maxAttempts := 5000, token := .idle } nofun
  have before : List.replicate 5 (.work 0 0) ++ [.fire] <+:
      ((Engine.marking [] .lowest 2).plan
        { data := [7], start := ⟨0⟩, maxAttempts := 5000, token := .idle }).course
          (List.replicate 5 (.work 0 0) ++ [.fire, .work 1 0]) :=
    List.IsPrefix.trans (by decide) (List.prefix_append _ _)
  obtain ⟨late, moves, few⟩ := bounded _ (admits.prepare_plan nofun) _ _ before (by decide)
  exact ⟨_, late, admits.prepare_plan nofun, moves, few⟩

end ProofOfWork.Engine
