import ProofOfWork.Proofs.Engine.Answer
set_option autoImplicit false

namespace ProofOfWork

theorem Verdict.of_eq_valid_iff (hasher : Hasher) (target : Target) (data : List UInt8) (n : Nonce)
    (claimed : Digest) :
    Verdict.of hasher target data n claimed = .valid ↔
      hasher.digest data n = claimed ∧ target.accepts (hasher.digest data n) = true := by
  simp only [Verdict.of]
  split
  · rename_i differs
    exact ⟨nofun, fun valid => absurd valid.1 differs⟩
  · rename_i agrees
    rw [ne_eq, Decidable.not_not] at agrees
    split
    · rename_i accepted
      exact ⟨fun _ => ⟨agrees, accepted⟩, fun _ => rfl⟩
    · rename_i rejected
      exact ⟨nofun, fun valid => absurd valid.2 rejected⟩

theorem Verdict.of_digest (hasher : Hasher) (target : Target) (data : List UInt8) (n : Nonce) :
    Verdict.of hasher target data n (hasher.digest data n) =
      if target.accepts (hasher.digest data n) then .valid else .aboveTarget := by
  simp only [Verdict.of, ne_eq, not_true_eq_false, if_false]

namespace Engine
variable {e : Engine} {r : SearchRequest} {c : Circumstances}

theorem search_keeps (held : c.replaced = none) :
    (e.search r c).engine.hasher = e.hasher ∧ (e.search r c).engine.target = e.target := by
  cases prepared : e.prepare r with
  | error fault =>
      rw [search_refused prepared]
      cases fault <;> exact ⟨rfl, rfl⟩
  | ok plan =>
      rw [search_prepared prepared]
      simp only [conclude, held, Option.getD_none]
      split <;> exact ⟨rfl, rfl⟩

/-- A single nonce below the greatest one is all that a search of one nonce covers. -/
theorem single_covers {data : List UInt8} {n : Nonce} (below : n.value.toNat < 2 ^ 64 - 1)
    (m : Nonce) :
    ({ data, start := n, maxAttempts := 1 } : SearchRequest).Covers m ↔ m = n := by
  constructor
  · rintro ⟨low, high⟩
    simp only [UInt64.toNat_one] at low high
    exact Nonce.eq_of_toNat (by omega)
  · rintro rfl
    refine ⟨Nat.le_refl _, ?_⟩
    simp only [UInt64.toNat_one]
    omega

theorem mineFrom_single_iff (workers : 1 ≤ e.workers) {data : List UInt8} (some_data : data ≠ [])
    (taken : e.hasher.checkInput data = .ok ()) (c : Circumstances) {n : Nonce}
    (below : n.value.toNat < 2 ^ 64 - 1) (claimed : Digest) :
    e.mineFrom data n 1 c = .ok (.found n claimed) ↔
      e.hasher.digest data n = claimed ∧ e.target.accepts (e.hasher.digest data n) = true := by
  have admits : e.Admits { data, start := n, maxAttempts := 1 } :=
    ⟨some_data, Nat.le_refl 1, taken⟩
  have answer := admits.search_untokened workers rfl c
  have genuine := admits.answer_genuine workers answer
  have solves (m : Nonce) : e.Solves { data, start := n, maxAttempts := 1 } m ↔
      m = n ∧ e.target.accepts (e.hasher.digest data m) = true := by
    simp only [Solves, single_covers below]
  have mined : e.mineFrom data n 1 c =
      .ok (e.outcome { data, start := n, maxAttempts := 1 } c).result := by
    rw [mineFrom, answer]
    rfl
  rw [mined, Except.ok.injEq]
  cases result : (e.outcome { data, start := n, maxAttempts := 1 } c).result with
  | found m digest =>
      rw [result] at genuine
      obtain ⟨solved, rfl⟩ := genuine
      obtain ⟨rfl, accepted⟩ := (solves m).mp solved
      simp only [SearchResult.found.injEq, true_and, accepted, and_true]
  | exhausted =>
      rw [result] at genuine
      constructor
      · intro same
        cases same
      · intro valid
        exact absurd ((solves n).mpr ⟨rfl, valid.2⟩) (genuine n)

/-- The engine and the check of claims accept the same solutions. -/
theorem search_agrees_with_verdict (e : Engine) (r : SearchRequest) (c : Circumstances)
    (admits : e.Admits r) (workers : 1 ≤ e.workers) (held : c.replaced = none) :
    (∀ o n digest, (e.search r c).answer = .ok o → o.result = .found n digest →
      (e.search r c).engine.verdict r.data n digest = .valid) ∧
    (∀ (n : Nonce) (claimed : Digest), n.value.toNat < 2 ^ 64 - 1 → ∀ other : Circumstances,
      (e.verdict r.data n claimed = .valid ↔
        e.mineFrom r.data n 1 other = .ok (.found n claimed))) ∧
    (∀ n claimed, r.Covers n → e.verdict r.data n claimed = .valid →
      (∀ o, (e.search r c).answer = .ok o → o.result.isFound = true) ∧
      (r.token = .absent → ∃ o, (e.search r c).answer = .ok o ∧ o.result.isFound = true)) := by
  refine ⟨?_, ?_, ?_⟩
  · intro o n digest answer found
    have genuine := admits.answer_genuine workers answer
    rw [found] at genuine
    obtain ⟨⟨-, accepted⟩, rfl⟩ := genuine
    obtain ⟨hasher, target⟩ := e.search_keeps held
    rw [verdict, hasher, target, Verdict.of_eq_valid_iff]
    exact ⟨rfl, accepted⟩
  · intro n claimed below other
    rw [verdict, Verdict.of_eq_valid_iff,
      mineFrom_single_iff workers admits.data admits.taken other below]
  · intro n claimed covered valid
    rw [verdict, Verdict.of_eq_valid_iff] at valid
    have solved : ∃ m, e.Solves r m := ⟨n, covered, valid.2⟩
    constructor
    · intro o answer
      exact (admits.answer_genuine workers answer).isFound_iff.mpr solved
    · intro untokened
      have answer := admits.search_untokened workers untokened c
      exact ⟨_, answer, (admits.answer_genuine workers answer).isFound_iff.mpr solved⟩

/-- Two workers on five nonces, of which the fourth is a solution. -/
theorem search_agrees_with_verdict_of_mark :
    (Engine.marking [3] .lowest 2).mineFrom [7] ⟨3⟩ 1 {} = .ok (.found ⟨3⟩ ⟨.zero⟩) ∧
      ∃ o, ((Engine.marking [3] .lowest 2).search
        { data := [7], start := ⟨0⟩, maxAttempts := 5 }
        { schedule := [.work 1 0, .work 0 0] }).answer = .ok o ∧ o.result.isFound = true := by
  have admits : (Engine.marking [3] .lowest 2).Admits
      { data := [7], start := ⟨0⟩, maxAttempts := 5 } :=
    marking_admits _ _ _ (List.cons_ne_nil _ _) (by decide)
  obtain ⟨-, alone, covering⟩ := search_agrees_with_verdict (Engine.marking [3] .lowest 2)
    { data := [7], start := ⟨0⟩, maxAttempts := 5 } { schedule := [.work 1 0, .work 0 0] }
    admits (by decide) rfl
  have valid : (Engine.marking [3] .lowest 2).verdict [7] ⟨3⟩ ⟨.zero⟩ = .valid := by decide
  exact ⟨(alone ⟨3⟩ ⟨.zero⟩ (by decide) {}).mp valid,
    (covering ⟨3⟩ ⟨.zero⟩ ⟨by decide, by decide⟩ valid).2 rfl⟩

end Engine
end ProofOfWork
