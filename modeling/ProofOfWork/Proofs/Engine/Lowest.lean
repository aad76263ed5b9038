import ProofOfWork.Proofs.Engine.Answer
set_option autoImplicit false

namespace ProofOfWork

/-- Whether a result names the smallest solution with its digest, or says that there is none. -/
def SearchResult.Lowest (solves : Nonce → Prop) (digest : Nonce → Digest) : SearchResult → Prop
  | .found n d => solves n ∧ d = digest n ∧ ∀ m, solves m → n.value.toNat ≤ m.value.toNat
  | .exhausted => ∀ m, ¬ solves m

theorem SearchResult.Lowest.unique {solves : Nonce → Prop} {digest : Nonce → Digest}
    {a b : SearchResult} (ha : a.Lowest solves digest) (hb : b.Lowest solves digest) : a = b := by
  cases a with
  | exhausted =>
      cases b with
      | exhausted => rfl
      | found n d => exact absurd hb.1 (ha n)
  | found m c =>
      cases b with
      | exhausted => exact absurd ha.1 (hb m)
      | found n d =>
          obtain ⟨solved, rfl, least⟩ := ha
          obtain ⟨other, rfl, smallest⟩ := hb
          have up := least n other
          have down := smallest m solved
          rw [Nonce.eq_of_toNat (show m.value.toNat = n.value.toNat by omega)]

theorem SearchResult.Lowest.eq_iff {solves : Nonce → Prop} {digest : Nonce → Digest}
    {a : SearchResult} (ha : a.Lowest solves digest) (b : SearchResult) :
    a = b ↔ b.Lowest solves digest := by
  constructor
  · rintro rfl
    exact ha
  · exact ha.unique

namespace Search

/-- The plain search: so many nonces, one after another, up to the first that is accepted. -/
def ascending (digest : Nonce → Digest) (target : Target) : Nat → Nonce → SearchResult
  | 0, _ => .exhausted
  | count + 1, n =>
    if target.accepts (digest n) then .found n (digest n)
    else ascending digest target count ⟨n.value + 1⟩

theorem ascending_lowest (digest : Nonce → Digest) (target : Target) (count : Nat) (first : Nonce)
    (fits : first.value.toNat + count < 2 ^ 64) :
    (ascending digest target count first).Lowest
      (fun n => (first.value.toNat ≤ n.value.toNat ∧
        n.value.toNat < first.value.toNat + count) ∧ target.accepts (digest n) = true) digest := by
  -- on the nonces that are left, of which the first is tried
  induction count generalizing first with
  | zero =>
      rintro n ⟨range, -⟩
      omega
  | succ count ih =>
      rw [ascending]
      split
      · rename_i accepted
        refine ⟨⟨⟨Nat.le_refl _, by omega⟩, accepted⟩, rfl, ?_⟩
        rintro m ⟨range, -⟩
        exact range.1
      · rename_i rejected
        have next : (first.value + 1).toNat = first.value.toNat + 1 :=
          add_toNat (by rw [UInt64.toNat_one]; omega)
        have rest := ih ⟨first.value + 1⟩ (by dsimp only; omega)
        have shifted : ∀ n : Nonce,
            ((first.value + 1).toNat ≤ n.value.toNat ∧
              n.value.toNat < (first.value + 1).toNat + count) ∧
                target.accepts (digest n) = true ↔
            (first.value.toNat ≤ n.value.toNat ∧
              n.value.toNat < first.value.toNat + (count + 1)) ∧
                target.accepts (digest n) = true := by
          intro n
          by_cases here : n.value.toNat = first.value.toNat
          · have same := Nonce.eq_of_toNat here
            subst same
            simp only [rejected, and_false, Bool.false_eq_true]
          · rw [next]
            exact and_congr_left fun _ => by omega
        simpa only [shifted] using rest

end Search

namespace Engine
variable {e : Engine} {r : SearchRequest} {c : Circumstances}

def plain (e : Engine) (r : SearchRequest) : SearchResult :=
  Search.ascending (e.hasher.digest r.data) e.target
    (min (r.start.value.toNat + r.maxAttempts.toNat) (2 ^ 64 - 1) - r.start.value.toNat) r.start

theorem plain_lowest (e : Engine) (r : SearchRequest) :
    (e.plain r).Lowest (e.Solves r) (e.hasher.digest r.data) := by
  have low := r.start.value.toNat_lt
  have length : r.start.value.toNat +
      (min (r.start.value.toNat + r.maxAttempts.toNat) (2 ^ 64 - 1) - r.start.value.toNat) =
        min (r.start.value.toNat + r.maxAttempts.toNat) (2 ^ 64 - 1) := by omega
  have lowest := Search.ascending_lowest (e.hasher.digest r.data) e.target
    (min (r.start.value.toNat + r.maxAttempts.toNat) (2 ^ 64 - 1) - r.start.value.toNat) r.start
    (by omega)
  rw [length] at lowest
  exact lowest

/-- A search that is not cancelled finds the smallest solution. -/
theorem outcome_lowest (workers : 1 ≤ e.workers) (lowest : e.config.mode = .lowest)
    (uncancelled : (e.boardAfter r c).cancelled = false) :
    (e.outcome r c).result.Lowest (e.Solves r) (e.hasher.digest r.data) := by
  have genuine : SearchResult.Genuine _ _ (.ofSlot (e.boardAfter r c).slot) :=
    outcome_genuine workers uncancelled
  have result : (e.outcome r c).result = .ofSlot (e.boardAfter r c).slot := rfl
  rw [result]
  cases slot : (e.boardAfter r c).slot with
  | none =>
      rw [slot] at genuine
      exact genuine
  | some kept =>
      rw [slot] at genuine
      refine ⟨genuine.1, genuine.2, ?_⟩
      intro m solved
      obtain ⟨inside, taken⟩ := (solves_iff e r m).mp solved
      exact Search.Plan.run_least (plan_whole r workers) c.schedule uncancelled lowest slot
        inside taken

/-- The outcome of an admitted request in the mode for the smallest solution. -/
theorem Admits.answer_lowest (admits : e.Admits r) (workers : 1 ≤ e.workers)
    (lowest : e.config.mode = .lowest) {o : SearchOutcome}
    (answer : (e.search r c).answer = .ok o) :
    o.result.Lowest (e.Solves r) (e.hasher.digest r.data) := by
  obtain ⟨-, uncancelled, rfl⟩ := admits.answer_cases answer
  exact outcome_lowest workers lowest uncancelled

/-- Among all orders of the workers' steps, and however old the bounds are that they see, a search
for the smallest solution ends with the result of the plain search. Data that the hasher does not
take is refused. -/
theorem search_eq_plain (e : Engine) (r : SearchRequest) (c : Circumstances)
    (lowest : e.config.mode = .lowest) (untokened : r.token = .absent) (data : r.data ≠ [])
    (attempts : 1 ≤ r.maxAttempts.toNat) (workers : 1 ≤ e.workers) :
    (∀ fault, e.hasher.checkInput r.data = .error fault →
      (e.search r c).answer = .error fault) ∧
    (e.hasher.checkInput r.data = .ok () →
      ∃ o, (e.search r c).answer = .ok o ∧ o.result = e.plain r ∧
        (∀ n digest, o.result = .found n digest ↔
          e.Solves r n ∧ digest = e.hasher.digest r.data n ∧
            ∀ m, e.Solves r m → n.value.toNat ≤ m.value.toNat) ∧
        (o.result = .exhausted ↔ ∀ n, ¬ e.Solves r n)) := by
  constructor
  · intro fault refused
    rw [search_refused (prepare_refused data attempts refused)]
  · intro taken
    have admits : e.Admits r := ⟨data, attempts, taken⟩
    have result := outcome_lowest workers lowest (boardAfter_uncancelled workers untokened c)
    refine ⟨e.outcome r c, admits.search_untokened workers untokened c,
      result.unique (e.plain_lowest r), ?_, ?_⟩
    · intro n digest
      exact result.eq_iff (.found n digest)
    · exact result.eq_iff .exhausted

/-- Three workers on nine nonces, of which the second and the last are solutions. The worker on the
last three nonces goes first and reports before the others have begun. -/
theorem search_eq_plain_of_late_report :
    ∃ o, ((Engine.marking [1, 8] .lowest 3).search
        { data := [7], start := ⟨0⟩, maxAttempts := 9 }
        { schedule := List.replicate 12 (.work 2 0) ++ [.work 0 0, .work 1 5] }).answer = .ok o ∧
      o.result = .found ⟨1⟩ ⟨.zero⟩ := by
  obtain ⟨-, answer⟩ := search_eq_plain (Engine.marking [1, 8] .lowest 3)
    { data := [7], start := ⟨0⟩, maxAttempts := 9 }
    { schedule := List.replicate 12 (.work 2 0) ++ [.work 0 0, .work 1 5] }
    rfl rfl (List.cons_ne_nil _ _) (by decide) (by decide)
  obtain ⟨o, ok, plain, -⟩ := answer rfl
  refine ⟨o, ok, ?_⟩
  rw [plain]
  decide +kernel

end Engine
end ProofOfWork
