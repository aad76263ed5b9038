import ProofOfWork.Proofs.Engine.Accounting
import ProofOfWork.Proofs.Engine.Lowest
set_option autoImplicit false

namespace ProofOfWork

/-- The nonces that a result tells of: those up to the solution, or all if there is none. -/
def SearchResult.Reaches : SearchResult → Nonce → Prop
  | .found m _, n => n.value.toNat ≤ m.value.toNat
  | .exhausted, _ => True

section
variable {whole early late : Nonce → Prop} {digest : Nonce → Digest} {all first rest : SearchResult}

/-- If there are solutions among the first nonces, the smallest of these is the smallest of all. -/
theorem SearchResult.Lowest.of_early (cut : ∀ m, whole m ↔ early m ∨ late m)
    (apart : ∀ m n, early m → late n → m.value.toNat < n.value.toNat) {n : Nonce} {d : Digest}
    (lowest : (SearchResult.found n d).Lowest early digest) :
    (SearchResult.found n d).Lowest whole digest := by
  obtain ⟨solved, same, least⟩ := lowest
  refine ⟨(cut n).mpr (.inl solved), same, ?_⟩
  intro m other
  rcases (cut m).mp other with before | after
  · exact least m before
  · exact Nat.le_of_lt (apart n m solved after)

theorem SearchResult.Lowest.of_late (cut : ∀ m, whole m ↔ early m ∨ late m)
    (nothing : ∀ m, ¬ early m) (lowest : rest.Lowest late digest) : rest.Lowest whole digest := by
  have same : whole = late := by
    funext m
    rw [cut m, eq_false (nothing m), false_or]
  rwa [same]

/-- The lowest result is that of the first nonces, or that of the others if the first hold none. -/
theorem SearchResult.Lowest.resume (of_all : all.Lowest whole digest)
    (of_first : first.Lowest early digest) (of_rest : rest.Lowest late digest)
    (cut : ∀ m, whole m ↔ early m ∨ late m)
    (apart : ∀ m n, early m → late n → m.value.toNat < n.value.toNat) :
    (∃ n d, first = .found n d ∧ early n) ∧ all = first ∨ first = .exhausted ∧ all = rest := by
  cases first with
  | found n d => exact .inl ⟨⟨n, d, rfl, of_first.1⟩, of_all.unique (of_first.of_early cut apart)⟩
  | exhausted => exact .inr ⟨rfl, of_all.unique (of_rest.of_late cut of_first)⟩

end

/-- The nonces of a request, cut after the first so many. -/
structure SearchRequest.Cut (whole early late : SearchRequest) : Prop where
  covers : ∀ n, whole.Covers n ↔ early.Covers n ∨ late.Covers n
  apart : ∀ m n, early.Covers m → late.Covers n → m.value.toNat < n.value.toNat

theorem SearchRequest.cut_at (data : List UInt8) (start : Nonce) {a b : UInt64}
    (sum : a.toNat + b.toNat ≤ 2 ^ 64 - 1) (inside : start.value.toNat + a.toNat ≤ 2 ^ 64 - 1) :
    SearchRequest.Cut { data, start, maxAttempts := a + b } { data, start, maxAttempts := a }
      { data, start := ⟨start.value + a⟩, maxAttempts := b } := by
  have total := add_toNat (a := a) (b := b) (by omega)
  have next := add_toNat (a := start.value) (b := a) (by omega)
  constructor
  · intro n
    simp only [Covers, total, next]
    omega
  · intro m n
    simp only [Covers, next]
    omega

/-- What the whole result tells of, one of the two results tells of: the second only if the first
is exhausted. -/
theorem SearchRequest.Cut.reached {whole early late : SearchRequest} (cut : whole.Cut early late)
    {solves : Nonce → Prop} (asked : ∀ m, solves m → early.Covers m)
    {all first rest : SearchResult}
    (either : (∃ m d, first = .found m d ∧ solves m) ∧ all = first ∨
      first = .exhausted ∧ all = rest)
    {n : Nonce} (covered : whole.Covers n) (reached : all.Reaches n) :
    early.Covers n ∧ first.Reaches n ∨
      first = .exhausted ∧ late.Covers n ∧ rest.Reaches n := by
  rcases either with ⟨⟨m, d, found, solved⟩, same⟩ | ⟨exhausted, same⟩
  · rw [same] at reached
    rcases (cut.covers n).mp covered with before | after
    · exact .inl ⟨before, reached⟩
    · rw [found] at reached
      exact absurd reached (Nat.not_le_of_lt (cut.apart m n (asked m solved) after))
  · rcases (cut.covers n).mp covered with before | after
    · rw [exhausted]
      exact .inl ⟨before, trivial⟩
    · rw [same] at reached
      exact .inr ⟨exhausted, after, reached⟩

namespace Engine
variable {e : Engine} {r : SearchRequest}

theorem Admits.answer_tried (admits : e.Admits r) (workers : 1 ≤ e.workers)
    (lowest : e.config.mode = .lowest) {c : Circumstances} {o : SearchOutcome}
    (answer : (e.search r c).answer = .ok o) {n : Nonce} (covered : r.Covers n)
    (reached : o.result.Reaches n) : n ∈ e.hashedIn r c := by
  obtain ⟨unfired, uncancelled, same⟩ := admits.answer_cases answer
  cases result : o.result with
  | found m digest =>
      rw [result] at reached
      exact ((admits.answer_hashed workers answer).2.2 lowest m digest result).1 n covered.1 reached
  | exhausted =>
      have empty : (e.boardAfter r c).slot = none := by
        rw [same] at result
        exact SearchResult.ofSlot_eq_exhausted.mp result
      rw [hashedIn_prepared (admits.prepare_plan unfired)]
      exact (Search.Plan.run_exhausted (plan_whole r workers) c.schedule uncancelled empty
        ((mem_plan_range e r n).mpr covered)).1

theorem mineFrom_refused {data : List UInt8} (some_data : data ≠ []) (start : Nonce)
    {count : UInt64} (positive : 1 ≤ count.toNat) {fault : Error}
    (refused : e.hasher.checkInput data = .error fault) (c : Circumstances) :
    e.mineFrom data start count c = .error fault := by
  have prepared : e.prepare { data, start, maxAttempts := count } = .error fault :=
    prepare_refused some_data positive refused
  rw [mineFrom, search_refused prepared]
  rfl

/-- A search without a token has the lowest result, and has hashed all that this result tells of. -/
theorem mineFrom_lowest (workers : 1 ≤ e.workers) (lowest : e.config.mode = .lowest)
    {data : List UInt8} (some_data : data ≠ []) (taken : e.hasher.checkInput data = .ok ())
    (start : Nonce) (count : UInt64) (positive : 1 ≤ count.toNat) (c : Circumstances) :
    ∃ result, e.mineFrom data start count c = .ok result ∧
      result.Lowest (e.Solves { data, start, maxAttempts := count }) (e.hasher.digest data) ∧
      ∀ n, SearchRequest.Covers { data, start, maxAttempts := count } n → result.Reaches n →
        n ∈ e.hashedIn { data, start, maxAttempts := count } c := by
  have admits : e.Admits { data, start, maxAttempts := count } := ⟨some_data, positive, taken⟩
  have answer := admits.search_untokened workers rfl c
  refine ⟨_, ?_, admits.answer_lowest workers lowest answer, ?_⟩
  · rw [mineFrom, answer]
    rfl
  · intro n covered reached
    exact admits.answer_tried workers lowest answer covered reached

/-- A search of the first nonces that finds a solution is as good as one of all of them; if it is
exhausted, a search of the others is. Neither way leaves a nonce to the other alone: both hash all
nonces up to the solution, or all if there is none. -/
theorem mineFrom_resumes (e : Engine) (lowest : e.config.mode = .lowest) (workers : 1 ≤ e.workers)
    (data : List UInt8) (some_data : data ≠ []) (start : Nonce) (a b : UInt64)
    (positive : 1 ≤ a.toNat) (more : 1 ≤ b.toNat) (sum : a.toNat + b.toNat ≤ 2 ^ 64 - 1)
    (inside : start.value.toNat + a.toNat ≤ 2 ^ 64 - 1) (c early late : Circumstances) :
    (∀ n digest, e.mineFrom data start a early = .ok (.found n digest) →
      e.mineFrom data start (a + b) c = .ok (.found n digest)) ∧
    (e.mineFrom data start a early = .ok .exhausted →
      e.mineFrom data start (a + b) c = e.mineFrom data ⟨start.value + a⟩ b late) ∧
    (∀ fault, e.hasher.checkInput data = .error fault →
      e.mineFrom data start a early = .error fault ∧
        e.mineFrom data start (a + b) c = .error fault) ∧
    (e.hasher.checkInput data = .ok () →
      ∃ result, e.mineFrom data start (a + b) c = .ok result ∧
        ∀ n, SearchRequest.Covers { data, start, maxAttempts := a + b } n → result.Reaches n →
          n ∈ e.hashedIn { data, start, maxAttempts := a + b } c ∧
          (n ∈ e.hashedIn { data, start, maxAttempts := a } early ∨
            e.mineFrom data start a early = .ok .exhausted ∧
              n ∈ e.hashedIn { data, start := ⟨start.value + a⟩, maxAttempts := b } late)) ∧
    SearchRequest.Cut { data, start, maxAttempts := a + b } { data, start, maxAttempts := a }
      { data, start := ⟨start.value + a⟩, maxAttempts := b } := by
  have total := add_toNat (a := a) (b := b) (by omega)
  have cut := SearchRequest.cut_at data start sum inside
  cases taken : e.hasher.checkInput data with
  | error fault =>
      have refused := mineFrom_refused some_data start positive taken early
      rw [refused, mineFrom_refused some_data start (by omega) taken c]
      refine ⟨nofun, nofun, ?_, nofun, cut⟩
      rintro other ⟨⟩
      exact ⟨rfl, rfl⟩
  | ok =>
      obtain ⟨all, mined, of_all, tried⟩ :=
        mineFrom_lowest workers lowest some_data taken start (a + b) (by omega) c
      obtain ⟨first, mined_first, of_first, tried_first⟩ :=
        mineFrom_lowest workers lowest some_data taken start a positive early
      obtain ⟨rest, mined_rest, of_rest, tried_rest⟩ :=
        mineFrom_lowest workers lowest some_data taken ⟨start.value + a⟩ b more late
      -- each of the three has the least solution of its nonces, whatever its schedule was
      have either := of_all.resume of_first of_rest
        (fun n => by rw [Solves, Solves, Solves, cut.covers, or_and_right])
        (fun m n solved other => cut.apart m n solved.1 other.1)
      rw [mined, mined_first, mined_rest]
      refine ⟨?_, ?_, nofun, ?_, cut⟩
      · intro n digest found
        rcases either with ⟨-, same⟩ | ⟨exhausted, -⟩
        · rw [same, found]
        · rw [exhausted] at found
          cases found
      · intro nothing
        rcases either with ⟨⟨n, digest, found, -⟩, -⟩ | ⟨-, same⟩
        · rw [found] at nothing
          cases nothing
        · rw [same]
      · intro _
        refine ⟨all, rfl, ?_⟩
        intro n covered told
        refine ⟨tried n covered told, ?_⟩
        have parted := cut.reached (fun _ solved => solved.1) either covered told
        rcases parted with ⟨before, told⟩ | ⟨exhausted, after, told⟩
        · exact .inl (tried_first n before told)
        · exact .inr ⟨congrArg Except.ok exhausted, tried_rest n after told⟩

/-- Ten nonces in front of the greatest one, of which the ninth is a solution; the first four are
searched before the others. -/
theorem mineFrom_resumes_of_edge :
    (Engine.marking [0xFFFFFFFFFFFFFFFD] .lowest 3).mineFrom [7] ⟨0xFFFFFFFFFFFFFFF5⟩ 4 {} =
        .ok .exhausted ∧
      (Engine.marking [0xFFFFFFFFFFFFFFFD] .lowest 3).mineFrom [7] ⟨0xFFFFFFFFFFFFFFF5⟩ (4 + 100)
          { schedule := [.work 2 0, .work 0 0] } =
        (Engine.marking [0xFFFFFFFFFFFFFFFD] .lowest 3).mineFrom [7]
          ⟨0xFFFFFFFFFFFFFFF5 + 4⟩ 100 {} := by
  obtain ⟨first, mined, of_first, -⟩ :=
    mineFrom_lowest (e := Engine.marking [0xFFFFFFFFFFFFFFFD] .lowest 3)
      (by decide) rfl (List.cons_ne_nil 7 []) rfl ⟨0xFFFFFFFFFFFFFFF5⟩ 4 (by decide) {}
  have nothing : first = .exhausted := by
    cases first with
    | exhausted => rfl
    | found n d =>
        obtain ⟨covered, marked⟩ := (marking_solves _ _ _ _ n).mp of_first.1
        have value := congrArg UInt64.toNat (List.mem_singleton.mp marked)
        have high := covered.2
        simp only [UInt64.reduceToNat] at value high
        omega
  rw [nothing] at mined
  obtain ⟨-, resumed, -⟩ := mineFrom_resumes (Engine.marking [0xFFFFFFFFFFFFFFFD] .lowest 3) rfl
    (by decide) [7] (List.cons_ne_nil _ _) ⟨0xFFFFFFFFFFFFFFF5⟩ 4 100 (by decide) (by decide)
    (by decide) (by decide) { schedule := [.work 2 0, .work 0 0] } {} {}
  exact ⟨mined, resumed mined⟩

end Engine
end ProofOfWork
