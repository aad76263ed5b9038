import ProofOfWork.Engine.Search
import ProofOfWork.Proofs.Search.Counter
set_option autoImplicit false

namespace ProofOfWork

/-- The nonces that a request asks for. The greatest nonce is never one of them. -/
def SearchRequest.Covers (r : SearchRequest) (n : Nonce) : Prop :=
  r.start.value.toNat ≤ n.value.toNat ∧
    n.value.toNat < min (r.start.value.toNat + r.maxAttempts.toNat) (2 ^ 64 - 1)

/-- Whether a result names a solution with its digest, or says that there is none. -/
def SearchResult.Genuine (solves : Nonce → Prop) (digest : Nonce → Digest) : SearchResult → Prop
  | .found n d => solves n ∧ d = digest n
  | .exhausted => ∀ m, ¬ solves m

theorem SearchResult.Genuine.isFound_iff {solves : Nonce → Prop} {digest : Nonce → Digest}
    {a : SearchResult} (genuine : a.Genuine solves digest) :
    a.isFound = true ↔ ∃ n, solves n := by
  cases a with
  | found n d => exact ⟨fun _ => ⟨n, genuine.1⟩, fun _ => rfl⟩
  | exhausted => exact ⟨nofun, fun ⟨n, solved⟩ => absurd solved (genuine n)⟩

@[simp] theorem SearchResult.ofSlot_eq_exhausted {slot : Option (Nonce × Digest)} :
    SearchResult.ofSlot slot = .exhausted ↔ slot = none := by
  cases slot <;> simp only [SearchResult.ofSlot, reduceCtorEq]

@[simp]
theorem SearchResult.ofSlot_eq_found {slot : Option (Nonce × Digest)} {n : Nonce} {d : Digest} :
    SearchResult.ofSlot slot = .found n d ↔ slot = some (n, d) := by
  rcases slot with _ | ⟨m, kept⟩ <;> simp only [SearchResult.ofSlot, reduceCtorEq,
    SearchResult.found.injEq, Option.some.injEq, Prod.mk.injEq]

theorem Hasher.checkInput_error {h : Hasher} {data : List UInt8} {fault : Error}
    (refused : h.checkInput data = .error fault) : ∃ cause, fault = .invalidInput cause := by
  unfold checkInput at refused
  split at refused
  · cases refused
  · split at refused
    · rw [← Except.error.inj refused]
      exact ⟨_, rfl⟩
    · cases refused

namespace Engine

/-- A request that passes the checks before a search. -/
structure Admits (e : Engine) (r : SearchRequest) : Prop where
  data : r.data ≠ []
  attempts : 1 ≤ r.maxAttempts.toNat
  taken : e.hasher.checkInput r.data = .ok ()

/-- A nonce that is asked for and whose digest the engine's target accepts. -/
def Solves (e : Engine) (r : SearchRequest) (n : Nonce) : Prop :=
  r.Covers n ∧ e.target.accepts (e.hasher.digest r.data n) = true

/-- The plan of the search for an admitted request. -/
def plan (e : Engine) (r : SearchRequest) : Search.Plan where
  range := .upTo r.start.value r.maxAttempts
  parts := (NonceRange.upTo r.start.value r.maxAttempts).partition e.workers
  task := {
    digest := e.hasher.digest r.data
    target := e.target
    mode := e.config.mode
    batch := max e.config.batch 1
    cancellable := r.token ≠ .absent }

variable {e : Engine} {r : SearchRequest} {c : Circumstances}

@[simp] theorem mem_plan_range (e : Engine) (r : SearchRequest) (n : Nonce) :
    n ∈ (e.plan r).range ↔ r.Covers n := NonceRange.mem_upTo

theorem solves_iff (e : Engine) (r : SearchRequest) (n : Nonce) :
    e.Solves r n ↔ n ∈ (e.plan r).range ∧ (e.plan r).task.accepts n = true := by
  rw [mem_plan_range]
  rfl

theorem plan_whole (r : SearchRequest) (workers : 1 ≤ e.workers) : (e.plan r).Whole :=
  NonceRange.partition_adjoin (NonceRange.upTo_ordered _ _) workers

/-- The parts of a plan lie in its range, also if there are no workers and no parts. -/
theorem plan_within (e : Engine) (r : SearchRequest) : (e.plan r).Within := by
  by_cases workers : 1 ≤ e.workers
  · exact (plan_whole r workers).within
  · have none : (e.plan r).parts = [] := by
      have zero : e.workers = 0 := by omega
      simp only [plan, zero, NonceRange.partition, Nat.zero_min, if_true]
    constructor
    · rw [none]
      exact nofun
    · rw [none]
      exact nofun

section Prepare

private theorem data_isEmpty (data : r.data ≠ []) : r.data.isEmpty = false := by
  cases bytes : r.data with
  | nil => exact absurd bytes data
  | cons => rfl

private theorem attempts_ne_zero (attempts : 1 ≤ r.maxAttempts.toNat) : r.maxAttempts ≠ 0 := by
  intro zero
  rw [zero, UInt64.toNat_zero] at attempts
  omega

theorem prepare_refused (data : r.data ≠ []) (attempts : 1 ≤ r.maxAttempts.toNat) {fault : Error}
    (refused : e.hasher.checkInput r.data = .error fault) : e.prepare r = .error fault := by
  simp only [prepare, data_isEmpty data, attempts_ne_zero attempts, refused]
  rfl

theorem Admits.prepare_fired (admits : e.Admits r) (fired : r.token = .fired) :
    e.prepare r = .error (.cancelled "mining") := by
  simp only [prepare, data_isEmpty admits.data, attempts_ne_zero admits.attempts, admits.taken,
    fired]
  rfl

theorem Admits.prepare_plan (admits : e.Admits r) (unfired : r.token ≠ .fired) :
    e.prepare r = .ok (e.plan r) := by
  simp only [prepare, data_isEmpty admits.data, attempts_ne_zero admits.attempts, admits.taken,
    unfired]
  rfl

end Prepare

def boardAfter (e : Engine) (r : SearchRequest) (c : Circumstances) : Search.Board :=
  (e.plan r).run c.schedule

/-- What the search for an admitted request comes to if it is not cancelled. -/
def outcome (e : Engine) (r : SearchRequest) (c : Circumstances) : SearchOutcome where
  result := .ofSlot (e.boardAfter r c).slot
  target := e.target
  attempts := (e.boardAfter r c).attempts
  elapsed := c.elapsed

theorem search_refused {fault : Error} (refused : e.prepare r = .error fault) :
    e.search r c = ⟨.error fault, e.refused fault, r.token⟩ := by
  simp only [search, searchOn, refused]
  rfl

/-- A search adds to the engine's count what its board says, and the rest is read off the board. -/
theorem search_prepared {plan : Search.Plan} (prepared : e.prepare r = .ok plan) :
    e.search r c =
      let course : Search.Course :=
        { board := plan.run c.schedule, elapsed := c.elapsed, replaced := c.replaced }
      let left := e.counting (e.ledger.hashes + course.board.attempts)
      ⟨(left.conclude plan course).1, (left.conclude plan course).2,
        if course.board.fired then .fired else r.token⟩ := by
  have driven : e.search r c =
      let course : Search.Course :=
        { board := (plan.counting e.ledger.hashes).run c.schedule
          elapsed := c.elapsed
          replaced := c.replaced }
      let left := e.counting course.board.hashes
      ⟨(left.conclude plan course).1, (left.conclude plan course).2,
        if course.board.fired then .fired else r.token⟩ := by
    simp only [search, searchOn, prepared]
    rfl
  rw [driven, plan.run_counting]
  rfl

theorem Admits.search_fired (admits : e.Admits r) (fired : r.token = .fired)
    (c : Circumstances) :
    (e.search r c).answer = .error (.cancelled "mining") ∧ (e.search r c).token = .fired := by
  rw [search_refused (admits.prepare_fired fired)]
  exact ⟨rfl, fired⟩

theorem Admits.search_cancelled (admits : e.Admits r) (unfired : r.token ≠ .fired)
    (cancelled : (e.boardAfter r c).cancelled = true) :
    (e.search r c).answer = .error (.cancelled "mining") := by
  rw [search_prepared (admits.prepare_plan unfired)]
  simp only [boardAfter] at cancelled
  simp only [conclude, cancelled, if_true]

theorem Admits.search_uncancelled (admits : e.Admits r) (unfired : r.token ≠ .fired)
    (uncancelled : (e.boardAfter r c).cancelled = false) :
    (e.search r c).answer = .ok (e.outcome r c) := by
  rw [search_prepared (admits.prepare_plan unfired)]
  simp only [boardAfter] at uncancelled
  simp only [conclude, uncancelled, Bool.false_eq_true, if_false]
  rfl

theorem boardAfter_uncancelled (workers : 1 ≤ e.workers) (untokened : r.token = .absent)
    (c : Circumstances) : (e.boardAfter r c).cancelled = false := by
  refine Bool.eq_false_iff.mpr fun cancelled => ?_
  have sound := Search.Plan.run_sound (plan_whole r workers) c.schedule
  have cancellable := (sound.cancelled cancelled).1
  simp only [plan, untokened, ne_eq, not_true_eq_false, decide_false, Bool.false_eq_true]
    at cancellable

theorem Admits.search_untokened (admits : e.Admits r) (workers : 1 ≤ e.workers)
    (untokened : r.token = .absent) (c : Circumstances) :
    (e.search r c).answer = .ok (e.outcome r c) := by
  have unfired : r.token ≠ .fired := by
    rw [untokened]
    exact nofun
  exact admits.search_uncancelled unfired (boardAfter_uncancelled workers untokened c)

/-- A search that is not cancelled finds a solution if there is one. -/
theorem outcome_genuine (workers : 1 ≤ e.workers)
    (uncancelled : (e.boardAfter r c).cancelled = false) :
    (e.outcome r c).result.Genuine (e.Solves r) (e.hasher.digest r.data) := by
  have whole := plan_whole r workers
  have result : (e.outcome r c).result = .ofSlot (e.boardAfter r c).slot := rfl
  rw [result]
  cases slot : (e.boardAfter r c).slot with
  | none =>
      intro n solved
      obtain ⟨member, accepted⟩ := (solves_iff e r n).mp solved
      have rejected := (Search.Plan.run_exhausted whole c.schedule uncancelled slot member).2
      rw [accepted] at rejected
      cases rejected
  | some kept =>
      obtain ⟨member, same, accepted⟩ :=
        (Search.Plan.run_sound whole c.schedule).genuine kept.1 kept.2 slot
      exact ⟨(solves_iff e r kept.1).mpr ⟨member, accepted⟩, same⟩

theorem admits_of_prepare {plan : Search.Plan} (prepared : e.prepare r = .ok plan) :
    e.Admits r := by
  have data : r.data ≠ [] := by
    intro empty
    rw [prepare, empty] at prepared
    cases prepared
  have attempts : r.maxAttempts ≠ 0 := by
    intro zero
    cases bytes : r.data with
    | nil => exact data bytes
    | cons byte rest =>
        rw [prepare, zero, bytes] at prepared
        cases prepared
  have positive := one_le_toNat attempts
  refine ⟨data, positive, ?_⟩
  cases taken : e.hasher.checkInput r.data with
  | ok => rfl
  | error fault =>
      rw [prepare_refused data positive taken] at prepared
      cases prepared

theorem Admits.prepare_eq (admits : e.Admits r) {plan : Search.Plan}
    (prepared : e.prepare r = .ok plan) : plan = e.plan r ∧ r.token ≠ .fired := by
  by_cases fired : r.token = .fired
  · rw [admits.prepare_fired fired] at prepared
    cases prepared
  · rw [admits.prepare_plan fired, Except.ok.injEq] at prepared
    exact ⟨prepared.symm, fired⟩

theorem admits_of_answer {o : SearchOutcome} (answer : (e.search r c).answer = .ok o) :
    e.Admits r := by
  cases prepared : e.prepare r with
  | error fault =>
      rw [search_refused prepared] at answer
      cases answer
  | ok plan => exact admits_of_prepare prepared

/-- All that has happened when an admitted request is answered with an outcome. -/
theorem Admits.answer_cases (admits : e.Admits r) {o : SearchOutcome}
    (answer : (e.search r c).answer = .ok o) :
    r.token ≠ .fired ∧ (e.boardAfter r c).cancelled = false ∧ o = e.outcome r c := by
  by_cases fired : r.token = .fired
  · rw [(admits.search_fired fired c).1] at answer
    cases answer
  · cases cancelled : (e.boardAfter r c).cancelled with
    | true =>
        rw [admits.search_cancelled fired cancelled] at answer
        cases answer
    | false =>
        rw [admits.search_uncancelled fired cancelled, Except.ok.injEq] at answer
        exact ⟨fired, rfl, answer.symm⟩

/-- The answer to an admitted request: it is cancelled, or its result is genuine. -/
theorem Admits.answer_genuine (admits : e.Admits r) (workers : 1 ≤ e.workers)
    {o : SearchOutcome} (answer : (e.search r c).answer = .ok o) :
    o.result.Genuine (e.Solves r) (e.hasher.digest r.data) := by
  obtain ⟨-, uncancelled, rfl⟩ := admits.answer_cases answer
  exact outcome_genuine workers uncancelled

theorem accepts_of_found {o : SearchOutcome} (answer : (e.search r c).answer = .ok o) {n : Nonce}
    {d : Digest} (found : o.result = .found n d) :
    e.target.accepts d = true ∧ d = e.hasher.digest r.data n := by
  obtain ⟨-, -, rfl⟩ := (admits_of_answer answer).answer_cases answer
  have slot : (e.boardAfter r c).slot = some (n, d) := SearchResult.ofSlot_eq_found.mp found
  obtain ⟨-, same, accepted⟩ := ((e.plan_within r).run_sound c.schedule).genuine n d slot
  have digest : d = e.hasher.digest r.data n := same
  rw [digest]
  exact ⟨accepted, rfl⟩

/-- Nothing but a fired token keeps an admitted request from its outcome. -/
theorem Admits.error_eq (admits : e.Admits r) {fault : Error}
    (answer : (e.search r c).answer = .error fault) : fault = .cancelled "mining" := by
  by_cases fired : r.token = .fired
  · rw [(admits.search_fired fired c).1, Except.error.injEq] at answer
    exact answer.symm
  · cases cancelled : (e.boardAfter r c).cancelled with
    | true =>
        rw [admits.search_cancelled fired cancelled, Except.error.injEq] at answer
        exact answer.symm
    | false =>
        rw [admits.search_uncancelled fired cancelled] at answer
        cases answer

section Frame

theorem prepare_ledger (e : Engine) (l : Ledger) (r : SearchRequest) :
    ({ e with ledger := l } : Engine).prepare r = e.prepare r := rfl

theorem refused_frame (e : Engine) (fault : Error) :
    e.refused fault = { e with ledger := (e.refused fault).ledger } := by
  cases fault <;> rfl

theorem conclude_answer (e other : Engine) (plan : Search.Plan) (course : Search.Course) :
    (e.conclude plan course).1 = (other.conclude plan course).1 := by
  simp only [conclude]
  split <;> rfl

theorem answer_ledger (e : Engine) (l : Ledger) (r : SearchRequest) (c : Circumstances) :
    (({ e with ledger := l } : Engine).search r c).answer = (e.search r c).answer := by
  cases prepared : e.prepare r with
  | error fault =>
      rw [search_refused prepared, search_refused ((prepare_ledger e l r).trans prepared)]
  | ok plan =>
      rw [search_prepared prepared, search_prepared ((prepare_ledger e l r).trans prepared)]
      exact conclude_answer _ _ _ _

theorem conclude_frame (e : Engine) (plan : Search.Plan) (course : Search.Course) :
    (e.conclude plan course).2 = { e with
      target := course.replaced.getD e.target
      ledger := (e.conclude plan course).2.ledger } := by
  simp only [conclude]
  split <;> rfl

@[simp] theorem conclude_target (e : Engine) (plan : Search.Plan) (course : Search.Course) :
    (e.conclude plan course).2.target = course.replaced.getD e.target := by
  rw [conclude_frame]

/-- A search changes nothing but the ledger; the target is changed by others. -/
theorem search_frame (e : Engine) (r : SearchRequest) (c : Circumstances) :
    (e.search r c).engine = { e with
      target := (e.search r c).engine.target
      ledger := (e.search r c).engine.ledger } := by
  cases prepared : e.prepare r with
  | error fault =>
      rw [search_refused prepared, refused_frame]
  | ok plan =>
      rw [search_prepared prepared]
      dsimp only
      rw [conclude_frame]
      rfl

theorem search_target {o : SearchOutcome} (answer : (e.search r c).answer = .ok o) :
    (e.search r c).engine.target = c.replaced.getD e.target := by
  cases prepared : e.prepare r with
  | error fault =>
      rw [search_refused prepared] at answer
      cases answer
  | ok plan =>
      rw [search_prepared prepared]
      exact conclude_target _ _ _

end Frame
end Engine

/-- A hasher that makes the digest zero of the marked nonces and the greatest digest of all
others. -/
def Hasher.marking (marked : List UInt64) : Hasher where
  algorithm := .blake2s
  digest _ n := if n.value ∈ marked then ⟨.zero⟩ else ⟨.max⟩

theorem Hasher.marking_accepts (marked : List UInt64) (data : List UInt8) (n : Nonce) :
    Target.zero.accepts ((Hasher.marking marked).digest data n) = true ↔ n.value ∈ marked := by
  by_cases member : n.value ∈ marked
  · have accepted : Target.zero.accepts ⟨.zero⟩ = true := by decide
    simp only [marking, member, if_true, accepted]
  · have rejected : Target.zero.accepts ⟨.max⟩ = false := by decide
    simp only [marking, member, if_false, rejected, Bool.false_eq_true]

/-- An engine whose solutions are the marked nonces. -/
def Engine.marking (marked : List UInt64) (mode : SearchMode) (workers : Nat) : Engine where
  hasher := .marking marked
  target := .zero
  config := { mode }
  workers

theorem Engine.marking_admits (marked : List UInt64) (mode : SearchMode) (workers : Nat)
    {r : SearchRequest} (data : r.data ≠ []) (attempts : 1 ≤ r.maxAttempts.toNat) :
    (Engine.marking marked mode workers).Admits r := ⟨data, attempts, rfl⟩

theorem Engine.marking_solves (marked : List UInt64) (mode : SearchMode) (workers : Nat)
    (r : SearchRequest) (n : Nonce) :
    (Engine.marking marked mode workers).Solves r n ↔ r.Covers n ∧ n.value ∈ marked :=
  and_congr_right fun _ => Hasher.marking_accepts marked r.data n

end ProofOfWork
