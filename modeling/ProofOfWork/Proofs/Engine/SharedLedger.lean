import ProofOfWork.Proofs.Engine.Isolation
import ProofOfWork.Proofs.Session.Ledger
set_option autoImplicit false

namespace ProofOfWork.Shared

/-- How a search ended; nothing while it has not. -/
def Call.exits (c : Call) : List Exit :=
  match c.stage with
  | .returned answer => [.ofAnswer answer]
  | _ => []

/-- The digests of a search that are not entered in the ledger yet: those that its workers have not
written down. -/
def Call.unentered (c : Call) : Nat :=
  match c.stage with
  | .running _ crew => Search.unwritten crew.workers
  | _ => 0

/-- The nonces whose digests are computed in an act. -/
def Call.hashing (c : Call) : Act → List Nonce
  | .choose choice =>
    match c.stage with
    | .running _ crew => Search.hashed (crew.move choice)
    | _ => []
  | _ => []

/-- How the searches that are over ended, in the order of the calls. -/
def State.exits (s : State) : List Exit := s.calls.flatMap Call.exits

def State.unentered (s : State) : Nat := (s.calls.map Call.unentered).sum

def State.hashing (s : State) : Event → List Nonce
  | .act place act =>
    match s.calls[place]? with
    | some c => c.hashing act
    | none => []
  | _ => []

/-- The nonces whose digests are computed in the course of events, in order. -/
def State.hashed (s : State) : List Event → List Nonce
  | [] => []
  | event :: rest =>
    s.hashing event ++
      match s.step event with
      | some next => next.hashed rest
      | none => []

theorem State.hashed_snoc {s now : State} {events : List Event} (ran : s.run events = some now)
    (event : Event) : s.hashed (events ++ [event]) = s.hashed events ++ now.hashing event := by
  induction events generalizing s with
  | nil =>
      cases ran
      simp only [hashed, List.nil_append]
      split <;> exact List.append_nil _
  | cons first rest ih =>
      simp only [run, List.foldlM_cons] at ran
      cases stepped : s.step first with
      | none =>
          rw [stepped] at ran
          cases ran
      | some next =>
          rw [stepped] at ran
          have further : next.run rest = some now := ran
          simp only [List.cons_append, hashed, stepped]
          rw [ih further, List.append_assoc]

section Act
variable {e : Engine} {place : Nat} {events : List Event} {c next : Call} {s : State}

/-- A step of a worker computes at most one digest, and what it writes down its worker had. -/
theorem unentered_choose (workers : 1 ≤ e.workers) {plan : Search.Plan} {crew : Search.Crew}
    (running : c.stage = .running plan crew)
    (life : Life e place events c.request c.fired c.stage) (choice : Search.Choice)
    (hashes : UInt64) :
    (Search.written (crew.move choice)).toNat +
        Search.unwritten ((crew.counting hashes).follow plan.task choice).workers =
      c.unentered + (c.hashing (.choose choice)).length := by
  rw [running] at life
  obtain ⟨t, found, -, prepared, rfl⟩ := life
  obtain ⟨rfl, -⟩ := (Engine.admits_of_prepare prepared).prepare_eq prepared
  have whole := Engine.plan_whole (e := e.setTarget t) c.request workers
  have pays := Search.Plan.after_pays whole (schedule place events) choice
  simpa [Call.unentered, Call.hashing, running] using pays

/-- The workers of a search that is over have written down all their digests. -/
theorem unentered_finish (workers : 1 ≤ e.workers) {plan : Search.Plan} {crew : Search.Crew}
    (running : c.stage = .running plan crew) (ended : ∀ w ∈ crew.workers, w.phase = .done)
    (life : Life e place events c.request c.fired c.stage) : c.unentered = 0 := by
  rw [running] at life
  obtain ⟨t, found, -, prepared, rfl⟩ := life
  obtain ⟨rfl, -⟩ := (Engine.admits_of_prepare prepared).prepare_eq prepared
  have whole := Engine.plan_whole (e := e.setTarget t) c.request workers
  have counted := Search.Plan.after_counted whole (schedule place events)
  simp only [Call.unentered, running]
  exact Search.unwritten_eq_zero fun w member =>
    counted.flushed w member (.inr (ended w member))

/-- What an act enters in the ledger: the end of the search, if the search is over by it, and the
digests that are not with the workers any more. -/
theorem Call.Took.counted {now left : Engine} {act : Act} (workers : 1 ≤ e.workers)
    (took : c.Took now act next left) (life : Life e place events c.request c.fired c.stage) :
    ∃ entered, now.ledger.Counted left.ledger next.exits entered ∧
      entered + next.unentered = c.unentered + (c.hashing act).length := by
  cases took with
  | @refuse fault called refused =>
      refine ⟨0, now.refused_counted fault, ?_⟩
      simp only [unentered, called, hashing, List.length_nil]
  | accept called prepared =>
      refine ⟨0, .refl now.ledger, ?_⟩
      simp only [unentered, called, hashing, List.length_nil]
  | @read plan admitted prepared =>
      refine ⟨0, .refl now.ledger, ?_⟩
      have start := (Search.Crew.start_counted c.fired plan.parts 0).balance
      simp only [unentered, admitted, hashing, List.length_nil]
      exact start
  | fire waits =>
      refine ⟨0, ?_, ?_⟩
      · rcases waits with stage | stage <;> simp only [exits, stage] <;> exact .refl now.ledger
      · rcases waits with stage | stage <;> simp only [unentered, hashing, stage, List.length_nil]
  | @choose plan crew moved choice running follows =>
      subst follows
      refine ⟨(Search.written (crew.move choice)).toNat, ?_,
        unentered_choose workers running life choice now.ledger.hashes⟩
      rw [Search.Crew.follow_counting]
      exact now.counting_counted _
  | @finish plan crew elapsed running ended =>
      refine ⟨0, now.conclude_counted plan _, ?_⟩
      rw [unentered_finish workers running ended life]
      rfl

end Act

/-- What every event keeps: the searches that are over are entered, and so are the digests that are
not with the workers of the others. -/
def Entered (e : Engine) (events : List Event) (s : State) : Prop :=
  ∃ entered, e.ledger.Counted s.engine.ledger s.exits entered ∧
    entered + s.unentered = ((State.mk e []).hashed events).length

theorem exits_set {calls : List Call} {place : Nat} {c next : Call}
    (found : calls[place]? = some c) (under_way : c.exits = []) (x : Exit) :
    ((calls.set place next).flatMap Call.exits).count x =
      (calls.flatMap Call.exits ++ next.exits).count x := by
  have replaced := Search.sum_set (fun c : Call => c.exits.count x) found next
  rw [under_way, List.count_nil, Nat.add_zero] at replaced
  rw [List.count_append, List.count_flatMap, List.count_flatMap]
  exact replaced

theorem Call.Took.under_way {now left : Engine} {c next : Call} {act : Act}
    (took : c.Took now act next left) : c.exits = [] := by
  unfold exits
  split
  · rename_i answer ended
    exact absurd ended (took.unreturned answer)
  · rfl

theorem Entered.step {e : Engine} (workers : 1 ≤ e.workers) {events : List Event}
    {now left : State} {event : Event} (ran : (State.mk e []).run events = some now)
    (kept : Entered e events now) (stepped : now.step event = some left) :
    Entered e (events ++ [event]) left := by
  obtain ⟨entered, counted, balance⟩ := kept
  rw [Entered, State.hashed_snoc ran, List.length_append, ← balance]
  cases event with
  | call r =>
      cases stepped
      refine ⟨entered, ?_, ?_⟩
      · simpa only [State.exits, List.flatMap_append, List.flatMap_singleton, Call.exits,
          List.append_nil] using counted
      · simp only [State.unentered, State.hashing, List.map_append, List.sum_append_nat,
          List.map_cons, List.map_nil, Call.unentered, List.sum_cons, List.sum_nil,
          List.length_nil]
        rfl
  | setTarget t =>
      cases stepped
      exact ⟨entered, counted, rfl⟩
  | act place act =>
      obtain ⟨c, next, found, took, calls⟩ := State.step_act stepped
      have life := (Sound.run ran).life place c found
      -- what the act adds to the ledger is taken off what its call has not entered yet
      obtain ⟨more, entry, moved⟩ := took.counted workers life
      refine ⟨entered + more, (counted.trans entry).reorder ?_, ?_⟩
      · rw [State.exits, State.exits, calls]
        exact exits_set found took.under_way
      · have replaced := Search.sum_set Call.unentered found next
        simp only [State.unentered, State.hashing, found, calls]
        omega

theorem Entered.run {e : Engine} (workers : 1 ≤ e.workers) {events : List Event} {s : State}
    (ran : (State.mk e []).run events = some s) : Entered e events s :=
  State.run_induction (Entered e) (fun _ _ _ _ ran kept stepped => kept.step workers ran stepped)
    (rfl : (State.mk e []).run [] = some ⟨e, []⟩) ⟨0, .refl e.ledger, rfl⟩ events ran

theorem unentered_eq_zero {s : State}
    (ended : ∀ c ∈ s.calls, ∃ answer, c.stage = .returned answer) : s.unentered = 0 := by
  rw [State.unentered, List.sum_eq_zero_iff_forall_eq_nat]
  intro count member
  obtain ⟨c, called, rfl⟩ := List.mem_map.mp member
  obtain ⟨answer, returned⟩ := ended c called
  simp only [Call.unentered, returned]

/-- A request that does not pass the checks is refused, and the engine stays as it is, whatever has
become of the token. -/
theorem State.step_unadmitted {s : State} {place : Nat} {c : Call}
    (found : s.calls[place]? = some c) (called : c.stage = .called)
    (unfit : ¬ s.engine.Admits c.request) :
    ∃ cause, s.step (.act place .check) = some ⟨s.engine,
      s.calls.set place { c with stage := .returned (.error (.invalidInput cause)) }⟩ := by
  have unseen : ¬ s.engine.Admits c.seen := by
    intro admits
    refine unfit ?_
    unfold Call.seen at admits
    split at admits
    · exact ⟨admits.data, admits.attempts, admits.taken⟩
    · exact admits
  obtain ⟨cause, refused⟩ := Engine.prepare_unadmitted unseen
  have checked : c.step s.engine .check =
      some ({ c with stage := .returned (.error (.invalidInput cause)) }, s.engine) := by
    simp only [Call.step, called, refused]
    rfl
  refine ⟨cause, ?_⟩
  rw [step, found]
  change (c.step s.engine .check).bind _ = _
  rw [checked]
  rfl

/-- However searches and new targets are interleaved, the ledger has counted each search that is
over once, by what it returned, and every digest that was computed, save those that a worker under
way has not written down. A search alone and a session enter the same, a session nothing but its
searches. All counts are modulo `2 ^ 64`, where a counter starts again at zero.
A request that does not pass the checks is not counted, also if its token has fired; one that passes
them and finds its token fired is a cancelled search without a digest. -/
theorem ledger_counts_searches (e : Engine) (workers : 1 ≤ e.workers) :
    (∀ events s, (State.mk e []).run events = some s →
      (∃ entered, e.ledger.Counted s.engine.ledger s.exits entered ∧
        entered + s.unentered = ((State.mk e []).hashed events).length) ∧
      ((∀ c ∈ s.calls, ∃ answer, c.stage = .returned answer) →
        e.ledger.Counted s.engine.ledger s.exits ((State.mk e []).hashed events).length) ∧
      ∀ place c, s.calls[place]? = some c → c.stage = .called → ¬ s.engine.Admits c.request →
        ∃ cause, s.step (.act place .check) = some ⟨s.engine,
          s.calls.set place { c with stage := .returned (.error (.invalidInput cause)) }⟩) ∧
    (∀ r c,
      e.ledger.Counted (e.search r c).engine.ledger [.ofAnswer (e.search r c).answer]
        (e.hashedIn r c).length ∧
      (¬ e.Admits r →
        (e.search r c).engine = e ∧ ∃ cause, (e.search r c).answer = .error (.invalidInput cause)) ∧
      (e.Admits r → r.token = .fired →
        (e.search r c).answer = .error (.cancelled "mining") ∧ e.hashedIn r c = [])) ∧
    (∀ config payload rounds token script elapsed,
      let left := Session.run config e payload rounds token script elapsed
      (∀ report, left.report = .ok report →
        e.ledger.Counted left.engine.ledger report.exits
          (Session.hashedAmid (fun _ => none) script config payload rounds.toNat 0 e token).length) ∧
      (∀ fault, left.report = .error fault → left.engine = e)) := by
  refine ⟨?_, ?_, ?_⟩
  · intro events s ran
    obtain ⟨entered, counted, balance⟩ := Entered.run workers ran
    refine ⟨⟨entered, counted, balance⟩, ?_, fun place c => State.step_unadmitted⟩
    intro ended
    rw [unentered_eq_zero ended, Nat.add_zero] at balance
    rw [← balance]
    exact counted
  · intro r c
    refine ⟨e.search_counted r c workers, fun unfit => Engine.search_unadmitted unfit c, ?_⟩
    intro admits fired
    exact ⟨(admits.search_fired fired c).1, Engine.hashedIn_refused (admits.prepare_fired fired)⟩
  · intro config payload rounds token script elapsed
    exact Session.run_counted config e payload rounds token script elapsed workers

/-- Once the first of the crossing searches is over, the second hashes its nonce, and somebody asks
for a search without data and for one with data, both with a token that has fired. -/
def afterCrossing : List Event :=
  crossing ++ [.act 1 (.choose (.work 0 0)),
    .call { data := [], start := ⟨0⟩, maxAttempts := 1, token := .fired }, .act 2 .check,
    .call { data := [7], start := ⟨0⟩, maxAttempts := 1, token := .fired }, .act 3 .check]

/-- Two nonces are hashed: the solution, which is entered, and the one that is still with the second
search. The engine had counted as many hashes as it can, so its count is zero. -/
theorem ledger_counts_searches_of_crossing :
    ∃ s, (State.mk ((Engine.marking [2] .lowest 2).counting 0xFFFFFFFFFFFFFFFF) []).run
        afterCrossing = some s ∧
      ((State.mk ((Engine.marking [2] .lowest 2).counting 0xFFFFFFFFFFFFFFFF) []).hashed
        afterCrossing).length = 2 ∧
      s.exits = [.found, .refused, .cancelled] ∧ s.unentered = 1 ∧ s.engine.ledger.hashes = 0 ∧
      s.engine.ledger.solutions = 1 ∧ s.engine.ledger.exhausted = 0 ∧
      s.engine.ledger.cancelled = 1 := by
  obtain ⟨s, ran, exits, unentered⟩ :
      ∃ s, (State.mk ((Engine.marking [2] .lowest 2).counting 0xFFFFFFFFFFFFFFFF) []).run
        afterCrossing = some s ∧ s.exits = [.found, .refused, .cancelled] ∧ s.unentered = 1 :=
    ⟨_, rfl, rfl, rfl⟩
  have two : ((State.mk ((Engine.marking [2] .lowest 2).counting 0xFFFFFFFFFFFFFFFF) []).hashed
      afterCrossing).length = 2 := by rfl
  obtain ⟨shared, -⟩ :=
    ledger_counts_searches ((Engine.marking [2] .lowest 2).counting 0xFFFFFFFFFFFFFFFF) (by decide)
  obtain ⟨⟨entered, counted, balance⟩, -⟩ := shared afterCrossing s ran
  have one : entered = 1 := by omega
  rw [exits, one] at counted
  exact ⟨s, ran, two, exits, unentered, UInt64.toNat_inj.mp counted.hashes,
    UInt64.toNat_inj.mp counted.solutions, UInt64.toNat_inj.mp counted.exhausted,
    UInt64.toNat_inj.mp counted.cancelled⟩

end ProofOfWork.Shared
