import ProofOfWork.Proofs.Engine.Lowest
set_option autoImplicit false

/-!
An engine that is shared. Any number of searches are under way at once, and anybody may give the
engine another target at any moment. What happens is a sequence of events, each of which nothing
comes between: a request is checked, the target is read, a worker takes a step, a search is over.
-/
namespace ProofOfWork.Shared

/-- How far a search has come. -/
inductive Stage where
  | called
  /-- The request was checked, and the target is still to be read. -/
  | admitted
  | running (plan : Search.Plan) (crew : Search.Crew)
  | returned (answer : Except Error SearchOutcome)

structure Call where
  request : SearchRequest
  /-- The token has fired before the first step of the workers. -/
  fired : Bool := false
  stage : Stage := .called

/-- The request with the token as it is now. -/
def Call.seen (c : Call) : SearchRequest :=
  if c.fired then { c.request with token := .fired } else c.request

inductive Act where
  | check
  | read
  /-- A worker takes a step, or the token fires. -/
  | choose (choice : Search.Choice)
  | finish (elapsed : Duration)

/-- The token fires, or a worker takes a step once there are workers. The worker finds the engine's
count as it is now, whoever has added to it, and leaves it for the others. -/
def Call.choose (e : Engine) (c : Call) (choice : Search.Choice) : Option (Call × Engine) :=
  match c.stage, choice with
  | .called, .fire | .admitted, .fire => some ({ c with fired := true }, e)
  | .running plan crew, choice =>
    let crew := (crew.counting e.ledger.hashes).follow plan.task choice
    some ({ c with stage := .running plan crew }, e.counting crew.board.hashes)
  | _, _ => none

/-- An act of a call, and the engine after it. Of the ledger a search sees the count of hashes only,
and no step depends on it. -/
def Call.step (e : Engine) (c : Call) (act : Act) : Option (Call × Engine) :=
  match act, c.stage with
  | .check, .called =>
    match e.prepare c.seen with
    | .ok _ => some ({ c with stage := .admitted }, e)
    | .error fault => some ({ c with stage := .returned (.error fault) }, e.refused fault)
  | .read, .admitted =>
    match e.prepare c.request with
    | .ok plan => some ({ c with stage := .running plan (.start c.fired plan.parts) }, e)
    | .error _ => none
  | .choose choice, _ =>
    if choice = .fire ∧ c.request.token = .absent then none else c.choose e choice
  | .finish elapsed, .running plan crew =>
    if ∀ w ∈ crew.workers, w.phase = .done then
      let (answer, left) := e.conclude plan { board := crew.board, elapsed }
      some ({ c with stage := .returned answer }, left)
    else none
  | _, _ => none

inductive Event where
  | call (r : SearchRequest)
  | setTarget (t : Target)
  | act (place : Nat) (act : Act)

structure State where
  engine : Engine
  calls : List Call := []

def State.step (s : State) : Event → Option State
  | .call request => some { s with calls := s.calls ++ [{ request }] }
  | .setTarget t => some { s with engine := s.engine.setTarget t }
  | .act place act => do
    let c ← s.calls[place]?
    let (next, engine) ← c.step s.engine act
    return { engine, calls := s.calls.set place next }

/-- The state after a sequence of events, if each of them can happen. -/
def State.run (s : State) (events : List Event) : Option State := events.foldlM State.step s

/-- What an event adds to the schedule of the search at a place. -/
def Event.choice (place : Nat) : Event → Option Search.Choice
  | .act there (.choose choice) => if there = place then some choice else none
  | _ => none

/-- The schedule of the search at a place: the steps of its own workers and its own token. -/
def schedule (place : Nat) (events : List Event) : Search.Schedule :=
  events.filterMap (Event.choice place)

/-- All that an act of a call can be. -/
inductive Call.Took (e : Engine) (c : Call) : Act → Call → Engine → Prop
  | refuse {fault : Error} (called : c.stage = .called) (refused : e.prepare c.seen = .error fault) :
      Took e c .check { c with stage := .returned (.error fault) } (e.refused fault)
  | accept {plan : Search.Plan} (called : c.stage = .called) (prepared : e.prepare c.seen = .ok plan) :
      Took e c .check { c with stage := .admitted } e
  | read {plan : Search.Plan} (admitted : c.stage = .admitted)
      (prepared : e.prepare c.request = .ok plan) :
      Took e c .read { c with stage := .running plan (.start c.fired plan.parts) } e
  | fire (waits : c.stage = .called ∨ c.stage = .admitted) :
      Took e c (.choose .fire) { c with fired := true } e
  | choose {plan : Search.Plan} {crew moved : Search.Crew} (choice : Search.Choice)
      (running : c.stage = .running plan crew)
      (follows : (crew.counting e.ledger.hashes).follow plan.task choice = moved) :
      Took e c (.choose choice) { c with stage := .running plan moved }
        (e.counting moved.board.hashes)
  | finish {plan : Search.Plan} {crew : Search.Crew} (elapsed : Duration)
      (running : c.stage = .running plan crew) (ended : ∀ w ∈ crew.workers, w.phase = .done) :
      Took e c (.finish elapsed)
        { c with stage := .returned (e.conclude plan { board := crew.board, elapsed }).1 }
        (e.conclude plan { board := crew.board, elapsed }).2

theorem Call.took_of_choose {e left : Engine} {c next : Call} {choice : Search.Choice}
    (chosen : c.choose e choice = some (next, left)) : c.Took e (.choose choice) next left := by
  obtain ⟨request, fired, stage⟩ := c
  cases stage with
  | running plan crew =>
      cases chosen
      exact .choose choice rfl rfl
  | returned answer => cases choice <;> cases chosen
  | called =>
      cases choice with
      | fire =>
          cases chosen
          exact .fire (.inl rfl)
      | work place age => cases chosen
  | admitted =>
      cases choice with
      | fire =>
          cases chosen
          exact .fire (.inr rfl)
      | work place age => cases chosen

theorem Call.took_of_step {e left : Engine} {c next : Call} {act : Act}
    (stepped : c.step e act = some (next, left)) : c.Took e act next left := by
  obtain ⟨request, fired, stage⟩ := c
  cases act with
  | check =>
      cases stage with
      | called =>
          simp only [step] at stepped
          split at stepped
          · rename_i plan prepared
            cases stepped
            exact .accept rfl prepared
          · rename_i fault refused
            cases stepped
            exact .refuse rfl refused
      | _ => cases stepped
  | read =>
      cases stage with
      | admitted =>
          simp only [step] at stepped
          split at stepped
          · rename_i plan prepared
            cases stepped
            exact .read rfl prepared
          · cases stepped
      | _ => cases stepped
  | choose choice =>
      simp only [step] at stepped
      split at stepped
      · cases stepped
      · exact took_of_choose stepped
  | finish elapsed =>
      cases stage with
      | running plan crew =>
          simp only [step] at stepped
          split at stepped
          · rename_i ended
            cases stepped
            exact .finish elapsed rfl ended
          · cases stepped
      | _ => cases stepped

theorem Call.Took.frame {e left : Engine} {c next : Call} {act : Act}
    (took : c.Took e act next left) : ∃ ledger, left = { e with ledger } := by
  cases took with
  | @refuse fault called refused => exact ⟨_, e.refused_frame fault⟩
  | choose choice running follows => exact ⟨_, rfl⟩
  | @finish plan crew elapsed running ended => exact ⟨_, e.conclude_frame plan _⟩
  | _ => exact ⟨e.ledger, rfl⟩

theorem Call.Took.unreturned {e left : Engine} {c next : Call} {act : Act}
    (took : c.Took e act next left) (answer : Except Error SearchOutcome) :
    c.stage ≠ .returned answer := by
  intro returned
  cases took with
  | refuse called refused => cases returned.symm.trans called
  | accept called prepared => cases returned.symm.trans called
  | read admitted prepared => cases returned.symm.trans admitted
  | fire waits =>
      rcases waits with called | admitted
      · cases returned.symm.trans called
      · cases returned.symm.trans admitted
  | choose choice running follows => cases returned.symm.trans running
  | finish elapsed running ended => cases returned.symm.trans running

theorem State.step_act {s left : State} {place : Nat} {act : Act}
    (stepped : s.step (.act place act) = some left) :
    ∃ c next, s.calls[place]? = some c ∧ c.Took s.engine act next left.engine ∧
      left.calls = s.calls.set place next := by
  rw [step] at stepped
  cases found : s.calls[place]? with
  | none =>
      rw [found] at stepped
      cases stepped
  | some c =>
      rw [found] at stepped
      change (c.step s.engine act).bind _ = some left at stepped
      cases result : c.step s.engine act with
      | none =>
          rw [result] at stepped
          cases stepped
      | some pair =>
          rw [result] at stepped
          cases stepped
          exact ⟨c, pair.1, rfl, Call.took_of_step result, rfl⟩

theorem State.run_append (s : State) (events more : List Event) :
    s.run (events ++ more) = (s.run events).bind fun left => left.run more :=
  List.foldlM_append

/-- What every event keeps, given all events before it, holds after every run. -/
theorem State.run_induction {s : State} (kept : List Event → State → Prop)
    (step : ∀ events now event next, s.run events = some now → kept events now →
      now.step event = some next → kept (events ++ [event]) next)
    {before : List Event} {now : State} (ran : s.run before = some now) (holds : kept before now)
    (events : List Event) {left : State} (rest : now.run events = some left) :
    kept (before ++ events) left := by
  induction events generalizing before now with
  | nil =>
      cases rest
      rw [List.append_nil]
      exact holds
  | cons event events ih =>
      simp only [run, List.foldlM_cons] at rest
      cases stepped : now.step event with
      | none =>
          rw [stepped] at rest
          cases rest
      | some next =>
          rw [stepped] at rest
          have further : s.run (before ++ [event]) = some next := by
            rw [run_append, ran]
            change (now.step event).bind some = some next
            rw [stepped]
            rfl
          have whole := ih further (step before now event next ran holds stepped) rest
          rwa [List.append_assoc] at whole

end ProofOfWork.Shared
