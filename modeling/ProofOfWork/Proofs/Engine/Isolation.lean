import ProofOfWork.Proofs.Engine.Shared
set_option autoImplicit false

namespace ProofOfWork.Shared

/-- The search at a place was called for. -/
def CalledIn (e : Engine) (place : Nat) (r : SearchRequest) (events : List Event) : Prop :=
  ∃ before after s, events = before ++ .call r :: after ∧
    (State.mk e []).run before = some s ∧ s.calls.length = place

/-- After its call the search at a place read the target, which was `t` at that moment. -/
def ReadIn (e : Engine) (place : Nat) (r : SearchRequest) (t : Target) (events : List Event) :
    Prop :=
  ∃ before after s, events = before ++ .act place .read :: after ∧ CalledIn e place r before ∧
    (State.mk e []).run before = some s ∧ s.engine.target = t

/-- After it read the target of its outcome, the search at a place returned the outcome, as it does
alone on an engine that has this target when its workers take the same steps. -/
def ReturnedIn (e : Engine) (place : Nat) (r : SearchRequest) (o : SearchOutcome)
    (events : List Event) : Prop :=
  ∃ before after elapsed, events = before ++ .act place (.finish elapsed) :: after ∧
    ReadIn e place r o.target before ∧
    ((e.setTarget o.target).search r { schedule := schedule place before, elapsed }).answer = .ok o

section History
variable {e : Engine} {place : Nat} {r : SearchRequest} {events : List Event}

theorem CalledIn.snoc (called : CalledIn e place r events) (event : Event) :
    CalledIn e place r (events ++ [event]) := by
  obtain ⟨before, after, s, rfl, ran, length⟩ := called
  exact ⟨before, after ++ [event], s, List.append_assoc .., ran, length⟩

theorem ReadIn.snoc {t : Target} (read : ReadIn e place r t events) (event : Event) :
    ReadIn e place r t (events ++ [event]) := by
  obtain ⟨before, after, s, rfl, called, ran, target⟩ := read
  exact ⟨before, after ++ [event], s, List.append_assoc .., called, ran, target⟩

theorem ReturnedIn.snoc {o : SearchOutcome} (returned : ReturnedIn e place r o events)
    (event : Event) : ReturnedIn e place r o (events ++ [event]) := by
  obtain ⟨before, after, elapsed, rfl, read, alone⟩ := returned
  exact ⟨before, after ++ [event], elapsed, List.append_assoc .., read, alone⟩

theorem schedule_snoc (place : Nat) (events : List Event) (event : Event) :
    schedule place (events ++ [event]) = schedule place events ++ (event.choice place).toList := by
  rw [schedule, List.filterMap_append]
  cases shown : event.choice place <;> simp [schedule, shown]

theorem schedule_skip {event : Event} (silent : event.choice place = none) :
    schedule place (events ++ [event]) = schedule place events := by
  rw [schedule_snoc, silent]
  exact List.append_nil _

theorem choice_other {there : Nat} (apart : there ≠ place) (act : Act) :
    (Event.act there act).choice place = none := by
  cases act with
  | choose choice => simp only [Event.choice, apart, if_false]
  | _ => rfl

theorem schedule_choose (choice : Search.Choice) :
    schedule place (events ++ [.act place (.choose choice)]) = schedule place events ++ [choice] := by
  rw [schedule_snoc]
  simp only [Event.choice, if_true, Option.toList_some]

end History

/-- Before the target is read only the token has fired, or nothing has happened. -/
def Idle (place : Nat) (events : List Event) (fired : Bool) : Prop :=
  ∀ task parts, (Search.Crew.start false parts).after task (schedule place events) =
    Search.Crew.start fired parts

/-- What has happened by the stage of a call. The crew has taken the steps of its own schedule; the
engine's count on its board is whatever it found. -/
def Life (e : Engine) (place : Nat) (events : List Event) (r : SearchRequest) (fired : Bool) :
    Stage → Prop
  | .called | .admitted => CalledIn e place r events ∧ Idle place events fired
  | .running plan crew => ∃ t hashes, ReadIn e place r t events ∧
      (e.setTarget t).prepare r = .ok plan ∧
      crew = (plan.start.after plan.task (schedule place events)).counting hashes
  | .returned (.ok o) => ReturnedIn e place r o events
  | .returned (.error _) => True

section Step
variable {e : Engine} {place : Nat} {events : List Event} {c : Call}

/-- The events of others, and new targets, change nothing for a call. -/
theorem Life.skip {r : SearchRequest} {fired : Bool} {stage : Stage}
    (life : Life e place events r fired stage) {event : Event}
    (silent : event.choice place = none) : Life e place (events ++ [event]) r fired stage := by
  have waits (called : CalledIn e place r events ∧ Idle place events fired) :
      CalledIn e place r (events ++ [event]) ∧ Idle place (events ++ [event]) fired := by
    rw [Idle, schedule_skip silent]
    exact ⟨called.1.snoc event, called.2⟩
  cases stage with
  | called => exact waits life
  | admitted => exact waits life
  | running plan crew =>
      obtain ⟨t, hashes, read, prepared, course⟩ := life
      rw [Life, schedule_skip silent]
      exact ⟨t, hashes, read.snoc event, prepared, course⟩
  | returned answer =>
      cases answer with
      | ok o => exact ReturnedIn.snoc life event
      | error fault => trivial

theorem Life.waiting {r : SearchRequest} {fired : Bool} {stage : Stage}
    (life : Life e place events r fired stage) (waits : stage = .called ∨ stage = .admitted) :
    CalledIn e place r events ∧ Idle place events fired := by
  rcases waits with rfl | rfl <;> exact life

/-- A plan is only made while the token has not fired, and its task has the target of the engine. -/
theorem prepared_target {t : Target} {r : SearchRequest} {plan : Search.Plan}
    (prepared : (e.setTarget t).prepare r = .ok plan) :
    plan.start = .start false plan.parts ∧ plan.task.target = t := by
  obtain ⟨rfl, -⟩ := (Engine.admits_of_prepare prepared).prepare_eq prepared
  exact ⟨rfl, rfl⟩

theorem conclude_target {plan : Search.Plan} {course : Search.Course} {o : SearchOutcome}
    (answer : (e.conclude plan course).1 = .ok o) : o.target = plan.task.target := by
  simp only [Engine.conclude] at answer
  split at answer
  · cases answer
  · rw [← Except.ok.inj answer]

/-- A search whose workers have ended answers as it does alone with the same schedule. -/
theorem conclude_alone (now : Engine) {t : Target} {r : SearchRequest} {plan : Search.Plan}
    (prepared : (e.setTarget t).prepare r = .ok plan) (schedule : Search.Schedule)
    (ended : ∀ w ∈ (plan.start.after plan.task schedule).workers, w.phase = .done)
    (elapsed : Duration) :
    (now.conclude plan
      { board := (plan.start.after plan.task schedule).board, elapsed }).1 =
        ((e.setTarget t).search r { schedule, elapsed }).answer := by
  have whole : plan.run schedule = (plan.start.after plan.task schedule).board :=
    Search.finished_done plan.task _ ended
  rw [Engine.search_prepared prepared]
  dsimp only
  rw [whole]
  exact Engine.conclude_answer _ _ _ _

/-- A token that fires before the target is read is seen by the workers from the start. -/
theorem Idle.fire {fired : Bool} (idle : Idle place events fired) :
    Idle place (events ++ [.act place (.choose .fire)]) true := by
  intro task parts
  rw [schedule_choose, Search.Crew.after_append, idle task parts]
  rfl

theorem returnedIn_of_conclude (now : Engine) {t : Target} {r : SearchRequest}
    {plan : Search.Plan} (read : ReadIn e place r t events)
    (prepared : (e.setTarget t).prepare r = .ok plan)
    (ended : ∀ w ∈ (plan.start.after plan.task (schedule place events)).workers, w.phase = .done)
    {elapsed : Duration} {o : SearchOutcome}
    (answer : (now.conclude plan { board :=
      (plan.start.after plan.task (schedule place events)).board, elapsed }).1 = .ok o) :
    ReturnedIn e place r o (events ++ [.act place (.finish elapsed)]) := by
  have alone := conclude_alone now prepared (schedule place events) ended elapsed
  have snapshot : o.target = t := (conclude_target answer).trans (prepared_target prepared).2
  subst snapshot
  exact ⟨events, [], elapsed, rfl, read, alone.symm.trans answer⟩

/-- A call keeps to its life whatever it does. -/
theorem Call.Took.life {left : Engine} {next : Call} {act : Act} {s : State}
    (took : c.Took s.engine act next left) (ran : (State.mk e []).run events = some s)
    (same : ∃ t l, s.engine = { e with target := t, ledger := l })
    (life : Life e place events c.request c.fired c.stage) :
    Life e place (events ++ [.act place act]) next.request next.fired next.stage := by
  obtain ⟨t, l, same⟩ := same
  -- the acts of others are skipped in the schedule, so only the own stage moves on
  cases took with
  | refuse called refused => trivial
  | accept called prepared =>
      rw [called] at life
      obtain ⟨made, idle⟩ := life
      refine ⟨made.snoc _, ?_⟩
      rw [Idle, schedule_skip rfl]
      exact idle
  | @read plan admitted prepared =>
      rw [admitted] at life
      obtain ⟨called, idle⟩ := life
      have prepared : (e.setTarget t).prepare c.request = .ok plan := by
        rw [same] at prepared
        exact prepared
      refine ⟨t, 0, ⟨events, [], s, rfl, called, ran, by rw [same]⟩, prepared, ?_⟩
      rw [schedule_skip rfl, (prepared_target prepared).1, idle]
      rfl
  | fire waits =>
      obtain ⟨called, idle⟩ := life.waiting waits
      dsimp only
      rcases waits with stage | stage <;> rw [stage] <;> exact ⟨called.snoc _, idle.fire⟩
  | @choose plan crew moved choice running follows =>
      rw [running] at life
      obtain ⟨target, hashes, read, prepared, rfl⟩ := life
      rw [Search.Crew.counting_counting, Search.Crew.follow_counting] at follows
      rw [Life, schedule_choose, Search.Crew.after_append]
      exact ⟨target, _, read.snoc _, prepared, follows.symm⟩
  | @finish plan crew elapsed running ended =>
      rw [running] at life
      obtain ⟨target, hashes, read, prepared, rfl⟩ := life
      dsimp only
      -- the engine's count is no part of the answer
      cases answer : (s.engine.conclude plan { board := ((plan.start.after plan.task
        (schedule place events)).counting hashes).board, elapsed }).1 with
      | error fault => trivial
      | ok o => exact returnedIn_of_conclude s.engine read prepared ended answer

end Step

/-- What every event keeps: only the target and the ledger of the engine change, and every call
keeps to its life. -/
structure Sound (e : Engine) (events : List Event) (s : State) : Prop where
  same : ∃ t l, s.engine = { e with target := t, ledger := l }
  life : ∀ place c, s.calls[place]? = some c →
    Life e place events c.request c.fired c.stage
  beyond : ∀ place, s.calls.length ≤ place → schedule place events = []

theorem Sound.start (e : Engine) : Sound e [] ⟨e, []⟩ := by
  refine ⟨⟨e.target, e.ledger, rfl⟩, ?_, fun _ _ => rfl⟩
  intro place c found
  rw [List.getElem?_nil] at found
  cases found

section Event
variable {e : Engine} {events : List Event} {now left : State}

/-- A new call has no history yet, and the others keep to theirs. -/
theorem Sound.call (ran : (State.mk e []).run events = some now) (sound : Sound e events now)
    (request : SearchRequest) :
    Sound e (events ++ [.call request]) { now with calls := now.calls ++ [{ request }] } := by
  refine ⟨sound.same, ?_, ?_⟩
  · intro place c found
    by_cases earlier : place < now.calls.length
    · rw [List.getElem?_append_left earlier] at found
      exact (sound.life place c found).skip rfl
    · have inside := (List.getElem?_eq_some_iff.mp found).1
      rw [List.length_append, List.length_singleton] at inside
      have here : place = now.calls.length := by omega
      subst here
      rw [List.getElem?_concat_length, Option.some.injEq] at found
      subst found
      refine ⟨⟨events, [], now, rfl, ran, rfl⟩, ?_⟩
      rw [Idle, schedule_skip rfl, sound.beyond _ (Nat.le_refl _)]
      exact fun _ _ => rfl
  · intro place outside
    rw [List.length_append] at outside
    rw [schedule_skip rfl]
    exact sound.beyond place (by omega)

theorem Sound.setTarget (sound : Sound e events now) (t : Target) :
    Sound e (events ++ [.setTarget t]) { now with engine := now.engine.setTarget t } := by
  refine ⟨?_, fun place c found => (sound.life place c found).skip rfl, ?_⟩
  · obtain ⟨old, l, same⟩ := sound.same
    refine ⟨t, l, ?_⟩
    rw [same]
    rfl
  · intro place outside
    rw [schedule_skip rfl]
    exact sound.beyond place outside

/-- An act goes on with the life of its own call and is nothing to the others. -/
theorem Sound.act (ran : (State.mk e []).run events = some now) (sound : Sound e events now)
    {place : Nat} {act : Act} (stepped : now.step (.act place act) = some left) :
    Sound e (events ++ [.act place act]) left := by
  obtain ⟨c, next, found, took, calls⟩ := State.step_act stepped
  have inside := (List.getElem?_eq_some_iff.mp found).1
  refine ⟨?_, ?_, ?_⟩
  · obtain ⟨t, l, same⟩ := sound.same
    obtain ⟨ledger, frame⟩ := took.frame
    rw [frame, same]
    exact ⟨t, ledger, rfl⟩
  · intro there d seen
    rw [calls] at seen
    -- the call that acts, and the calls for which its act is nothing
    by_cases here : there = place
    · subst here
      rw [List.getElem?_set_self inside, Option.some.injEq] at seen
      subst seen
      exact took.life ran sound.same (sound.life there c found)
    · rw [List.getElem?_set_ne (Ne.symm here)] at seen
      exact (sound.life there d seen).skip (choice_other (Ne.symm here) act)
  · intro there outside
    rw [calls, List.length_set] at outside
    rw [schedule_skip (choice_other (by omega) act)]
    exact sound.beyond there outside

theorem Sound.step {event : Event} (ran : (State.mk e []).run events = some now)
    (sound : Sound e events now) (stepped : now.step event = some left) :
    Sound e (events ++ [event]) left := by
  cases event with
  | call request =>
      cases stepped
      exact sound.call ran request
  | setTarget t =>
      cases stepped
      exact sound.setTarget t
  | act place act => exact sound.act ran stepped

end Event

theorem Sound.run {e : Engine} {events : List Event} {s : State}
    (ran : (State.mk e []).run events = some s) : Sound e events s :=
  State.run_induction (Sound e) (fun _ _ _ _ ran sound stepped => sound.step ran stepped)
    (rfl : (State.mk e []).run [] = some ⟨e, []⟩) (Sound.start e) events ran

theorem State.step_returned {s left : State} {event : Event} (stepped : s.step event = some left)
    {place : Nat} {c : Call} (found : s.calls[place]? = some c)
    {answer : Except Error SearchOutcome} (returned : c.stage = .returned answer) :
    left.calls[place]? = some c := by
  cases event with
  | call r =>
      cases stepped
      rw [List.getElem?_append_left (List.getElem?_eq_some_iff.mp found).1]
      exact found
  | setTarget t =>
      cases stepped
      exact found
  | act there act =>
      obtain ⟨d, next, seen, took, calls⟩ := State.step_act stepped
      have apart : there ≠ place := by
        rintro rfl
        rw [seen, Option.some.injEq] at found
        subst found
        exact took.unreturned answer returned
      rw [calls, List.getElem?_set_ne apart]
      exact found

theorem State.run_returned {s left : State} {events : List Event} (ran : s.run events = some left)
    {place : Nat} {c : Call} (found : s.calls[place]? = some c)
    {answer : Except Error SearchOutcome} (returned : c.stage = .returned answer) :
    left.calls[place]? = some c :=
  State.run_induction (fun _ now => now.calls[place]? = some c)
    (fun _ _ _ _ _ kept stepped => State.step_returned stepped kept returned)
    (rfl : s.run [] = some s) found events ran

/-- Whatever searches and new targets come between its steps, a search that returns an outcome has
read the target of the outcome at one moment between its call and its return, and its result is
right for this target, for its own data and for its own range. It is the outcome of the search alone
on an engine with this target, and it stays as it is. -/
theorem search_isolated (e : Engine) (events : List Event) (workers : 1 ≤ e.workers) {s : State}
    (ran : (State.mk e []).run events = some s) {place : Nat} {c : Call}
    (found : s.calls[place]? = some c) {o : SearchOutcome} (returned : c.stage = .returned (.ok o)) :
    ReturnedIn e place c.request o events ∧
    o.result.Genuine ((e.setTarget o.target).Solves c.request)
      (e.hasher.digest c.request.data) ∧
    (o.result = .exhausted ↔ ∀ n, ¬ (e.setTarget o.target).Solves c.request n) ∧
    (e.config.mode = .lowest → o.result.Lowest ((e.setTarget o.target).Solves c.request)
      (e.hasher.digest c.request.data)) ∧
    ∀ more left, (State.mk e []).run (events ++ more) = some left →
      left.calls[place]? = some c := by
  have life := (Sound.run ran).life place c found
  rw [returned] at life
  obtain ⟨before, after, elapsed, history, read, alone⟩ := life
  have admits := Engine.admits_of_answer alone
  have genuine := admits.answer_genuine workers alone
  refine ⟨⟨before, after, elapsed, history, read, alone⟩, genuine, ?_, ?_, ?_⟩
  · constructor
    · intro exhausted
      rw [exhausted] at genuine
      exact genuine
    · intro none
      cases result : o.result with
      | exhausted => rfl
      | found n digest =>
          rw [result] at genuine
          exact absurd genuine.1 (none n)
  · intro lowest
    exact admits.answer_lowest workers lowest alone
  · intro more left further
    rw [State.run_append, ran] at further
    exact State.run_returned further found returned

/-- While a search is under way, the target is replaced by the one that accepts everything, and
another search begins. -/
def crossing : List Event :=
  [.call { data := [7], start := ⟨2⟩, maxAttempts := 1 }, .act 0 .check,
    .call { data := [8], start := ⟨0⟩, maxAttempts := 1 }, .act 0 .read, .setTarget .max,
    .act 1 .check, .act 0 (.choose (.work 0 0)), .act 1 .read, .act 0 (.choose (.work 0 0)),
    .act 1 (.choose (.work 0 0)), .act 0 (.choose (.work 0 0)), .act 0 (.choose (.work 0 0)),
    .act 0 (.finish .zero)]

/-- The first search keeps to the target zero, for which only the nonce two is a solution. -/
theorem search_isolated_of_crossing :
    ∃ s c o, (State.mk (Engine.marking [2] .lowest 2) []).run crossing = some s ∧
      s.engine.target = .max ∧ s.calls[0]? = some c ∧ c.stage = .returned (.ok o) ∧
      o.target = .zero ∧ o.result.Lowest
        (((Engine.marking [2] .lowest 2).setTarget .zero).Solves c.request)
        ((Engine.marking [2] .lowest 2).hasher.digest c.request.data) := by
  obtain ⟨s, c, o, ran, replaced, found, returned, target⟩ :
      ∃ s c o, (State.mk (Engine.marking [2] .lowest 2) []).run crossing = some s ∧
        s.engine.target = .max ∧ s.calls[0]? = some c ∧ c.stage = .returned (.ok o) ∧
        o.target = .zero := ⟨_, _, _, rfl, rfl, rfl, rfl, rfl⟩
  obtain ⟨-, -, -, lowest, -⟩ := search_isolated (Engine.marking [2] .lowest 2) crossing (by decide)
    ran found returned
  refine ⟨s, c, o, ran, replaced, found, returned, target, ?_⟩
  rw [← target]
  exact lowest rfl

end ProofOfWork.Shared
