import ProofOfWork.Proofs.Search.Run
set_option autoImplicit false

namespace ProofOfWork.Search

def Task.untokened (task : Task) : Task := { task with cancellable := false }

def Plan.untokened (p : Plan) : Plan := { p with task := p.task.untokened }

theorem Worker.Takes.fired {task : Task} {age : Nat} {board : Board} {w : Worker}
    {next : Board × Worker} (takes : w.Takes task age board next) :
    next.1.fired = board.fired := by
  cases takes <;> simp

/-- Only a look at a fired token tells the two tasks apart, and it cancels the search. -/
theorem Worker.step_untokened {task : Task} {age : Nat} {board : Board} {w : Worker}
    (uncancelled : (w.step task age board).1.cancelled = false) :
    w.step task.untokened age board = w.step task age board := by
  have polled : (board.poll task).cancelled = false →
      board.poll task.untokened = board.poll task := by
    unfold Board.poll
    intro unseen
    split at unseen
    · cases unseen
    · rename_i idle
      rw [if_neg idle]
      rfl
  cases phase : w.phase with
  | poll =>
      simp only [Worker.step, phase] at uncancelled ⊢
      rw [polled uncancelled]
  | lastPoll =>
      simp only [Worker.step, phase] at uncancelled ⊢
      rw [polled uncancelled]
  | check | hash =>
      simp only [Worker.step, phase]
      rfl
  | _ => simp only [Worker.step, phase, Task.untokened]

namespace Crew
variable {task : Task}

theorem follow_later (task : Task) (crew : Crew) (choice : Choice) :
    Board.Later crew.board (crew.follow task choice).board :=
  follow_cases (motive := fun _ _ next => Board.Later crew.board next.board) crew.board.fire_later
    (fun _ _ => .refl crew.board) (fun _ age w _ => (w.step_takes task age crew.board).later) choice

theorem after_later (task : Task) (crew : Crew) (schedule : Schedule) :
    Board.Later crew.board (crew.after task schedule).board := by
  induction schedule generalizing crew with
  | nil => exact .refl crew.board
  | cons choice rest ih => exact (crew.follow_later task choice).trans (ih _)

theorem follow_untokened {crew : Crew} (choice : Choice)
    (uncancelled : (crew.follow task choice).board.cancelled = false) :
    crew.follow task.untokened choice = crew.follow task choice := by
  cases choice with
  | fire => rfl
  | work place age =>
      cases found : crew.workers[place]? with
      | none => rw [follow_absent found, follow_absent found]
      | some w =>
          rw [follow_work found] at uncancelled ⊢
          rw [follow_work found, Worker.step_untokened uncancelled]

/-- Nobody unsays a cancellation, so every step on the way was one that a search without a token
takes as well. -/
theorem after_untokened {crew : Crew} (schedule : Schedule)
    (uncancelled : (crew.after task schedule).board.cancelled = false) :
    crew.after task.untokened schedule = crew.after task schedule := by
  induction schedule generalizing crew with
  | nil => rfl
  | cons choice rest ih =>
      have later := (crew.follow task choice).after_later task rest
      have now : (crew.follow task choice).board.cancelled = false := by
        refine Bool.eq_false_iff.mpr fun cancelled => ?_
        have still := later.cancelled cancelled
        rw [after_cons] at uncancelled
        rw [uncancelled] at still
        cases still
      simpa [follow_untokened choice now] using ih uncancelled

@[simp] theorem follow_fired (task : Task) (crew : Crew) (choice : Choice) :
    (crew.follow task choice).board.fired = true ↔ crew.board.fired = true ∨ choice = .fire := by
  refine follow_cases (motive := fun choice _ next =>
    next.board.fired = true ↔ crew.board.fired = true ∨ choice = .fire) ?_ ?_ ?_ choice
  · simp only [or_true]
  · intro place age
    simp only [reduceCtorEq, or_false]
  · intro place age w _
    rw [(w.step_takes task age crew.board).fired]
    simp only [reduceCtorEq, or_false]

@[simp] theorem after_fired (task : Task) (crew : Crew) (schedule : Schedule) :
    (crew.after task schedule).board.fired = true ↔
      crew.board.fired = true ∨ .fire ∈ schedule := by
  induction schedule generalizing crew with
  | nil => simp only [after, List.foldl_nil, List.not_mem_nil, or_false]
  | cons choice rest ih => simp [ih, or_assoc, eq_comm (a := choice)]

end Crew

theorem fire_not_mem_remainder (place : Nat) (workers : List Worker) :
    .fire ∉ remainder place workers := by
  induction workers generalizing place with
  | nil => exact List.not_mem_nil
  | cons w rest ih =>
      intro fires
      rcases List.mem_append.mp fires with here | later
      · cases List.eq_of_mem_replicate here
      · exact ih (place + 1) later

namespace Plan
variable {p : Plan}

@[simp] theorem run_fired (p : Plan) (schedule : Schedule) :
    (p.run schedule).fired = true ↔ p.fired = true ∨ .fire ∈ schedule := by
  have rest := fire_not_mem_remainder 0
    (p.start.after p.task schedule).workers
  rw [← last_board, last, Crew.after_fired, course, completed, List.mem_append]
  simp only [rest, or_false]
  rfl

/-- A search that was not cancelled ends as it would have without a token. -/
theorem run_untokened (schedule : Schedule) (uncancelled : (p.run schedule).cancelled = false) :
    p.untokened.run schedule = p.run schedule := by
  rw [← last_board] at uncancelled
  have whole := Crew.after_untokened (p.course schedule) uncancelled
  have start : (p.start.after p.task schedule).board.cancelled = false := by
    rw [last, course, completed, Crew.after_append] at uncancelled
    refine Bool.eq_false_iff.mpr fun cancelled => ?_
    rw [(Crew.after_later _ _ _).cancelled cancelled] at uncancelled
    cases uncancelled
  have same : p.untokened.course schedule = p.course schedule := by
    have here := Crew.after_untokened schedule start
    change schedule ++ remainder 0 (p.start.after p.task.untokened schedule).workers = _
    rw [here]
    rfl
  rw [← last_board, ← last_board, last, same]
  exact congrArg Crew.board whole

end Plan
end ProofOfWork.Search
