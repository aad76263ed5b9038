import ProofOfWork.Proofs.Search.Count
set_option autoImplicit false

/-!
The engine's count of hashes, which its searches share. Every flush of a worker adds to it what it
adds to the count of the search, and no worker looks at it. So at every moment of a search that
nothing else disturbs both have grown by the same, modulo `2 ^ 64`, and a search that starts from
another count takes the same steps.
-/
namespace ProofOfWork.Search

/-- The board with another count of the engine. -/
def Board.counting (b : Board) (hashes : UInt64) : Board := { b with hashes }

/-- The crew with another count of the engine on its board. -/
def Crew.counting (crew : Crew) (hashes : UInt64) : Crew :=
  { crew with board := crew.board.counting hashes }

section Fields
variable (task : Task) (board : Board) (crew : Crew) (p : Plan) (hashes other : UInt64)

@[simp] theorem Board.counting_fired : (board.counting hashes).fired = board.fired := rfl

@[simp] theorem Board.poll_counting :
    (board.counting hashes).poll task = (board.poll task).counting hashes := by
  cases told : task.cancellable && board.fired with
  | true =>
      simp only [poll, counting_fired, told, if_true]
      rfl
  | false => simp only [poll, counting_fired, told, Bool.false_eq_true, if_false]

@[simp] theorem Board.flush_counting (pending : UInt64) :
    (board.counting hashes).flush pending = (board.flush pending).counting (hashes + pending) := rfl

@[simp] theorem Board.report_counting (mode : SearchMode) (n : Nonce) (digest : Digest) :
    (board.counting hashes).report mode n digest =
      (board.report mode n digest).counting hashes := by
  cases mode <;> rfl

@[simp] theorem Crew.counting_workers : (crew.counting hashes).workers = crew.workers := rfl

@[simp] theorem Crew.counting_counting :
    (crew.counting hashes).counting other = crew.counting other := rfl

@[simp] theorem Crew.move_counting (choice : Choice) :
    (crew.counting hashes).move choice = crew.move choice := by
  cases choice <;> rfl

@[simp] theorem Plan.counting_task : (p.counting hashes).task = p.task := rfl

@[simp] theorem Plan.counting_start : (p.counting hashes).start = p.start.counting hashes := rfl

end Fields

/-- No worker looks at the engine's count; it grows by what is written down. -/
theorem Worker.step_counting (task : Task) (age : Nat) (board : Board) (w : Worker)
    (hashes : UInt64) :
    w.step task age (board.counting hashes) =
      ((w.step task age board).1.counting (hashes + w.writing), (w.step task age board).2) := by
  cases phase : w.phase with
  | check =>
      simp only [Worker.step, Worker.writing, phase, UInt64.add_zero]
      by_cases passed : w.stop ≤ w.nonce
      · simp only [passed, if_true]
      · simp only [passed, if_false]
        by_cases told : (board.stopped || task.mode = .lowest && board.bound age < w.nonce) = true
        · simp only [if_pos told]
          exact if_pos told
        · simp only [if_neg told]
          exact if_neg told
  | advance =>
      simp only [Worker.step, Worker.writing, phase, UInt64.add_zero]
      split <;> rfl
  | _ => simp [Worker.step, Worker.writing, phase]

namespace Crew
variable (task : Task) (crew : Crew) (hashes : UInt64)

@[simp] theorem follow_counting (choice : Choice) :
    (crew.counting hashes).follow task choice =
      (crew.follow task choice).counting (hashes + written (crew.move choice)) := by
  cases choice with
  | fire => simp [follow, move, counting, Board.counting]
  | work place age =>
      cases found : crew.workers[place]? with
      | none => simp [follow, move, found]
      | some w => simp [follow, move, found, Worker.step_counting, counting]

@[simp] theorem after_counting (schedule : Schedule) :
    (crew.counting hashes).after task schedule =
      (crew.after task schedule).counting (hashes + written (crew.moves task schedule)) := by
  induction schedule generalizing crew hashes with
  | nil => simp [moves, after]
  | cons choice rest ih => simp [moves, ih, UInt64.add_assoc]

@[simp] theorem moves_counting (schedule : Schedule) :
    (crew.counting hashes).moves task schedule = crew.moves task schedule := by
  induction schedule generalizing crew hashes with
  | nil => rfl
  | cons choice rest ih => simp [moves, ih]

theorem follow_attempts (choice : Choice) :
    (crew.follow task choice).board.attempts =
      crew.board.attempts + written (crew.move choice) := by
  refine follow_cases (motive := fun _ made next =>
    next.board.attempts = crew.board.attempts + written made) ?_ ?_ ?_ choice
  · simp
  · simp
  · intro place age w _
    simp [(w.step_takes task age crew.board).attempts]

theorem after_attempts (schedule : Schedule) :
    (crew.after task schedule).board.attempts =
      crew.board.attempts + written (crew.moves task schedule) := by
  induction schedule generalizing crew with
  | nil => simp [after, moves]
  | cons choice rest ih => simp [moves, ih, follow_attempts, UInt64.add_assoc]

end Crew

namespace Plan
variable (p : Plan) (hashes : UInt64) (schedule : Schedule)

/-- At every moment the engine has counted what the search has, beside what it had before. -/
theorem after_hashes :
    (p.start.after p.task schedule).board.hashes =
      p.hashes + (p.start.after p.task schedule).board.attempts := by
  have same := congrArg (·.board.hashes) (p.start.after_counting p.task p.hashes schedule)
  have started : p.start.board.attempts = 0 := rfl
  rw [Crew.after_attempts, started, UInt64.zero_add]
  exact same

@[simp] theorem course_counting : (p.counting hashes).course schedule = p.course schedule := by
  simp [course, completed]

@[simp] theorem moves_counting : (p.counting hashes).moves schedule = p.moves schedule := by
  simp [moves]

/-- A search that starts from another count ends as it does from this one, but for the count. -/
theorem run_counting :
    (p.counting hashes).run schedule =
      (p.run schedule).counting (hashes + (p.run schedule).attempts) := by
  have started : p.start.board.attempts = 0 := rfl
  rw [← last_board, ← last_board, last, last, course_counting, Crew.after_attempts, started,
    UInt64.zero_add]
  exact congrArg Crew.board (p.start.after_counting p.task hashes (p.course schedule))

end Plan

theorem Crew.follow_pays (task : Task) (crew : Crew) (choice : Choice)
    (room : unwritten crew.workers + (hashed (crew.move choice)).length < 2 ^ 64) :
    (written (crew.move choice)).toNat + unwritten (crew.follow task choice).workers =
      unwritten crew.workers + (hashed (crew.move choice)).length := by
  revert room
  refine follow_cases (motive := fun _ made next =>
    unwritten crew.workers + (hashed made).length < 2 ^ 64 →
      (written made).toNat + unwritten next.workers =
        unwritten crew.workers + (hashed made).length) ?_ ?_ ?_ choice
  · simp
  · simp
  · intro place age w found room
    simp only [hashed_single, written_single] at room ⊢
    have some_of := pending_le_unwritten found
    have others := unwritten_set found (w.step task age crew.board).2
    have paid := (w.step_takes task age crew.board).pays (by omega)
    omega

theorem Plan.after_pays {p : Plan} (whole : p.Whole) (schedule : Schedule) (choice : Choice) :
    let crew := p.start.after p.task schedule
    (written (crew.move choice)).toNat + unwritten (crew.follow p.task choice).workers =
      unwritten crew.workers + (hashed (crew.move choice)).length := by
  intro crew
  -- all that is hashed fits in the range, so no count of it wraps
  have counted := after_counted whole (schedule ++ [choice])
  have most : (hashed (p.start.moves p.task schedule)).length +
      (hashed (crew.move choice)).length ≤ p.range.stop.toNat - p.range.first.toNat := by
    rw [← List.length_append, ← hashed_append, ← Crew.moves_snoc]
    exact (whole.within.after_sound _).length_le counted.places whole counted.distinct
  have balance : _ + unwritten crew.workers = _ := (after_counted whole schedule).balance
  have top := p.range.stop.toNat_lt
  exact crew.follow_pays p.task choice (by omega)

end ProofOfWork.Search
