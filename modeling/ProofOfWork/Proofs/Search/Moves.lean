import ProofOfWork.Search.Schedule
set_option autoImplicit false

namespace ProofOfWork.Search

/-- The place of a worker that takes a step, and the worker before the step. -/
abbrev Move := Nat × Worker

/-- What a worker hashes in its next step. -/
def Worker.hashing (w : Worker) : List Nonce := if w.phase = .hash then [⟨w.nonce⟩] else []

/-- What a worker reports in its next step. -/
def Worker.reporting (w : Worker) : List (Nonce × Digest) :=
  match w.phase with
  | .report digest => [(⟨w.nonce⟩, digest)]
  | _ => []

/-- The hashes that a worker writes down in its next step. -/
def Worker.writing (w : Worker) : UInt64 :=
  match w.phase with
  | .flush | .lastFlush _ => w.pending
  | _ => 0

/-- The nonces that were hashed, in order. -/
def hashed (moves : List Move) : List Nonce := moves.flatMap fun move => move.2.hashing

/-- The nonces that the worker at a place hashed, in order. -/
def hashedBy (place : Nat) (moves : List Move) : List Nonce :=
  hashed (moves.filter fun move => move.1 = place)

def reports (moves : List Move) : List (Nonce × Digest) :=
  moves.flatMap fun move => move.2.reporting

/-- How many hashes were written down, as a counter has it that starts at zero. -/
def written (moves : List Move) : UInt64 :=
  moves.foldr (fun move count => move.2.writing + count) 0

@[simp] theorem hashed_nil : hashed [] = [] := rfl

@[simp] theorem hashed_append (before after : List Move) :
    hashed (before ++ after) = hashed before ++ hashed after := by
  simp [hashed]

@[simp] theorem hashed_single (move : Move) : hashed [move] = move.2.hashing := by
  simp [hashed]

@[simp] theorem written_nil : written [] = 0 := rfl

@[simp] theorem written_append (before after : List Move) :
    written (before ++ after) = written before + written after := by
  induction before with
  | nil => exact (UInt64.zero_add _).symm
  | cons move rest ih =>
      simp only [List.cons_append, written, List.foldr_cons] at ih ⊢
      rw [ih, UInt64.add_assoc]

@[simp] theorem written_single (move : Move) : written [move] = move.2.writing :=
  UInt64.add_zero _

@[simp] theorem hashedBy_append (place : Nat) (before after : List Move) :
    hashedBy place (before ++ after) = hashedBy place before ++ hashedBy place after := by
  simp only [hashedBy, hashed, List.filter_append, List.flatMap_append]

@[simp] theorem reports_append (before after : List Move) :
    reports (before ++ after) = reports before ++ reports after := by
  simp only [reports, List.flatMap_append]

@[simp]
theorem hashedBy_self (place : Nat) (w : Worker) : hashedBy place [(place, w)] = w.hashing := by
  simp [hashedBy, hashed]

@[simp] theorem hashedBy_other {place other : Nat} (apart : other ≠ place) (w : Worker) :
    hashedBy place [(other, w)] = [] := by
  simp [hashedBy, hashed, apart]

@[simp] theorem reports_single (move : Move) : reports [move] = move.2.reporting := by
  simp [reports]

theorem mem_hashed_of_hashedBy (place : Nat) {moves : List Move} {n : Nonce}
    (member : n ∈ hashedBy place moves) : n ∈ hashed moves := by
  simp only [hashedBy, hashed, List.mem_flatMap, List.mem_filter] at member ⊢
  obtain ⟨move, ⟨made, -⟩, shows⟩ := member
  exact ⟨move, made, shows⟩

namespace Crew

/-- The move that a choice makes. There is none when the token fires. -/
def move (crew : Crew) : Choice → List Move
  | .fire => []
  | .work worker _ => (crew.workers[worker]?.map fun w => (worker, w)).toList

def moves (task : Task) (crew : Crew) : Schedule → List Move
  | [] => []
  | choice :: rest => crew.move choice ++ (crew.follow task choice).moves task rest

private theorem set_found {α : Type} {items : List α} {place : Nat} {item : α}
    (found : items[place]? = some item) : items.set place item = items := by
  obtain ⟨inside, rfl⟩ := List.getElem?_eq_some_iff.mp found
  exact List.set_getElem_self inside

@[simp] theorem follow_work {task : Task} {crew : Crew} {place age : Nat} {w : Worker}
    (found : crew.workers[place]? = some w) :
    crew.follow task (.work place age) =
      ⟨(w.step task age crew.board).1, crew.workers.set place (w.step task age crew.board).2⟩ := by
  simp only [follow, found]

@[simp] theorem follow_absent {task : Task} {crew : Crew} {place age : Nat}
    (absent : crew.workers[place]? = none) : crew.follow task (.work place age) = crew := by
  simp only [follow, absent]

theorem move_work {crew : Crew} {place age : Nat} {w : Worker}
    (found : crew.workers[place]? = some w) : crew.move (.work place age) = [(place, w)] := by
  simp only [move, found, Option.map_some, Option.toList_some]

theorem move_absent {crew : Crew} {place age : Nat} (absent : crew.workers[place]? = none) :
    crew.move (.work place age) = [] := by
  simp only [move, absent, Option.map_none, Option.toList_none]

/-- All that a choice can do: the token fires, or a worker takes a step, or nobody is there. -/
theorem follow_cases {task : Task} {crew : Crew} {motive : Choice → List Move → Crew → Prop}
    (fire : motive .fire [] { crew with board := { crew.board with fired := true } })
    (absent : ∀ place age, motive (.work place age) [] crew)
    (work : ∀ place age w, crew.workers[place]? = some w →
      motive (.work place age) [(place, w)]
        ⟨(w.step task age crew.board).1, crew.workers.set place (w.step task age crew.board).2⟩)
    (choice : Choice) : motive choice (crew.move choice) (crew.follow task choice) := by
  cases choice with
  | fire => exact fire
  | work place age =>
      cases found : crew.workers[place]? with
      | none =>
          rw [follow_absent found, move_absent found]
          exact absent place age
      | some w =>
          rw [follow_work found, move_work found]
          exact work place age w found

@[simp] theorem after_cons (task : Task) (crew : Crew) (choice : Choice) (rest : Schedule) :
    crew.after task (choice :: rest) = (crew.follow task choice).after task rest := rfl

@[simp] theorem after_append (task : Task) (crew : Crew) (first second : Schedule) :
    crew.after task (first ++ second) = (crew.after task first).after task second := by
  simp only [after, List.foldl_append]

@[simp] theorem moves_append (task : Task) (crew : Crew) (before after : Schedule) :
    crew.moves task (before ++ after) =
      crew.moves task before ++ (crew.after task before).moves task after := by
  induction before generalizing crew with
  | nil => rfl
  | cons choice rest ih => simp [moves, ih]

theorem moves_snoc (task : Task) (crew : Crew) (schedule : Schedule) (choice : Choice) :
    crew.moves task (schedule ++ [choice]) =
      crew.moves task schedule ++ (crew.after task schedule).move choice := by
  simp [moves]

/-- What every choice keeps, along with the moves so far, holds after every schedule. -/
theorem after_induction (task : Task) (kept : List Move → Crew → Prop)
    (step : ∀ moves crew choice, kept moves crew →
      kept (moves ++ crew.move choice) (crew.follow task choice))
    (schedule : Schedule) {moves : List Move} {crew : Crew} (holds : kept moves crew) :
    kept (moves ++ crew.moves task schedule) (crew.after task schedule) := by
  induction schedule generalizing moves crew with
  | nil =>
      rw [Crew.moves, List.append_nil]
      exact holds
  | cons choice rest ih =>
      have next := ih (step moves crew choice holds)
      rwa [List.append_assoc] at next

end Crew

theorem Worker.step_done {task : Task} {age : Nat} {board : Board} {w : Worker}
    (ended : w.phase = .done) : w.step task age board = (board, w) := by
  simp only [Worker.step, ended]

theorem Worker.finish_done (task : Task) (board : Board) (w : Worker) :
    (w.finish task board).2.phase = .done := by
  fun_induction Worker.finish task board w with
  | case1 board w ended => exact ended
  | case2 board w running next ih => exact ih

theorem finished_done (task : Task) (board : Board) {workers : List Worker}
    (ended : ∀ w ∈ workers, w.phase = .done) : finished task board workers = board := by
  induction workers with
  | nil => rfl
  | cons w rest ih =>
      have here : (w.finish task board).1 = board := by
        rw [Worker.finish, if_pos (ended w (List.mem_cons_self ..))]
      rw [finished, List.foldl_cons, here]
      exact ih fun v member => ended v (List.mem_cons_of_mem w member)

/-- As many steps as each worker can need, one worker after another. -/
def remainder : Nat → List Worker → Schedule
  | _, [] => []
  | place, w :: rest => List.replicate w.remaining (.work place 0) ++ remainder (place + 1) rest

namespace Crew

theorem after_ended {task : Task} {crew : Crew} {place : Nat} {w : Worker}
    (found : crew.workers[place]? = some w) (ended : w.phase = .done) (count : Nat) :
    crew.after task (List.replicate count (.work place 0)) = crew := by
  induction count with
  | zero => rfl
  | succ count ih =>
      have same : crew.follow task (.work place 0) = crew := by
        rw [follow_work found, Worker.step_done ended, set_found found]
      simp [List.replicate_succ, same, ih]

/-- Steps beyond a worker's end change nothing, so a bound on their number is enough. -/
theorem after_alone {task : Task} (count : Nat) {crew : Crew} {place : Nat} {w : Worker}
    (found : crew.workers[place]? = some w) (enough : w.remaining ≤ count) :
    crew.after task (List.replicate count (.work place 0)) =
      ⟨(w.finish task crew.board).1, crew.workers.set place (w.finish task crew.board).2⟩ := by
  -- on the steps; once the worker has ended, the rest of them changes nothing
  induction count generalizing crew w with
  | zero =>
      have ended : w.phase = .done := Decidable.byContradiction fun running => by
        have less := w.remaining_step_lt task 0 crew.board running
        omega
      rw [Worker.finish, if_pos ended, set_found found]
      rfl
  | succ count ih =>
      by_cases ended : w.phase = .done
      · rw [after_ended found ended, Worker.finish, if_pos ended,
          set_found found]
      · have less := w.remaining_step_lt task 0 crew.board ended
        have inside : place < crew.workers.length :=
          (List.getElem?_eq_some_iff.mp found).1
        have next : (crew.workers.set place (w.step task 0 crew.board).2)[place]? =
            some (w.step task 0 crew.board).2 := List.getElem?_set_self inside
        rw [List.replicate_succ, after_cons, follow_work found, ih next (by omega),
          Worker.finish.eq_def task crew.board w, if_neg ended]
        simp only [List.set_set]

theorem after_remainder (task : Task) (board : Board) (front rest : List Worker) :
    ∃ ended : List Worker, (∀ w ∈ ended, w.phase = .done) ∧
      (⟨board, front ++ rest⟩ : Crew).after task (remainder front.length rest) =
        ⟨finished task board rest, front ++ ended⟩ := by
  induction rest generalizing board front with
  | nil => exact ⟨[], by simp, rfl⟩
  | cons w rest ih =>
      obtain ⟨ended, done, run⟩ :=
        ih (w.finish task board).1 (front ++ [(w.finish task board).2])
      refine ⟨(w.finish task board).2 :: ended, ?_, ?_⟩
      · intro v member
        rcases List.mem_cons.mp member with rfl | later
        · exact w.finish_done task board
        · exact done v later
      · have found : (⟨board, front ++ w :: rest⟩ : Crew).workers[front.length]? = some w := by
          simp
        rw [remainder, after_append, after_alone w.remaining found (Nat.le_refl _)]
        simpa [finished] using run

end Crew

/-- A schedule with the steps that the workers still take after it. -/
def completed (task : Task) (crew : Crew) (schedule : Schedule) : Schedule :=
  schedule ++ remainder 0 (crew.after task schedule).workers

theorem after_completed (task : Task) (crew : Crew) (schedule : Schedule) :
    (∀ w ∈ (crew.after task (completed task crew schedule)).workers, w.phase = .done) ∧
      (crew.after task (completed task crew schedule)).board =
        finished task (crew.after task schedule).board (crew.after task schedule).workers := by
  obtain ⟨ended, done, run⟩ := Crew.after_remainder task (crew.after task schedule).board []
    (crew.after task schedule).workers
  have whole : crew.after task (completed task crew schedule) =
      ⟨finished task (crew.after task schedule).board (crew.after task schedule).workers,
        ended⟩ := by
    simpa [completed] using run
  rw [whole]
  exact ⟨done, rfl⟩

end ProofOfWork.Search
