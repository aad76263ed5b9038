import ProofOfWork.Proofs.Search.Token
set_option autoImplicit false

/-!
How much a worker can still hash when the token has fired. It looks at the token after each batch,
and a look at a fired token stops all workers, the one that looks included. So what is left to a
worker is at most the rest of its batch, whatever the others do.
-/
namespace ProofOfWork.Search

/-- The batch of a worker has room wherever another hash may follow. -/
def Worker.Batched (task : Task) (w : Worker) : Prop :=
  match w.phase with
  | .check | .hash | .advance => w.pending.toNat < task.batch.toNat
  | .poll => w.pending = 0
  | .report _ | .flush | .lastFlush _ | .lastPoll | .done => True

/-- The nonces that a worker may still hash once the token has fired. -/
def Worker.allowance (task : Task) (board : Board) (w : Worker) : Nat :=
  match w.phase with
  | .hash => if board.stopped then 1 else task.batch.toNat - w.pending.toNat
  | .check | .advance => if board.stopped then 0 else task.batch.toNat - w.pending.toNat
  | .report _ | .flush | .poll | .lastFlush _ | .lastPoll | .done => 0

section
variable {task : Task} {w : Worker} {age : Nat} {board : Board} {next : Board × Worker}

theorem Worker.at_batched (r : NonceRange) (filled : 1 ≤ task.batch.toNat) :
    (Worker.at r).Batched task := by
  change (0 : UInt64).toNat < task.batch.toNat
  rw [UInt64.toNat_zero]
  omega

theorem Worker.pending_succ (room : w.pending.toNat < task.batch.toNat) :
    (w.pending + 1).toNat = w.pending.toNat + 1 := by
  have most := task.batch.toNat_lt
  exact add_toNat (by rw [UInt64.toNat_one]; omega)

theorem Worker.Batched.takes (batched : w.Batched task) (filled : 1 ≤ task.batch.toNat)
    (takes : w.Takes task age board next) : next.2.Batched task := by
  unfold Batched at batched
  cases takes with
  | onward phase | advance phase =>
      rw [phase] at batched
      exact batched
  | miss phase _ room =>
      rw [phase] at batched
      have apart : (w.pending + 1).toNat ≠ task.batch.toNat :=
        fun same => room (UInt64.toNat_inj.mp same)
      have one := Worker.pending_succ batched
      change (w.pending + 1).toNat < task.batch.toNat
      omega
  | flush => rfl
  | poll phase =>
      rw [phase] at batched
      change w.pending.toNat < task.batch.toNat
      rw [batched, UInt64.toNat_zero]
      omega
  | lastFlush ranOut => cases ranOut <;> trivial
  | done => exact batched
  | _ => trivial

theorem Worker.Batched.allowance_le (batched : w.Batched task) (board : Board) :
    w.allowance task board ≤ task.batch.toNat := by
  cases phase : w.phase with
  | hash =>
      simp only [Batched, phase] at batched
      simp only [allowance, phase]
      split <;> omega
  | check | advance =>
      simp only [allowance, phase]
      split <;> omega
  | _ => simp only [allowance, phase, Nat.zero_le]

/-- Steps of other workers can only take from what is left to a worker. -/
theorem Worker.Batched.allowance_later (batched : w.Batched task) {old new : Board}
    (later : Board.Later old new) : w.allowance task new ≤ w.allowance task old := by
  cases phase : w.phase with
  | hash | check | advance =>
      simp only [Batched, phase] at batched
      simp only [allowance, phase]
      cases stopped : old.stopped with
      | true => simp only [later.stopped stopped, if_true, Nat.le_refl]
      | false =>
          simp only [Bool.false_eq_true, if_false]
          split <;> omega
  | _ => simp only [allowance, phase, Nat.le_refl]

theorem Board.poll_stopped {board : Board} (cancellable : task.cancellable = true)
    (fired : board.fired = true) : (board.poll task).stopped = true := by
  simp only [Board.poll, cancellable, fired, Bool.and_self, if_true]

/-- Each hash is paid for with what was left to the worker; a look at the token leaves nothing. -/
theorem Worker.Batched.takes_allowance (batched : w.Batched task)
    (cancellable : task.cancellable = true) (fired : board.fired = true)
    (takes : w.Takes task age board next) :
    w.hashing.length + next.2.allowance task next.1 ≤ w.allowance task board := by
  unfold Batched at batched
  cases takes with
  | onward phase before free =>
      rw [Worker.hashing_of_quiet (phase ▸ trivial)]
      simp only [allowance, phase, free, Bool.false_eq_true, if_false, List.length_nil,
        Nat.zero_add, Nat.le_refl]
  | hit phase | fill phase =>
      rw [phase] at batched
      rw [Worker.hashing_of_hash phase]
      simp only [allowance, phase, List.length_singleton]
      split <;> omega
  | miss phase =>
      rw [phase] at batched
      have counted := Worker.pending_succ batched
      rw [Worker.hashing_of_hash phase]
      simp only [allowance, phase, List.length_singleton]
      split <;> omega
  | poll phase =>
      rw [Worker.hashing_of_quiet (phase ▸ trivial)]
      simp only [allowance, Board.poll_stopped cancellable fired, if_true, List.length_nil,
        Nat.zero_add, Nat.zero_le]
  | advance phase =>
      rw [Worker.hashing_of_quiet (phase ▸ trivial)]
      simp only [allowance, phase, List.length_nil, Nat.zero_add, Nat.le_refl]
  | lastFlush ranOut phase =>
      rw [Worker.hashing_of_quiet (phase ▸ trivial)]
      cases ranOut <;> exact Nat.zero_le _
  | report digest phase =>
      rw [Worker.hashing_of_report phase]
      exact Nat.zero_le _
  | beyond phase | told phase | flush phase | greatest phase | lastPoll phase =>
      rw [Worker.hashing_of_quiet (phase ▸ trivial)]
      exact Nat.zero_le _
  | done phase =>
      rw [Worker.hashing_of_quiet (phase ▸ trivial)]
      exact Nat.le_of_eq (Nat.zero_add _)

end

namespace Crew
variable {task : Task} {crew : Crew}

/-- All workers have room in their batches where they need it. -/
def Batched (task : Task) (crew : Crew) : Prop := ∀ w ∈ crew.workers, w.Batched task

/-- What is left to the worker at a place, if there is one. -/
def allowance (task : Task) (crew : Crew) (place : Nat) : Nat :=
  (crew.workers[place]?.map fun w => w.allowance task crew.board).getD 0

theorem start_batched (fired : Bool) (parts : List NonceRange) (hashes : UInt64)
    (filled : 1 ≤ task.batch.toNat) : (Crew.start fired parts hashes).Batched task := by
  intro w member
  obtain ⟨r, -, rfl⟩ := List.mem_map.mp member
  exact Worker.at_batched r filled

theorem Batched.follow (batched : crew.Batched task) (filled : 1 ≤ task.batch.toNat)
    (choice : Choice) : (crew.follow task choice).Batched task := by
  refine follow_cases (motive := fun _ _ next => next.Batched task) batched (fun _ _ => batched)
    ?_ choice
  intro place age w found v member
  rcases List.mem_or_eq_of_mem_set member with other | rfl
  · exact batched v other
  · exact (batched w (List.mem_of_getElem? found)).takes filled
      (w.step_takes task age crew.board)

theorem Batched.after (batched : crew.Batched task) (filled : 1 ≤ task.batch.toNat)
    (schedule : Schedule) : (crew.after task schedule).Batched task := by
  induction schedule generalizing crew with
  | nil => exact batched
  | cons choice rest ih => exact ih (batched.follow filled choice)

theorem Batched.allowance_le (batched : crew.Batched task) (place : Nat) :
    crew.allowance task place ≤ task.batch.toNat := by
  unfold allowance
  cases found : crew.workers[place]? with
  | none => exact Nat.zero_le _
  | some w => exact (batched w (List.mem_of_getElem? found)).allowance_le crew.board

theorem Batched.allowance_later (batched : crew.Batched task) {next : Crew} {place : Nat}
    (later : Board.Later crew.board next.board)
    (same : next.workers[place]? = crew.workers[place]?) :
    next.allowance task place ≤ crew.allowance task place := by
  unfold allowance
  rw [same]
  cases found : crew.workers[place]? with
  | none => exact Nat.le_refl _
  | some w => exact (batched w (List.mem_of_getElem? found)).allowance_later later

theorem Batched.follow_allowance (batched : crew.Batched task)
    (cancellable : task.cancellable = true) (fired : crew.board.fired = true) (place : Nat)
    (choice : Choice) :
    (hashedBy place (crew.move choice)).length + (crew.follow task choice).allowance task place ≤
      crew.allowance task place := by
  refine follow_cases (motive := fun _ made next =>
    (hashedBy place made).length + next.allowance task place ≤ crew.allowance task place)
    ?_ ?_ ?_ choice
  · have left : Crew.allowance task { crew with board := { crew.board with fired := true } } place ≤
        crew.allowance task place := batched.allowance_later crew.board.fire_later rfl
    simpa only [hashedBy, hashed, List.filter_nil, List.flatMap_nil, List.length_nil,
      Nat.zero_add] using left
  · intro _ _
    simp only [hashedBy, hashed, List.filter_nil, List.flatMap_nil, List.length_nil, Nat.zero_add,
      Nat.le_refl]
  · intro other age w found
    by_cases here : other = place
    · subst here
      have inside := (List.getElem?_eq_some_iff.mp found).1
      rw [hashedBy_self]
      simp only [allowance, found, List.getElem?_set_self inside, Option.map_some,
        Option.getD_some]
      exact (batched w (List.mem_of_getElem? found)).takes_allowance cancellable fired
        (w.step_takes task age crew.board)
    · rw [hashedBy_other here, List.length_nil, Nat.zero_add]
      exact batched.allowance_later (w.step_takes task age crew.board).later
        (List.getElem?_set_ne here)

/-- Once the token has fired, a worker hashes no more than what is left to it. -/
theorem Batched.moves_allowance (batched : crew.Batched task) (filled : 1 ≤ task.batch.toNat)
    (cancellable : task.cancellable = true) (fired : crew.board.fired = true) (place : Nat)
    (schedule : Schedule) :
    (hashedBy place (crew.moves task schedule)).length ≤ crew.allowance task place := by
  induction schedule generalizing crew with
  | nil => exact Nat.zero_le _
  | cons choice rest ih =>
      have now := batched.follow_allowance cancellable fired place choice
      have still := (crew.follow_fired task choice).mpr (.inl fired)
      have then_on := ih (batched.follow filled choice) still
      rw [moves, hashedBy_append, List.length_append]
      omega

end Crew

namespace Plan

/-- After the token has fired no worker hashes more than a batch. -/
theorem moves_after_fire (p : Plan) (cancellable : p.task.cancellable = true)
    (filled : 1 ≤ p.task.batch.toNat) {schedule soFar : Schedule}
    (before : soFar <+: p.course schedule) (fired : p.fired = true ∨ .fire ∈ soFar) :
    ∃ late, p.moves schedule = p.start.moves p.task soFar ++ late ∧
      ∀ place, (hashedBy place late).length ≤ p.task.batch.toNat := by
  obtain ⟨rest, cut⟩ := before
  refine ⟨(p.start.after p.task soFar).moves p.task rest, ?_, ?_⟩
  · rw [moves, ← cut, Crew.moves_append]
  · intro place
    have batched : (p.start.after p.task soFar).Batched p.task :=
      (Crew.start_batched p.fired p.parts p.hashes filled).after filled soFar
    have lit := (p.start.after_fired p.task soFar).mpr fired
    exact Nat.le_trans (batched.moves_allowance filled cancellable lit place rest)
      (batched.allowance_le place)

end Plan
end ProofOfWork.Search
