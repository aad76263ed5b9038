import ProofOfWork.Proofs.Search.Board
import ProofOfWork.Proofs.Search.Moves
set_option autoImplicit false

/-!
All that a worker can do in one step, each with the condition on which it does it. What every step
keeps is proved by cases on these, so that nothing below has to look into the step.
-/
namespace ProofOfWork.Search

/-- The steps of a worker, with the board and the worker after each. -/
inductive Worker.Takes (task : Task) (age : Nat) (board : Board) (w : Worker) :
    Board × Worker → Prop
  /-- No nonce of the range is left. -/
  | beyond (phase : w.phase = .check) (passed : w.stop ≤ w.nonce) :
      Takes task age board w (board, { w with phase := .lastFlush true })
  /-- The other workers make the next nonce useless. -/
  | told (phase : w.phase = .check) (before : w.nonce < w.stop)
      (useless : board.stopped = true ∨ task.mode = .lowest ∧ board.bound age < w.nonce) :
      Takes task age board w (board, { w with phase := .lastFlush false })
  | onward (phase : w.phase = .check) (before : w.nonce < w.stop) (free : board.stopped = false)
      (useful : task.mode = .lowest → w.nonce ≤ board.bound age) :
      Takes task age board w (board, { w with phase := .hash })
  | hit (phase : w.phase = .hash) (accepted : task.accepts ⟨w.nonce⟩ = true) :
      Takes task age board w
        (board, { w with pending := w.pending + 1, phase := .report (task.digest ⟨w.nonce⟩) })
  /-- A nonce is hashed in vain, and the batch is full. -/
  | fill (phase : w.phase = .hash) (rejected : task.accepts ⟨w.nonce⟩ = false)
      (full : w.pending + 1 = task.batch) :
      Takes task age board w (board, { w with pending := w.pending + 1, phase := .flush })
  | miss (phase : w.phase = .hash) (rejected : task.accepts ⟨w.nonce⟩ = false)
      (room : w.pending + 1 ≠ task.batch) :
      Takes task age board w (board, { w with pending := w.pending + 1, phase := .advance })
  | report (digest : Digest) (phase : w.phase = .report digest) :
      Takes task age board w
        (board.report task.mode ⟨w.nonce⟩ digest, { w with phase := .lastFlush false })
  | flush (phase : w.phase = .flush) :
      Takes task age board w (board.flush w.pending, { w with pending := 0, phase := .poll })
  | poll (phase : w.phase = .poll) :
      Takes task age board w (board.poll task, { w with phase := .advance })
  /-- There is no nonce after the greatest one. -/
  | greatest (phase : w.phase = .advance) (last : w.nonce = 0xFFFFFFFFFFFFFFFF) :
      Takes task age board w (board, { w with phase := .lastFlush true })
  | advance (phase : w.phase = .advance) (more : w.nonce ≠ 0xFFFFFFFFFFFFFFFF) :
      Takes task age board w (board, { w with nonce := w.nonce + 1, phase := .check })
  | lastFlush (ranOut : Bool) (phase : w.phase = .lastFlush ranOut) :
      Takes task age board w (board.flush w.pending,
        { w with pending := 0, phase := if ranOut then .lastPoll else .done })
  | lastPoll (phase : w.phase = .lastPoll) :
      Takes task age board w (board.poll task, { w with phase := .done })
  | done (phase : w.phase = .done) : Takes task age board w (board, w)

theorem Worker.step_takes (task : Task) (age : Nat) (board : Board) (w : Worker) :
    w.Takes task age board (w.step task age board) := by
  cases phase : w.phase with
  | check =>
      simp only [Worker.step, phase]
      split
      · exact .beyond phase ‹_›
      · rename_i before
        rw [UInt64.not_le] at before
        split
        · rename_i told
          simp only [Bool.or_eq_true, Bool.and_eq_true, decide_eq_true_eq] at told
          exact .told phase before told
        · rename_i useful
          simp only [Bool.or_eq_true, Bool.and_eq_true, decide_eq_true_eq, not_or, not_and,
            Bool.not_eq_true, UInt64.not_lt] at useful
          exact .onward phase before useful.1 useful.2
  | hash =>
      simp only [Worker.step, phase]
      cases accepted : task.target.accepts (task.digest ⟨w.nonce⟩) with
      | true => exact .hit phase accepted
      | false =>
          simp only [Bool.false_eq_true, if_false]
          split
          · exact .fill phase accepted ‹_›
          · exact .miss phase accepted ‹_›
  | report digest =>
      simp only [Worker.step, phase]
      exact .report digest phase
  | flush =>
      simp only [Worker.step, phase]
      exact .flush phase
  | poll =>
      simp only [Worker.step, phase]
      exact .poll phase
  | advance =>
      simp only [Worker.step, phase, Nonce.next?]
      by_cases last : w.nonce = 0xFFFFFFFFFFFFFFFF
      · rw [if_pos last]
        exact .greatest phase last
      · rw [if_neg last]
        exact .advance phase last
  | lastFlush ranOut =>
      simp only [Worker.step, phase]
      exact .lastFlush ranOut phase
  | lastPoll =>
      simp only [Worker.step, phase]
      exact .lastPoll phase
  | done =>
      rw [Worker.step_done phase]
      exact .done phase

/-- A phase in which a worker neither hashes nor reports. -/
def Phase.Quiet : Phase → Prop
  | .hash | .report _ => False
  | _ => True

section
variable {task : Task} {age : Nat} {board : Board} {w : Worker} {next : Board × Worker}

theorem Worker.hashing_of_hash (phase : w.phase = .hash) : w.hashing = [⟨w.nonce⟩] := if_pos phase

theorem Worker.hashing_of_report {digest : Digest} (phase : w.phase = .report digest) :
    w.hashing = [] := by
  refine if_neg fun other => ?_
  rw [phase] at other
  cases other

theorem Worker.hashing_of_quiet (quiet : w.phase.Quiet) : w.hashing = [] := by
  refine if_neg fun phase => ?_
  rw [phase] at quiet
  exact quiet

theorem Worker.reporting_of_quiet (quiet : w.phase.Quiet) : w.reporting = [] := by
  unfold Worker.reporting
  split
  · rename_i digest phase
    rw [phase] at quiet
    exact quiet.elim
  · rfl

theorem Worker.Takes.later (takes : w.Takes task age board next) : Board.Later board next.1 := by
  cases takes with
  | report digest => exact board.report_later task.mode ⟨w.nonce⟩ digest
  | flush | lastFlush => exact board.flush_later _
  | poll | lastPoll => exact board.poll_later task
  | _ => exact .refl board

end
end ProofOfWork.Search
