import ProofOfWork.Hasher
import ProofOfWork.Search.Basic
import ProofOfWork.Target.Basic
set_option autoImplicit false

/-!
One worker of a search, step by step, on the board that all workers of the search share. A step is
what no other worker can come between. The workers know of each other only through the board.
-/
namespace ProofOfWork.Search

/-- What all workers of a search are given and none of them changes. -/
structure Task where
  digest : Nonce → Digest
  target : Target
  mode : SearchMode
  /-- How many nonces a worker hashes between two looks at the token. -/
  batch : UInt64
  /-- Whether there is a token to look at. -/
  cancellable : Bool

/-- What the workers of a search share. -/
structure Board where
  /-- Workers end before their next nonce. -/
  stopped : Bool := false
  /-- A worker saw the fired token before its range was done. -/
  cancelled : Bool := false
  /-- The token has fired. -/
  fired : Bool := false
  /-- The values to which the bound on useful nonces was lowered, the latest first. -/
  lowered : List UInt64 := []
  /-- The hashes that were written down. -/
  attempts : UInt64 := 0
  /-- The engine's count of hashes, to which its other searches add as well. -/
  hashes : UInt64 := 0
  /-- The solution that counts. -/
  slot : Option (Nonce × Digest) := none

/-- The bound on useful nonces before any solution: it is no nonce of a range. -/
def unbounded : UInt64 := 0xFFFFFFFFFFFFFFFF

/-- The bound as it was `age` changes ago. -/
def Board.bound (b : Board) (age : Nat) : UInt64 := b.lowered.getD age unbounded

/-- Pending hashes are written down, for the search and for the engine. -/
def Board.flush (b : Board) (pending : UInt64) : Board :=
  { b with attempts := b.attempts + pending, hashes := b.hashes + pending }

/-- The token is looked at; once fired it ends the search. -/
def Board.poll (b : Board) (task : Task) : Board :=
  if task.cancellable && b.fired then { b with cancelled := true, stopped := true } else b

/-- A solution is reported. -/
def Board.report (b : Board) (mode : SearchMode) (nonce : Nonce) (digest : Digest) : Board :=
  match mode with
  | .lowest =>
    { b with
      lowered := min (b.bound 0) nonce.value :: b.lowered
      slot := match b.slot with
        | none => some (nonce, digest)
        | some (best, kept) =>
          if nonce.value < best.value then some (nonce, digest) else some (best, kept) }
  | .firstFound => { b with slot := b.slot.or (some (nonce, digest)), stopped := true }

/-- Where a worker stands. -/
inductive Phase where
  /-- Before a nonce: is there one, and is it still useful? -/
  | check
  | hash
  | report (digest : Digest)
  | flush
  | poll
  | advance
  /-- After the last nonce; `ranOut` if the range ended there. -/
  | lastFlush (ranOut : Bool)
  | lastPoll
  | done
  deriving DecidableEq

/-- A worker on its way through a range. -/
structure Worker where
  stop : UInt64
  nonce : UInt64
  /-- The hashes that are not written down yet. -/
  pending : UInt64 := 0
  phase : Phase := .check

def Worker.at (r : NonceRange) : Worker := { stop := r.stop, nonce := r.first }

/-- One step of a worker; `age` says how old a bound it sees. -/
def Worker.step (task : Task) (age : Nat) (board : Board) (w : Worker) : Board × Worker :=
  match w.phase with
  | .check =>
    if w.stop ≤ w.nonce then (board, { w with phase := .lastFlush true })
    else if board.stopped || (task.mode = .lowest && board.bound age < w.nonce) then
      (board, { w with phase := .lastFlush false })
    else (board, { w with phase := .hash })
  | .hash =>
    let digest := task.digest ⟨w.nonce⟩
    let pending := w.pending + 1
    let phase :=
      if task.target.accepts digest then .report digest
      else if pending = task.batch then .flush
      else .advance
    (board, { w with pending, phase })
  | .report digest =>
    (board.report task.mode ⟨w.nonce⟩ digest, { w with phase := .lastFlush false })
  | .flush => (board.flush w.pending, { w with pending := 0, phase := .poll })
  | .poll => (board.poll task, { w with phase := .advance })
  | .advance =>
    match (Nonce.mk w.nonce).next? with
    | none => (board, { w with phase := .lastFlush true })
    | some next => (board, { w with nonce := next.value, phase := .check })
  | .lastFlush ranOut =>
    (board.flush w.pending,
      { w with pending := 0, phase := if ranOut then .lastPoll else .done })
  | .lastPoll => (board.poll task, { w with phase := .done })
  | .done => (board, w)

/-- How far a phase is from the end, short of another nonce. -/
def Phase.rank : Phase → Nat
  | .check => 7
  | .hash => 6
  | .report _ => 5
  | .flush => 5
  | .poll => 4
  | .advance => 3
  | .lastFlush _ => 2
  | .lastPoll => 1
  | .done => 0

/-- A number that every step makes smaller. -/
def Worker.remaining (w : Worker) : Nat := 8 * (2 ^ 64 - 1 - w.nonce.toNat) + w.phase.rank

theorem Worker.remaining_step_lt (task : Task) (age : Nat) (board : Board) (w : Worker)
    (h : w.phase ≠ .done) : (w.step task age board).2.remaining < w.remaining := by
  obtain ⟨stop, nonce, pending, phase⟩ := w
  cases phase with
  | check => simp only [Worker.step]; split <;> (try split) <;> simp [remaining, Phase.rank]
  | hash => simp only [Worker.step]; split <;> (try split) <;> simp [remaining, Phase.rank]
  | report => simp [Worker.step, remaining, Phase.rank]
  | flush => simp [Worker.step, remaining, Phase.rank]
  | poll => simp [Worker.step, remaining, Phase.rank]
  | advance =>
    by_cases last : nonce = 0xFFFFFFFFFFFFFFFF
    · simp [Worker.step, Nonce.next?, last, remaining, Phase.rank]
    · have next : (nonce + 1).toNat = nonce.toNat + 1 := by
        have := nonce.toNat_lt
        have : nonce.toNat ≠ 18446744073709551615 := fun h =>
          last (UInt64.toNat_inj.1 h)
        rw [UInt64.toNat_add]
        exact Nat.mod_eq_of_lt (by simp only [UInt64.toNat_one]; omega)
      have := (nonce + 1).toNat_lt
      simp only [Worker.step, Nonce.next?, last, if_false, remaining, Phase.rank, next]
      omega
  | lastFlush ranOut => cases ranOut <;> simp [Worker.step, remaining, Phase.rank]
  | lastPoll => simp [Worker.step, remaining, Phase.rank]
  | done => exact absurd rfl h

/-- All the remaining steps of a worker, with no other worker between them. -/
def Worker.finish (task : Task) (board : Board) (w : Worker) : Board × Worker :=
  if w.phase = .done then (board, w)
  else
    let next := w.step task 0 board
    next.2.finish task next.1
termination_by w.remaining
decreasing_by exact w.remaining_step_lt task 0 board ‹_›

end ProofOfWork.Search
