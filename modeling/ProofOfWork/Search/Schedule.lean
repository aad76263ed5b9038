import ProofOfWork.Search.Worker
set_option autoImplicit false

namespace ProofOfWork.Search

/-- What happens next. -/
inductive Choice where
  /-- A worker takes a step; it sees the bound as it was `age` changes ago. -/
  | work (worker age : Nat)
  /-- The token fires. -/
  | fire
  deriving DecidableEq, Repr

/-- What happens, in order. Workers that have not ended when it is over go on one after another. -/
abbrev Schedule := List Choice

/-- The board and the workers at some moment. -/
structure Crew where
  board : Board
  workers : List Worker

/-- The crew before the first step, one worker for each range, when the engine has counted so many
hashes. -/
def Crew.start (fired : Bool) (ranges : List NonceRange) (hashes : UInt64 := 0) : Crew where
  board := { fired, hashes }
  workers := ranges.map Worker.at

def Crew.follow (task : Task) (crew : Crew) : Choice → Crew
  | .fire => { crew with board := { crew.board with fired := true } }
  | .work worker age =>
    match crew.workers[worker]? with
    | none => crew
    | some w =>
      let next := w.step task age crew.board
      ⟨next.1, crew.workers.set worker next.2⟩

/-- The crew after a schedule. -/
def Crew.after (task : Task) (crew : Crew) (schedule : Schedule) : Crew :=
  schedule.foldl (Crew.follow task) crew

/-- The board when all workers have ended. -/
def finished (task : Task) (board : Board) (workers : List Worker) : Board :=
  workers.foldl (fun board w => (w.finish task board).1) board

/-- The board at the end of a search. -/
def run (task : Task) (crew : Crew) (schedule : Schedule) : Board :=
  let last := crew.after task schedule
  finished task last.board last.workers

end ProofOfWork.Search
