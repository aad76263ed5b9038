import ProofOfWork.Engine.Search
import ProofOfWork.Logging.Filter
set_option autoImplicit false

namespace ProofOfWork

structure World (m : Type → Type) where
  /-- The number of cores. -/
  cores : Nat
  /-- The value of a variable of the environment. -/
  setting : String → Option (List Char)
  /-- The bytes of a file, if it can be read. -/
  contents : List Char → m (Option ByteArray)
  /-- Drives the workers of the search with the given number until all have ended. -/
  drive : UInt64 → Search.Plan → m Search.Course
  /-- An action and the time it takes. -/
  timed : {α : Type} → m α → m (α × Duration)
  tell : LogFormat → LogEvent → m Unit

/-- The host of the search with a number. Events that the filter does not keep are not told. -/
def World.host {m : Type → Type} [Monad m] (w : World m) (filter : LogFilter) (format : LogFormat)
    (search : UInt64) : Host m where
  drive := w.drive search
  tell event :=
    if filter.keeps event then w.tell format event else pure ()

/-- What the program leaves when it has ended. -/
structure Ending where
  /-- Zero if all went well. -/
  code : UInt32 := 0
  /-- The lines that were printed. -/
  lines : List String := []
  /-- The complaint of a run that failed. -/
  complaint : Option String := none

namespace Ending

def failed (reason : String) : Ending := { code := 1, complaint := some ("Error: " ++ reason) }

def ofError (fault : Error) : Ending := failed fault.message

end Ending
end ProofOfWork
