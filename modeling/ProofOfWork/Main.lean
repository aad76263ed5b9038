import ProofOfWork.Logging.Layout
import ProofOfWork.Program.Run
set_option autoImplicit false

namespace ProofOfWork.Machine

/-- The variables of the environment that the program looks at. -/
def variableNames : List String := "RUST_LOG" :: CommonOptions.flags.filterMap Flag.setting

def readSettings : IO (List (String × List Char)) :=
  variableNames.filterMapM fun name => return (← IO.getEnv name).map fun value => (name, value.toList)

/-- The bytes of a file, if it can be read. -/
def contents (path : List Char) : IO (Option ByteArray) := do
  match ← (IO.FS.readBinFile (String.ofList path)).toBaseIO with
  | .ok bytes => return some bytes
  | .error _ => return none

def countCores : IO Nat := do
  let text := ((← contents "/proc/cpuinfo".toList).bind String.fromUTF8?).getD ""
  return max 1 ((text.splitOn "\n").countP fun line => line.startsWith "processor")

def timed {α : Type} (act : IO α) : IO (α × Duration) := do
  let start ← IO.monoNanosNow
  let a ← act
  let stop ← IO.monoNanosNow
  return (a, .ofParts 0 (stop - start))

def world (settings : List (String × List Char)) (cores : Nat) : World IO where
  cores
  setting name := settings.lookup name
  contents
  drive _ plan := do
    let (board, elapsed) ← timed (IO.lazyPure fun _ => plan.run [])
    return { board, elapsed }
  timed
  tell format event := (event.lines format).forM IO.println

/-- A run of the program, with what it prints and its exit code. -/
def run (arguments : List String) : IO UInt32 := do
  let here := world (← readSettings) (← countCores)
  let ending ← Program.run here (arguments.map String.toList)
  ending.lines.forM IO.println
  if let some complaint := ending.complaint then IO.eprintln complaint
  return ending.code

end ProofOfWork.Machine

def main (arguments : List String) : IO UInt32 := ProofOfWork.Machine.run arguments
