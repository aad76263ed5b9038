import ProofOfWork.Config.Format
import ProofOfWork.Config.Override
set_option autoImplicit false

namespace ProofOfWork.Config

/-- The text of a file, if it is valid UTF-8. -/
def textOf? (bytes : ByteArray) : Option (List Char) := (String.fromUTF8? bytes).map String.toList

variable {m : Type → Type} [Monad m]

/-- The configuration that a file holds; `read` answers nothing for what cannot be read. -/
def ofFile (read : List Char → m (Option ByteArray)) (path : List Char) : m (Except Error Config) := do
  match ConfigFormat.ofPath path with
  | .error fault => return .error fault
  | .ok format =>
    match (← read path).bind textOf? with
    | none => return .error (.file "")
    | some text => return parse text format

/-- The configuration under a command line, if it is valid. -/
def finish (line : CommandLine) (c : Config) : Except Error Config := do
  let c := c.override line
  c.check
  return c

/-- The configuration that a command line asks for. -/
def load (read : List Char → m (Option ByteArray)) (line : CommandLine) : m (Except Error Config) := do
  let base ← match line.config with
    | some path => ofFile read path
    | none => pure (.ok {})
  return base.bind (finish line)

end ProofOfWork.Config
