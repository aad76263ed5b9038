import ProofOfWork.Document.Json.Text
import ProofOfWork.Logging.Event
set_option autoImplicit false

namespace ProofOfWork
open Document

def LogValue.toDocument : LogValue → Value
  | .number n => .natural n
  | .flag b => .boolean b
  | .real x => .real x

namespace LogEvent

def toDocument (e : LogEvent) : Value :=
  .record [("level", .word e.level.label),
    ("fields", .record (("message", .word e.message) ::
      e.fields.map fun (name, v) => (name, v.toDocument))),
    ("target", .word e.source.path)]

def fieldTexts (e : LogEvent) : List String :=
  e.fields.map fun (name, v) => name ++ "=" ++ String.ofList (Json.compact v.toDocument)

def lines (e : LogEvent) : LogFormat → List String
  | .plain => [" ".intercalate (e.level.label :: e.message :: e.fieldTexts)]
  | .pretty =>
    ["  " ++ e.level.label ++ " " ++ e.source.path ++ ": " ++
      ", ".intercalate (e.message :: e.fieldTexts), ""]
  | .json => [String.ofList (Json.compact e.toDocument)]

end LogEvent
end ProofOfWork
