set_option autoImplicit false

namespace ProofOfWork.Document

inductive Value where
  | null
  | boolean (b : Bool)
  | integer (n : Int)
  | real (x : Float)
  | text (cs : List Char)
  | sequence (items : List Value)
  | mapping (entries : List (List Char × Value))
  /-- A value that no setting is read from, such as a date. -/
  | other

namespace Value

instance : Inhabited Value := ⟨null⟩

/-- A text that is known in advance. -/
def word (s : String) : Value := .text s.toList

/-- A number that is not negative. -/
def natural (n : Nat) : Value := .integer n

/-- A mapping with keys that are known in advance. -/
def record (entries : List (String × Value)) : Value :=
  .mapping (entries.map fun (key, v) => (key.toList, v))

def optional {α : Type} (write : α → Value) : Option α → Value
  | some a => write a
  | none => .null

end Value
end ProofOfWork.Document
