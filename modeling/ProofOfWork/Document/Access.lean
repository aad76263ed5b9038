import ProofOfWork.Document.Value
import ProofOfWork.Error
import ProofOfWork.Text.Basic
set_option autoImplicit false

namespace ProofOfWork.Document

structure Access (α : Type) where
  /-- An unsigned number of 64 bits. -/
  word? : α → Option UInt64
  boolean? : α → Option Bool
  /-- A number, with or without decimals. -/
  real? : α → Option Float
  text? : α → Option (List Char)
  /-- The name of an alternative. -/
  name? : α → Option (List Char)
  /-- The fields of these names, in this order of declaration. -/
  fields? : List (List Char) → α → Option (List Char → Option α)

variable {α : Type}

/-- The values of the keys that are among the names; such a key may occur only once. -/
def namedFields? (names : List (List Char)) (entries : List (List Char × α)) :
    Option (List Char → Option α) :=
  if names.all fun name => entries.countP (fun entry => entry.1 = name) ≤ 1 then
    some fun name => (entries.find? fun entry => entry.1 = name).map Prod.snd
  else none

/-- The values of the names in their order, as far as there are values. -/
def placedFields (names : List (List Char)) (items : List α) : List Char → Option α :=
  fun name => ((names.zip items).find? fun entry => entry.1 = name).map Prod.snd

namespace Access

/-- The fields of a record by name. -/
def record? (a : Access α) (names : List String) (v : α) : Option (String → Option α) :=
  (a.fields? (names.map String.toList) v).map fun field name => field name.toList

/-- One of some alternatives, by name. -/
def oneOf? {β : Type} (a : Access α) (all : List β) (name : β → String) (v : α) : Option β :=
  (a.name? v).bind (Text.named? all name)

/-- What a text stands for. -/
def readText? {β : Type} (a : Access α) (read : List Char → Option β) (v : α) : Option β :=
  (a.text? v).bind read

end Access

/-- A field that takes a default when it is absent. -/
def field? {β : Type} (fallback : β) (read : α → Option β) : Option α → Option β
  | none => some fallback
  | some v => read v

namespace Value

/-- A number without decimals, as a word. -/
def word? : Value → Option UInt64
  | .integer (.ofNat n) => if n < 2 ^ 64 then some n.toUInt64 else none
  | _ => none

def boolean? : Value → Option Bool
  | .boolean b => some b
  | _ => none

def real? : Value → Option Float
  | .real x => some x
  | .integer n => some (Float.ofInt n)
  | _ => none

def text? : Value → Option (List Char)
  | .text cs => some cs
  | _ => none

/-- A text, or a mapping of one key to a value that says no more. -/
def nameWith? (saysNoMore : Value → Bool) : Value → Option (List Char)
  | .text cs => some cs
  | .mapping [(key, v)] => if saysNoMore v then some key else none
  | _ => none

end Value

/-- A record is an object, or an array of at most all of its values in order. -/
def Json.fields? (names : List (List Char)) : Value → Option (List Char → Option Value)
  | .mapping entries => namedFields? names entries
  | .sequence items =>
    if items.length ≤ names.length then some (placedFields names items) else none
  | _ => none

/-- A record is a table, or an array that begins with its values in order. A date is a record of
none of the names. -/
def Toml.fields? (names : List (List Char)) : Value → Option (List Char → Option Value)
  | .mapping entries => namedFields? names entries
  | .sequence items => some (placedFields names items)
  | .other => some fun _ => none
  | _ => none

/-- The values of JSON texts. -/
def Json.access : Access Value where
  word? := Value.word?
  boolean? := Value.boolean?
  real? := Value.real?
  text? := Value.text?
  name? := Value.nameWith? fun
    | .null => true
    | _ => false
  fields? := Json.fields?

/-- The values of TOML texts. -/
def Toml.access : Access Value where
  word? := Value.word?
  boolean? := Value.boolean?
  real? := Value.real?
  text? := Value.text?
  name? := Value.nameWith? fun
    | .sequence [] | .mapping [] => true
    | _ => false
  fields? := Toml.fields?

end ProofOfWork.Document
