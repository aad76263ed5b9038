import ProofOfWork.Document.Value
set_option autoImplicit false

/-!
Tables of TOML while they are put together. A table may be defined only once: by a header, by keys
with dots, or in braces, and what one way has defined another may not extend.
-/
namespace ProofOfWork.Document.Toml

/-- How a table came to be. -/
inductive Role where
  /-- By a header of its own, or in braces. -/
  | explicit
  /-- As the outer part of another header. -/
  | implied
  /-- As the outer part of a key with dots. -/
  | dotted
  deriving DecidableEq

inductive Item where
  | value (v : Value)
  | table (role : Role) (entries : List (List Char × Item))
  /-- The rows of a repeated header. -/
  | rows (tables : List (List (List Char × Item)))

abbrev Entries := List (List Char × Item)

abbrev Key := List (List Char)

/-- The entries with the item of a key replaced, or put at the end. -/
def put (key : List Char) (item : Item) : Entries → Entries
  | [] => [(key, item)]
  | (k, old) :: rest => if k = key then (k, item) :: rest else (k, old) :: put key item rest

/-- The entries after a change to the table at the end of a path; `byDots` says whether the path is
part of a key with dots. -/
def update? (byDots : Bool) (change : Role → Entries → Option Entries) :
    Key → Role → Entries → Option Entries
  | [], role, entries => change role entries
  | key :: path, _, entries =>
    match entries.lookup key with
    | none => do
      let role := if byDots then Role.dotted else .implied
      return put key (.table role (← update? byDots change path role [])) entries
    | some (.value _) => none
    | some (.table role inner) =>
      if byDots ∧ role = .explicit then none
      else do return put key (.table role (← update? byDots change path role inner)) entries
    | some (.rows tables) =>
      match tables.reverse with
      | [] => none
      | last :: before => do
        let last ← update? byDots change path .explicit last
        return put key (.rows (last :: before).reverse) entries

/-- The entries with one more value. A key with dots may only go into a table made by such keys. -/
def addValue? (path : Key) (name : List Char) (v : Value) (role : Role) (entries : Entries) :
    Option Entries :=
  update? true (fun role entries =>
    if (role = .dotted) ≠ !path.isEmpty then none
    else if (entries.lookup name).isSome then none
    else some (put name (.value v) entries)) path role entries

def addTable? (name : List Char) (_ : Role) (entries : Entries) : Option Entries :=
  match entries.lookup name with
  | none => some (put name (.table .explicit []) entries)
  | some (.table .implied inner) => some (put name (.table .explicit inner) entries)
  | some _ => none

/-- The entries with one more row of a repeated header. -/
def addRow? (name : List Char) (_ : Role) (entries : Entries) : Option Entries :=
  match entries.lookup name with
  | none => some (put name (.rows [[]]) entries)
  | some (.rows tables) => some (put name (.rows (tables ++ [[]])) entries)
  | some _ => none

mutual

def Item.toValue : Item → Value
  | .value v => v
  | .table _ entries => .mapping (entryValues entries)
  | .rows tables => .sequence (rowValues tables)

def entryValues : List (List Char × Item) → List (List Char × Value)
  | [] => []
  | (key, item) :: rest => (key, item.toValue) :: entryValues rest

def rowValues : List (List (List Char × Item)) → List Value
  | [] => []
  | row :: rest => .mapping (entryValues row) :: rowValues rest

end

end ProofOfWork.Document.Toml
