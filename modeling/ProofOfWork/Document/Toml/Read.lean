import ProofOfWork.Document.Toml.Scalar
import ProofOfWork.Document.Toml.Table
set_option autoImplicit false

namespace ProofOfWork.Document.Toml

/-- A letter of a key without quotes. -/
def isKeyChar (c : Char) : Bool := c.isAlphanum || c = '-' || c = '_'

def readPart? (text : List Char) : Option (List Char × List Char) :=
  match text with
  | [] => none
  | c :: rest =>
    if c = '"' ∨ c = literalQuote then readLine? c (rest.length + 1) rest
    else
      let part := text.takeWhile isKeyChar
      if part.isEmpty then none else some (part, text.dropWhile isKeyChar)

/-- A key has fewer parts, and fewer brackets and braces are open at once. -/
def nestingLimit : Nat := 80

/-- A key of parts with dots between them, and blanks anywhere around them. -/
def readParts? : Nat → List Char → Option (Key × List Char)
  | 0, _ => none
  | fuel + 1, text => do
    let (part, rest) ← readPart? (skipBlanks text)
    match skipBlanks rest with
    | '.' :: rest =>
      let (parts, rest) ← readParts? fuel rest
      return (part :: parts, rest)
    | rest => return ([part], rest)

def readKey? (text : List Char) : Option (Key × List Char) :=
  (readParts? (text.length + 1) text).filter fun (key, _) => key.length < nestingLimit

/-- What follows a comment, if there is one; a character that may not stand in it ends it. -/
def skipComment : List Char → List Char
  | '#' :: rest => rest.dropWhile isVisible
  | text => text

/-- Blanks, comments and line breaks dropped. -/
def skipLinesAndComments : Nat → List Char → List Char
  | 0, text => text
  | fuel + 1, text =>
    let rest := skipComment (skipBlanks text)
    match newline? rest with
    | some rest => skipLinesAndComments fuel rest
    | none => rest

/-- Entries in braces as a table. -/
def inlineTable? (pairs : List (Key × Value)) : Option Value := do
  let entries ← pairs.foldlM (fun (entries : Entries) (key, v) => do
    addValue? key.dropLast (← key.getLast?) v .explicit entries) []
  return (Item.table .explicit entries).toValue

mutual

/-- A value, within so many open brackets and braces. -/
def readValue? (depth : Nat) : Nat → List Char → Option (Value × List Char)
  | 0, _ => none
  | fuel + 1, text =>
    match text with
    | '[' :: rest =>
      if nestingLimit ≤ depth + 1 then none
      else do
        let (items, rest) ← readItems? (depth + 1) fuel (skipLinesAndComments (rest.length + 1) rest)
        return (.sequence items, rest)
    | '\x7b' :: rest =>
      if nestingLimit ≤ depth + 1 then none
      else match skipBlanks rest with
        | '\x7d' :: rest => some (.mapping [], rest)
        | rest => do
          let (pairs, rest) ← readPairs? (depth + 1) fuel rest
          return (← inlineTable? pairs, rest)
    | text => readScalar? text

/-- The items of an array up to its bracket; a comma may follow the last one. -/
def readItems? (depth : Nat) : Nat → List Char → Option (List Value × List Char)
  | 0, _ => none
  | fuel + 1, text =>
    match text with
    | ']' :: rest => some ([], rest)
    | text => do
      let (v, rest) ← readValue? depth fuel text
      match skipLinesAndComments (rest.length + 1) rest with
      | ',' :: rest =>
        let (items, rest) ← readItems? depth fuel (skipLinesAndComments (rest.length + 1) rest)
        return (v :: items, rest)
      | ']' :: rest => return ([v], rest)
      | _ => none

/-- The entries in braces, of which there is at least one; no comma follows the last one. -/
def readPairs? (depth : Nat) : Nat → List Char → Option (List (Key × Value) × List Char)
  | 0, _ => none
  | fuel + 1, text => do
    let (key, rest) ← readKey? text
    match rest with
    | '=' :: rest =>
      let (v, rest) ← readValue? depth fuel (skipBlanks rest)
      match skipBlanks rest with
      | ',' :: rest =>
        let (pairs, rest) ← readPairs? depth fuel rest
        return ((key, v) :: pairs, rest)
      | '\x7d' :: rest => return ([(key, v)], rest)
      | _ => none
    | _ => none

end

/-- A text of which the lines up to some place were read. -/
structure Reading where
  root : Entries := []
  /-- The path of the last header. -/
  path : Key := []

/-- What follows the rest of a line: blanks and a comment. -/
def lineEnd? (text : List Char) : Option (List Char) :=
  match skipComment (skipBlanks text) with
  | [] => some []
  | rest => newline? rest

/-- The table at the path of the last header, with one more value. -/
def Reading.addValue? (r : Reading) (key : Key) (v : Value) : Option Reading := do
  let name ← key.getLast?
  let root ← update? false (Toml.addValue? key.dropLast name v) r.path .explicit r.root
  return { r with root }

/-- The root with the table or row of a header. -/
def Reading.addHeader? (r : Reading) (repeated : Bool) (key : Key) : Option Reading := do
  let name ← key.getLast?
  let change := if repeated then addRow? name else addTable? name
  let root ← update? false change key.dropLast .explicit r.root
  return { root, path := key }

/-- A header, a key with its value, or nothing, up to the end of the line. -/
def readLineOf? (r : Reading) (text : List Char) : Option (Reading × List Char) :=
  match text with
  | '[' :: '[' :: rest => do
    let (key, rest) ← readKey? rest
    match rest with
    | ']' :: ']' :: rest => return (← r.addHeader? true key, ← lineEnd? rest)
    | _ => none
  | '[' :: rest => do
    let (key, rest) ← readKey? rest
    match rest with
    | ']' :: rest => return (← r.addHeader? false key, ← lineEnd? rest)
    | _ => none
  | text =>
    match lineEnd? text with
    | some rest => some (r, rest)
    | none => do
      let (key, rest) ← readKey? text
      match rest with
      | '=' :: rest =>
        let (v, rest) ← readValue? 0 (2 * rest.length + 2) (skipBlanks rest)
        return (← r.addValue? key v, ← lineEnd? rest)
      | _ => none

def readAll? : Nat → Reading → List Char → Option Entries
  | 0, _, _ => none
  | fuel + 1, r, text =>
    match skipBlanks text with
    | [] => some r.root
    | text => do
      let (r, rest) ← readLineOf? r text
      readAll? fuel r rest

/-- The value of a text; a byte order mark may come first. -/
def read? (text : List Char) : Option Value := do
  let text := match text with
    | c :: rest => if c.toNat = 0xFEFF then rest else text
    | [] => []
  return .mapping (entryValues (← readAll? (text.length + 1) {} text))

end ProofOfWork.Document.Toml
