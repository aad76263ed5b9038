import ProofOfWork.Document.Json.Number
import ProofOfWork.Text.Basic
import ProofOfWork.Text.Unsigned
set_option autoImplicit false

namespace ProofOfWork.Document.Json
open Text

def isSpace (c : Char) : Bool := c = ' ' || c = '\n' || c = '\t' || c = '\r'

def skipSpace (text : List Char) : List Char := text.dropWhile isSpace

def readUnit? : List Char → Option (Nat × List Char)
  | a :: b :: c :: d :: rest => do
    let high := 16 * (← digitOf? 16 a) + (← digitOf? 16 b)
    let low := 16 * (← digitOf? 16 c) + (← digitOf? 16 d)
    return (256 * high + low, rest)
  | _ => none

inductive Piece where
  | char (c : Char)
  /-- A unit of sixteen bits. -/
  | unit (n : Nat)

/-- What a backslash and the next character stand for; `u` is not among them. -/
def escapeOf? (c : Char) : Option Char :=
  if c = '"' ∨ c = '\\' ∨ c = '/' then some c
  else if c = 'n' then some '\n'
  else if c = 'r' then some '\r'
  else if c = 't' then some '\t'
  else if c = 'b' then some (Char.ofNat 8)
  else if c = 'f' then some (Char.ofNat 12)
  else none

/-- The pieces of a string up to its closing quote, and the text after it. -/
def readPieces? : Nat → List Char → Option (List Piece × List Char)
  | 0, _ => none
  | fuel + 1, text =>
    match text with
    | [] => none
    | '"' :: rest => some ([], rest)
    | '\\' :: 'u' :: rest => do
      let (n, rest) ← readUnit? rest
      let (pieces, rest) ← readPieces? fuel rest
      return (.unit n :: pieces, rest)
    | '\\' :: c :: rest => do
      let e ← escapeOf? c
      let (pieces, rest) ← readPieces? fuel rest
      return (.char e :: pieces, rest)
    | c :: rest => do
      if c = '\\' ∨ c.toNat < 32 then none
      else
        let (pieces, rest) ← readPieces? fuel rest
        return (.char c :: pieces, rest)

def isHighHalf (n : Nat) : Bool := 0xD800 ≤ n && n ≤ 0xDBFF

def isLowHalf (n : Nat) : Bool := 0xDC00 ≤ n && n ≤ 0xDFFF

/-- The text of pieces; two halves in their order make one character. -/
def joinPieces? : List Piece → Option (List Char)
  | [] => some []
  | .char c :: rest => (joinPieces? rest).map (c :: ·)
  | .unit n :: rest =>
    if isHighHalf n then
      match rest with
      | .unit k :: rest =>
        if isLowHalf k then
          (joinPieces? rest).map (Char.ofNat (0x10000 + (n - 0xD800) * 1024 + (k - 0xDC00)) :: ·)
        else none
      | _ => none
    else if isLowHalf n then none
    else (joinPieces? rest).map (Char.ofNat n :: ·)

/-- The text of a string after its opening quote, if it is one, and the rest. -/
def readString? (text : List Char) : Option (Option (List Char) × List Char) := do
  let (pieces, rest) ← readPieces? (text.length + 1) text
  return (joinPieces? pieces, rest)

/-- The fraction of a number; a point needs a digit. -/
def readFraction? : List Char → Option (Option (List Char) × List Char)
  | '.' :: text =>
    let (digits, rest) := Decimal.spanDigits text
    if digits.isEmpty then none else some (some digits, rest)
  | text => some (none, text)

/-- The exponent of a number; its mark needs a digit. -/
def readExponent? : List Char → Option (Option Exponent × List Char)
  | [] => some (none, [])
  | mark :: text =>
    if mark = 'e' ∨ mark = 'E' then
      let (negative, text) := match text with
        | '-' :: text => (true, text)
        | '+' :: text => (false, text)
        | text => (false, text)
      let (digits, rest) := Decimal.spanDigits text
      if digits.isEmpty then none else some (some ⟨negative, digits⟩, rest)
    else some (none, mark :: text)

/-- A number; a zero in front stands alone. -/
def readNumber? (text : List Char) : Option (Value × List Char) := do
  let (negative, text) := match text with
    | '-' :: text => (true, text)
    | text => (false, text)
  let (whole, rest) := Decimal.spanDigits text
  if whole.isEmpty ∨ (whole.length > 1 ∧ whole.head? = some '0') then none
  else
    let (fraction, rest) ← readFraction? rest
    let (exponent, rest) ← readExponent? rest
    return (numberValue negative whole fraction exponent, rest)

/-- The entries of an object; `other` if a key is no text. -/
def objectValue (entries : List (Option (List Char) × Value)) : Value :=
  match entries.mapM fun (key, v) => key.map fun key => (key, v) with
  | some entries => .mapping entries
  | none => .other

mutual

/-- A value at the start of a text, and the rest. -/
def readValue? : Nat → List Char → Option (Value × List Char)
  | 0, _ => none
  | fuel + 1, text =>
    match skipSpace text with
    | 'n' :: 'u' :: 'l' :: 'l' :: rest => some (.null, rest)
    | 't' :: 'r' :: 'u' :: 'e' :: rest => some (.boolean true, rest)
    | 'f' :: 'a' :: 'l' :: 's' :: 'e' :: rest => some (.boolean false, rest)
    | '"' :: rest => do
      let (cs, rest) ← readString? rest
      return (cs.elim .other .text, rest)
    | '[' :: rest =>
      match skipSpace rest with
      | ']' :: rest => some (.sequence [], rest)
      | rest => do
        let (items, rest) ← readItems? fuel rest
        return (.sequence items, rest)
    | '\x7b' :: rest =>
      match skipSpace rest with
      | '\x7d' :: rest => some (.mapping [], rest)
      | rest => do
        let (entries, rest) ← readEntries? fuel rest
        return (objectValue entries, rest)
    | text => readNumber? text

/-- The items of an array, of which there is at least one, and the text after it. -/
def readItems? : Nat → List Char → Option (List Value × List Char)
  | 0, _ => none
  | fuel + 1, text => do
    let (v, rest) ← readValue? fuel text
    match skipSpace rest with
    | ',' :: rest =>
      let (items, rest) ← readItems? fuel rest
      return (v :: items, rest)
    | ']' :: rest => return ([v], rest)
    | _ => none

/-- The entries of an object, of which there is at least one, and the text after it. -/
def readEntries? : Nat → List Char → Option (List (Option (List Char) × Value) × List Char)
  | 0, _ => none
  | fuel + 1, text =>
    match skipSpace text with
    | '"' :: text => do
      let (key, rest) ← readString? text
      match skipSpace rest with
      | ':' :: rest =>
        let (v, rest) ← readValue? fuel rest
        match skipSpace rest with
        | ',' :: rest =>
          let (entries, rest) ← readEntries? fuel rest
          return ((key, v) :: entries, rest)
        | '\x7d' :: rest => return ([(key, v)], rest)
        | _ => none
      | _ => none
    | _ => none

end

def read? (text : List Char) : Option Value := do
  let (v, rest) ← readValue? (2 * text.length + 2) text
  if (skipSpace rest).isEmpty then some v else none

end ProofOfWork.Document.Json
