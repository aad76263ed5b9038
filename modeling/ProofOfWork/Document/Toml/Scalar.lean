import ProofOfWork.Decimal.Literal
import ProofOfWork.Document.Value
set_option autoImplicit false

namespace ProofOfWork.Document.Toml
open Text

def isBlank (c : Char) : Bool := c = ' ' || c = '\t'

def skipBlanks (text : List Char) : List Char := text.dropWhile isBlank

/-- A character that may stand in a comment or in quotes. -/
def isVisible (c : Char) : Bool := c = '\t' || (0x20 ≤ c.toNat && c.toNat ≠ 0x7F)

def newline? : List Char → Option (List Char)
  | '\n' :: rest => some rest
  | '\r' :: '\n' :: rest => some rest
  | _ => none

def skipLines : Nat → List Char → List Char
  | 0, text => text
  | fuel + 1, text =>
    match newline? (skipBlanks text) with
    | some rest => skipLines fuel rest
    | none => skipBlanks text

def literalQuote : Char := Char.ofNat 39

/-- The escapes of one letter, by code point. -/
def escapes : List (Char × Nat) :=
  [('b', 8), ('t', 9), ('n', 10), ('f', 12), ('r', 13), ('"', 34), ('\\', 92)]

/-- The character that so many digits spell. -/
def readCode? (count : Nat) (text : List Char) : Option (Char × List Char) := do
  let digits := text.take count
  let values ← digits.mapM (digitOf? 16)
  let n := values.foldl (fun n d => 16 * n + d) 0
  if digits.length < count ∨ (0xD800 ≤ n ∧ n ≤ 0xDFFF) ∨ n > 0x10FFFF then none
  else some (Char.ofNat n, text.drop count)

/-- The character of an escape, after its backslash. -/
def readEscape? : List Char → Option (Char × List Char)
  | 'u' :: rest => readCode? 4 rest
  | 'U' :: rest => readCode? 8 rest
  | c :: rest => (escapes.lookup c).map fun n => (Char.ofNat n, rest)
  | [] => none

/-- A string on one line, after its opening quote. -/
def readLine? (quote : Char) : Nat → List Char → Option (List Char × List Char)
  | 0, _ => none
  | fuel + 1, text =>
    match text with
    | [] => none
    | c :: rest =>
      if c = quote then some ([], rest)
      else do
        let (x, rest) ←
          if c = '\\' ∧ quote = '"' then readEscape? rest
          else if isVisible c then some (c, rest)
          else none
        let (more, rest) ← readLine? quote fuel rest
        return (x :: more, rest)

/-- A string of several lines, after its opening quotes. Up to two quotes may stand before the three
that close it; a backslash at the end of a line joins it to the next text. -/
def readLines? (quote : Char) : Nat → List Char → Option (List Char × List Char)
  | 0, _ => none
  | fuel + 1, text =>
    match newline? text, text with
    | some rest, _ => do
      let (more, rest) ← readLines? quote fuel rest
      return ('\n' :: more, rest)
    | none, [] => none
    | none, c :: rest =>
      if c = quote then
        let count := min 5 (text.takeWhile (· = quote)).length
        if count ≥ 3 then some (List.replicate (count - 3) quote, text.drop count)
        else do
          let (more, rest) ← readLines? quote fuel rest
          return (c :: more, rest)
      else if c = '\\' ∧ quote = '"' then
        match newline? (skipBlanks rest) with
        | some after => readLines? quote fuel (skipLines (after.length + 1) after)
        | none => do
          let (x, rest) ← readEscape? rest
          let (more, rest) ← readLines? quote fuel rest
          return (x :: more, rest)
      else if isVisible c then do
        let (more, rest) ← readLines? quote fuel rest
        return (c :: more, rest)
      else none

/-- A string in any quotes; a line break right after three quotes does not count. -/
def readString? (text : List Char) : Option (List Char × List Char) :=
  match text with
  | a :: b :: c :: rest =>
    if (a = '"' ∨ a = literalQuote) ∧ a = b ∧ b = c then
      let body := (newline? rest).getD rest
      readLines? a (body.length + 1) body
    else readShort? text
  | text => readShort? text
where
  /-- A string on one line. -/
  readShort? : List Char → Option (List Char × List Char)
    | a :: rest =>
      if a = '"' ∨ a = literalQuote then readLine? a (rest.length + 1) rest else none
    | [] => none

/-- Digits of a radix with single underscores between them. -/
def readDigits? (radix : Nat) : List Char → Option (List Char × List Char)
  | [] => none
  | c :: rest =>
    if (digitOf? radix c).isNone then none
    else match rest with
      | '_' :: d :: more =>
        match readDigits? radix (d :: more) with
        | some (digits, rest) => some (c :: digits, rest)
        | none => some ([c], rest)
      | rest =>
        match readDigits? radix rest with
        | some (digits, rest) => some (c :: digits, rest)
        | none => some ([c], rest)

def readSign : List Char → List Char × List Char
  | '+' :: rest => ([], rest)
  | '-' :: rest => (['-'], rest)
  | text => ([], text)

/-- A whole number in decimal; a zero in front stands alone. -/
def readWhole? : List Char → Option (List Char × List Char)
  | '0' :: rest => some (['0'], rest)
  | text => readDigits? 10 text

def readFraction? : List Char → Option (List Char × List Char)
  | '.' :: rest => (readDigits? 10 rest).map fun (digits, rest) => ('.' :: digits, rest)
  | _ => none

def readExponent? : List Char → Option (List Char × List Char)
  | mark :: rest =>
    if mark = 'e' ∨ mark = 'E' then
      let (sign, rest) := readSign rest
      (readDigits? 10 rest).map fun (digits, rest) => ('e' :: sign ++ digits, rest)
    else none
  | [] => none

/-- A number with decimals or an exponent; one that is too large is refused. -/
def readReal? (text : List Char) : Option (Value × List Char) := do
  let (sign, rest) := readSign text
  match rest with
  | 'i' :: 'n' :: 'f' :: rest =>
    return (.real (if sign.isEmpty then Decimal.infinity else -Decimal.infinity), rest)
  | 'n' :: 'a' :: 'n' :: rest => return (.real Decimal.notANumber, rest)
  | rest =>
    let (whole, rest) ← readWhole? rest
    let (tail, rest) ← match readFraction? rest with
      | some (fraction, rest) =>
        match readExponent? rest with
        | some (exponent, rest) => some (fraction ++ exponent, rest)
        | none => some (fraction, rest)
      | none => readExponent? rest
    match Decimal.readReal (sign ++ whole ++ tail) with
    | .ok x => if x == Decimal.infinity then none else return (.real x, rest)
    | .error _ => none

def wholeLimit : Nat := 2 ^ 63

/-- The value of digits of a radix, if it is below the limit. -/
def wholeOf? (radix : Nat) (digits : List Char) : Option Nat :=
  (readUnsigned radix wholeLimit digits).toOption

/-- A whole number; the marks of other radices allow no sign. -/
def readInteger? (text : List Char) : Option (Value × List Char) := do
  let marked (radix : Nat) (rest : List Char) : Option (Value × List Char) := do
    let (digits, rest) ← readDigits? radix rest
    return (.natural (← wholeOf? radix digits), rest)
  match text with
  | '0' :: 'x' :: rest => marked 16 rest
  | '0' :: 'o' :: rest => marked 8 rest
  | '0' :: 'b' :: rest => marked 2 rest
  | text =>
    let (sign, rest) := readSign text
    let (digits, rest) ← readWhole? rest
    if sign.isEmpty then return (.natural (← wholeOf? 10 digits), rest)
    else
      let n ← (readUnsigned 10 (wholeLimit + 1) digits).toOption
      return (.integer (-(n : Int)), rest)

/-- Exactly so many digits, with a value between bounds. -/
def readField? (count least greatest : Nat) (text : List Char) : Option (Nat × List Char) :=
  let digits := text.take count
  let n := Decimal.digitsValue digits
  if digits.length = count ∧ digits.all Char.isDigit ∧ least ≤ n ∧ n ≤ greatest then
    some (n, text.drop count)
  else none

def readMark? (mark : Char) : List Char → Option (List Char)
  | c :: rest => if c = mark then some rest else none
  | [] => none

def daysOf (year month : Nat) : Nat :=
  if month = 2 then
    (if year % 4 = 0 ∧ (year % 100 ≠ 0 ∨ year % 400 = 0) then 29 else 28)
  else if month = 4 ∨ month = 6 ∨ month = 9 ∨ month = 11 then 30
  else 31

def skipDate? (text : List Char) : Option (List Char) := do
  let (year, rest) ← readField? 4 0 9999 text
  let (month, rest) ← readField? 2 1 12 (← readMark? '-' rest)
  let (_, rest) ← readField? 2 1 (daysOf year month) (← readMark? '-' rest)
  return rest

def skipTime? (text : List Char) : Option (List Char) := do
  let (_, rest) ← readField? 2 0 23 text
  let (_, rest) ← readField? 2 0 59 (← readMark? ':' rest)
  let (_, rest) ← readField? 2 0 60 (← readMark? ':' rest)
  match rest with
  | '.' :: c :: more =>
    if c.isDigit then return more.dropWhile Char.isDigit else return rest
  | rest => return rest

/-- What follows the distance of a time zone, if there is one. -/
def skipZone (text : List Char) : List Char :=
  match text with
  | c :: rest =>
    if c = 'Z' ∨ c = 'z' then rest
    else if c = '+' ∨ c = '-' then
      let after? := do
        let (_, rest) ← readField? 2 0 23 rest
        let (_, rest) ← readField? 2 0 59 (← readMark? ':' rest)
        return rest
      after?.getD text
    else text
  | [] => []

/-- A date, a time, or both; no setting can have one. -/
def readDate? (text : List Char) : Option (Value × List Char) :=
  match skipDate? text with
  | none => (skipTime? text).map fun rest => (.other, rest)
  | some rest =>
    match rest with
    | c :: time =>
      if c = 'T' ∨ c = 't' ∨ c = ' ' then
        match skipTime? time with
        | some after => some (.other, skipZone after)
        | none => some (.other, rest)
      else some (.other, rest)
    | [] => some (.other, [])

def readScalar? (text : List Char) : Option (Value × List Char) :=
  match text with
  | 't' :: 'r' :: 'u' :: 'e' :: rest => some (.boolean true, rest)
  | 'f' :: 'a' :: 'l' :: 's' :: 'e' :: rest => some (.boolean false, rest)
  | c :: _ =>
    if c = '"' ∨ c = literalQuote then
      (readString? text).map fun (cs, rest) => (.text cs, rest)
    else readDate? text <|> readReal? text <|> readInteger? text
  | [] => none

end ProofOfWork.Document.Toml
