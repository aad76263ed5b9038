import ProofOfWork.Decimal.Layout
import ProofOfWork.Document.Value
import ProofOfWork.Text.Quoted
set_option autoImplicit false

namespace ProofOfWork.Document.Json
open Text

def escapedChar (c : Char) : List Char :=
  if c = '"' ∨ c = '\\' then ['\\', c]
  else if c = '\n' then ['\\', 'n']
  else if c = '\r' then ['\\', 'r']
  else if c = '\t' then ['\\', 't']
  else if c.toNat = 8 then ['\\', 'b']
  else if c.toNat = 12 then ['\\', 'f']
  else if c.toNat < 32 then
    ['\\', 'u', '0', '0', hexDigit (c.toNat / 16), hexDigit (c.toNat % 16)]
  else [c]

def quoted (cs : List Char) : List Char := '"' :: (cs.flatMap escapedChar ++ [ '"'])

def integerText : Int → List Char
  | .ofNat n => decimal n
  | .negSucc n => '-' :: decimal (n + 1)

/-- A value that is no sequence and no mapping. -/
def scalarText : Value → List Char
  | .boolean b => (if b then "true" else "false").toList
  | .integer n => integerText n
  | .real x => Decimal.jsonLayout.text x
  | .text cs => quoted cs
  | _ => "null".toList

mutual

/-- A value on one line. -/
def compact : Value → List Char
  | .sequence items => '[' :: (compactItems items ++ [']'])
  | .mapping entries => '\x7b' :: (compactEntries entries ++ ['\x7d'])
  | v => scalarText v

def compactItems : List Value → List Char
  | [] => []
  | [v] => compact v
  | v :: rest => compact v ++ ',' :: compactItems rest

def compactEntries : List (List Char × Value) → List Char
  | [] => []
  | [(key, v)] => quoted key ++ ':' :: compact v
  | (key, v) :: rest => quoted key ++ ':' :: (compact v ++ ',' :: compactEntries rest)

end

/-- The start of a line at a depth of nesting. -/
def newLine (depth : Nat) : List Char := '\n' :: List.replicate (2 * depth) ' '

mutual

/-- A value with an entry on each line. -/
def pretty (depth : Nat) : Value → List Char
  | .sequence [] => ['[', ']']
  | .sequence items => '[' :: (prettyItems (depth + 1) items ++ newLine depth ++ [']'])
  | .mapping [] => ['\x7b', '\x7d']
  | .mapping entries => '\x7b' :: (prettyEntries (depth + 1) entries ++ newLine depth ++ ['\x7d'])
  | v => scalarText v

def prettyItems (depth : Nat) : List Value → List Char
  | [] => []
  | [v] => newLine depth ++ pretty depth v
  | v :: rest => newLine depth ++ pretty depth v ++ ',' :: prettyItems depth rest

def prettyEntries (depth : Nat) : List (List Char × Value) → List Char
  | [] => []
  | [(key, v)] => newLine depth ++ quoted key ++ [':', ' '] ++ pretty depth v
  | (key, v) :: rest =>
    newLine depth ++ quoted key ++ [':', ' '] ++ pretty depth v ++ ',' :: prettyEntries depth rest

end

end ProofOfWork.Document.Json
