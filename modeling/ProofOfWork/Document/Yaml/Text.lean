import ProofOfWork.Decimal.Layout
import ProofOfWork.Document.Value
import ProofOfWork.Document.Yaml.Scalar
import ProofOfWork.Text.Quoted
set_option autoImplicit false

namespace ProofOfWork.Document.Yaml
open Text

/-- A text, in single quotes if it could be taken for something else. -/
def textOf (cs : List Char) : List Char :=
  if isAmbiguous cs then
    apostrophe :: (cs.flatMap (fun c => if c = apostrophe then [c, c] else [c]) ++ [apostrophe])
  else cs

def scalarText : Value → List Char
  | .boolean b => (if b then "true" else "false").toList
  | .integer (.ofNat n) => decimal n
  | .integer (.negSucc n) => '-' :: decimal (n + 1)
  | .real x => Decimal.yamlLayout.text x
  | .text cs => textOf cs
  | .sequence _ => ['[', ']']
  | .mapping _ => ['\x7b', '\x7d']
  | _ => "null".toList

/-- The first line after a dash, and the others below it. -/
def dashed : List (List Char) → List (List Char)
  | [] => []
  | first :: rest => (['-', ' '] ++ first) :: rest.map ([' ', ' '] ++ ·)

mutual

def lines : Value → List (List Char)
  | .sequence (v :: rest) => dashed (lines v) ++ itemLines rest
  | .mapping ((key, v) :: rest) => entryLines key v ++ entriesLines rest
  | v => [scalarText v]

def itemLines : List Value → List (List Char)
  | [] => []
  | v :: rest => dashed (lines v) ++ itemLines rest

/-- The lines of an entry: a mapping stands deeper than its key, a sequence does not. -/
def entryLines (key : List Char) : Value → List (List Char)
  | .sequence (v :: rest) => (key ++ [':']) :: (dashed (lines v) ++ itemLines rest)
  | .mapping ((inner, v) :: rest) =>
    (key ++ [':']) :: (entryLines inner v ++ entriesLines rest).map ([' ', ' '] ++ ·)
  | v => [key ++ [':', ' '] ++ scalarText v]

def entriesLines : List (List Char × Value) → List (List Char)
  | [] => []
  | (key, v) :: rest => entryLines key v ++ entriesLines rest

end

def text (v : Value) : List Char := (lines v).flatMap (· ++ ['\n'])

end ProofOfWork.Document.Yaml
