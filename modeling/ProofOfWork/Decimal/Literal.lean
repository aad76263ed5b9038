import ProofOfWork.Decimal.Binary64
import ProofOfWork.Text.Unsigned
set_option autoImplicit false

namespace ProofOfWork.Decimal
open ProofOfWork.Text

/-- The digits at the front of a text, and the rest. -/
def spanDigits (text : List Char) : List Char × List Char :=
  (text.takeWhile Char.isDigit, text.dropWhile Char.isDigit)

def digitsValue (digits : List Char) : Nat :=
  digits.foldl (fun value c => 10 * value + (c.toNat - 48)) 0

/-- An exponent part, or none at the end of the text. -/
def exponent? : List Char → Option Int
  | [] => some 0
  | mark :: rest =>
    if mark = 'e' ∨ mark = 'E' then
      let (sign, digits) : Int × List Char := match rest with
        | '+' :: digits => (1, digits)
        | '-' :: digits => (-1, digits)
        | digits => (1, digits)
      if digits ≠ [] ∧ digits.all Char.isDigit then some (sign * digitsValue digits) else none
    else none

/-- A number without a sign. -/
def magnitude? (text : List Char) : Option Float :=
  match String.ofList (lowerWord text) with
  | "inf" => some infinity
  | "infinity" => some infinity
  | "nan" => some notANumber
  | _ =>
    let (whole, rest) := spanDigits text
    let (fraction, rest) := match rest with
      | '.' :: rest => spanDigits rest
      | rest => ([], rest)
    if whole = [] ∧ fraction = [] then none
    else (exponent? rest).map fun power =>
      nearest (digitsValue (whole ++ fraction)) (power - fraction.length)
where
  /-- The text in lower case, if it is no longer than the longest word. -/
  lowerWord (text : List Char) : List Char :=
    if text.length ≤ 8 then text.map Char.toLower else []

/-- A number with an optional sign. -/
def readReal (text : List Char) : Except NumberFault Float :=
  let signed : Option Float := match text with
    | '-' :: rest => (magnitude? rest).map fun x => -x
    | '+' :: rest => magnitude? rest
    | rest => magnitude? rest
  match text, signed with
  | [], _ => .error .emptyReal
  | _, some x => .ok x
  | _, none => .error .badReal

end ProofOfWork.Decimal
