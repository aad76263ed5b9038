import ProofOfWork.Decimal.Literal
import ProofOfWork.Text.Basic
set_option autoImplicit false

namespace ProofOfWork.Document.Yaml
open Text

def isNull (cs : List Char) : Bool :=
  ["null", "Null", "NULL", "~"].any fun word => word.toList = cs

def boolean? (cs : List Char) : Option Bool :=
  if ["true", "True", "TRUE"].any fun word => word.toList = cs then some true
  else if ["false", "False", "FALSE"].any fun word => word.toList = cs then some false
  else none

def startsSigned : List Char → Bool
  | c :: _ => c = '+' || c = '-'
  | [] => false

/-- Several digits of which the first is a zero, with or without a sign: a text. -/
def isZeroPadded (cs : List Char) : Bool :=
  let digits := if startsSigned cs then cs.drop 1 else cs
  digits.length > 1 && digits.head? = some '0' && digits.all Char.isDigit

/-- Digits of a radix below a limit, without a sign. -/
def digits? (radix limit : Nat) (cs : List Char) : Option Nat :=
  if startsSigned cs then none else (readUnsigned radix limit cs).toOption

/-- The digits after the mark of a radix. -/
def marked? (mark : String) (radix limit : Nat) (cs : List Char) : Option Nat :=
  (dropStart? mark.toList cs).bind (digits? radix limit)

/-- A whole number below a limit, in decimal or after the mark of another radix. `padded` says
whether the number as it was written, with its sign, has zeros in front. -/
def magnitude? (limit : Nat) (padded : Bool) (cs : List Char) : Option Nat :=
  marked? "0x" 16 limit cs <|> marked? "0o" 8 limit cs <|> marked? "0b" 2 limit cs <|>
    if padded then none else digits? 10 limit cs

def natural? (limit : Nat) (cs : List Char) : Option Nat :=
  magnitude? limit (isZeroPadded cs) (if cs.head? = some '+' then cs.drop 1 else cs)

/-- A number with or without decimals; a finite one has to be in range. -/
def real? (cs : List Char) : Option Float :=
  let (plus, bare) := if cs.head? = some '+' then (true, cs.drop 1) else (false, cs)
  let is (words : List String) (text : List Char) : Bool :=
    words.any fun word => word.toList = text
  if plus && startsSigned bare then none
  else if is [".inf", ".Inf", ".INF"] bare then some Decimal.infinity
  else if is ["-.inf", "-.Inf", "-.INF"] cs then some (-Decimal.infinity)
  else if is [".nan", ".NaN", ".NAN"] cs then some Decimal.notANumber
  else match Decimal.readReal bare with
    | .ok x => if x.isFinite then some x else none
    | .error _ => none

/-- The words that older readers take for truth values. -/
def oldBooleans : List String :=
  ["y", "Y", "yes", "Yes", "YES", "n", "N", "no", "No", "NO", "on", "On", "ON", "off", "Off", "OFF"]

/-- A whole number of up to 128 bits, with or without a minus sign. -/
def isWhole (cs : List Char) : Bool :=
  (natural? (2 ^ 128) cs).isSome ||
    (cs.head? = some '-' && (magnitude? (2 ^ 127 + 1) (isZeroPadded cs) (cs.drop 1)).isSome)

/-- Whether a text could be taken for something else. -/
def isAmbiguous (cs : List Char) : Bool :=
  cs.isEmpty || isNull cs || (boolean? cs).isSome || oldBooleans.any (fun w => w.toList = cs) ||
    isZeroPadded cs || isWhole cs || (real? cs).isSome

end ProofOfWork.Document.Yaml
