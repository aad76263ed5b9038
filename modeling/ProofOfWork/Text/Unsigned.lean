import ProofOfWork.Basic
set_option autoImplicit false

namespace ProofOfWork.Text

/-- Why a text is not a number of the kind that was asked for. -/
inductive NumberFault where
  | emptyInteger
  | badInteger
  | tooLarge
  | emptyReal
  | badReal
  deriving DecidableEq, Repr

def NumberFault.message : NumberFault → String
  | .emptyInteger => "cannot parse integer from empty string"
  | .badInteger => "invalid digit found in string"
  | .tooLarge => "number too large to fit in target type"
  | .emptyReal => "cannot parse float from empty string"
  | .badReal => "invalid float literal"

/-- The value of an ASCII digit of the radix, letters of either case counting from ten. -/
def digitOf? (radix : Nat) (c : Char) : Option Nat :=
  let n := c.toNat
  let value? :=
    if 48 ≤ n ∧ n ≤ 57 then some (n - 48)
    else if 97 ≤ n ∧ n ≤ 122 then some (n - 87)
    else if 65 ≤ n ∧ n ≤ 90 then some (n - 55)
    else none
  value?.filter (· < radix)

/-- Digits that follow a number of value `value`; the result stays below `limit`. -/
def readDigits (radix limit : Nat) (value : Nat) : List Char → Except NumberFault Nat
  | [] => .ok value
  | c :: rest =>
    match digitOf? radix c with
    | none => .error .badInteger
    | some digit =>
      let next := value * radix + digit
      if next < limit then readDigits radix limit next rest else .error .tooLarge

/-- An unsigned integer below `limit`. -/
def readUnsigned (radix limit : Nat) : List Char → Except NumberFault Nat
  | [] => .error .emptyInteger
  | ['+'] => .error .badInteger
  | '+' :: digits => readDigits radix limit 0 digits
  | digits => readDigits radix limit 0 digits

def readWord64 (text : List Char) : Except NumberFault UInt64 :=
  (readUnsigned 10 (2 ^ 64) text).map Nat.toUInt64

def readWord32 (text : List Char) : Except NumberFault UInt32 :=
  (readUnsigned 10 (2 ^ 32) text).map Nat.toUInt32

def decimal (n : Nat) : List Char := Nat.toDigits 10 n

/-- A number in decimal digits, with zeros in front up to a width. -/
def padded (radix width n : Nat) : List Char :=
  let digits := Nat.toDigits radix n
  List.replicate (width - digits.length) '0' ++ digits

end ProofOfWork.Text
