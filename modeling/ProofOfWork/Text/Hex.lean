import ProofOfWork.Text.Quoted
set_option autoImplicit false

namespace ProofOfWork.Text.Hex

/-- The two digits of a byte, the high one first. -/
def encodeByte (byte : UInt8) : List Char :=
  [hexDigit (byte.toNat / 16), hexDigit (byte.toNat % 16)]

def encode (bytes : List UInt8) : List Char := bytes.flatMap encodeByte

/-- Why a text is not a list of bytes. -/
inductive Fault where
  /-- A digit is left without a partner. -/
  | oddLength
  /-- The byte at this index is no digit. -/
  | badDigit (byte : UInt8) (index : Nat)
  deriving DecidableEq, Repr

def Fault.message : Fault → String
  | .oddLength => "Odd number of digits"
  | .badDigit byte index =>
    "Invalid character " ++ quoteChar (Char.ofNat byte.toNat) ++ " at position " ++ index.repr

def digitValue? (byte : UInt8) : Option Nat :=
  let n := byte.toNat
  if 48 ≤ n ∧ n ≤ 57 then some (n - 48)
  else if 97 ≤ n ∧ n ≤ 102 then some (n - 87)
  else if 65 ≤ n ∧ n ≤ 70 then some (n - 55)
  else none

/-- The value of the digit at `index`. -/
def digitAt (index : Nat) (byte : UInt8) : Except Fault Nat :=
  match digitValue? byte with
  | some value => .ok value
  | none => .error (.badDigit byte index)

/-- Digits taken two by two, from the byte index `index` on. -/
def decodePairs (index : Nat) : List UInt8 → Except Fault (List UInt8)
  | high :: low :: rest => do
    let h ← digitAt index high
    let l ← digitAt (index + 1) low
    let bytes ← decodePairs (index + 2) rest
    return (16 * h + l).toUInt8 :: bytes
  | _ => .ok []

/-- The bytes that a text spells; an odd length is found before a bad digit. -/
def decode (digits : List UInt8) : Except Fault (List UInt8) :=
  if digits.length % 2 = 1 then .error .oddLength else decodePairs 0 digits

def utf8 (text : List Char) : List UInt8 := text.flatMap String.utf8EncodeChar

end ProofOfWork.Text.Hex
