import ProofOfWork.Basic
set_option autoImplicit false

namespace ProofOfWork.Decimal

/-- What a binary64 number stands for. -/
inductive Shape where
  | notANumber
  | infinite (negative : Bool)
  | finite (negative : Bool) (mantissa : Nat) (exponent : Int)
  deriving DecidableEq, Repr

/-- The value that the bits of a number encode; a zero has mantissa zero. -/
def shape (x : Float) : Shape :=
  let bits := x.toBits.toNat
  let negative := decide (bits / 2 ^ 63 % 2 = 1)
  let biased := bits / 2 ^ 52 % 2 ^ 11
  let fraction := bits % 2 ^ 52
  if biased = 2047 then
    if fraction = 0 then .infinite negative else .notANumber
  else if biased = 0 then .finite negative fraction (-1074)
  else .finite negative (2 ^ 52 + fraction) (Int.ofNat biased - 1075)

/-- The integer part of a finite number of magnitude `mantissa * 2 ^ exponent`. -/
def truncated (mantissa : Nat) (exponent : Int) : Nat :=
  match exponent with
  | .ofNat k => mantissa * 2 ^ k
  | .negSucc k => mantissa / 2 ^ (k + 1)

def infinity : Float := Float.ofBits 0x7FF0000000000000

def notANumber : Float := Float.ofBits 0x7FF8000000000000

def greatest : Float := Float.ofBits 0x7FEFFFFFFFFFFFFF

/-- The binary64 number nearest to `mantissa * 10 ^ exponent`, ties to even; infinity beyond the
greatest finite one. Exponents far outside the range are settled by the digit count alone. -/
def nearest (mantissa : Nat) (exponent : Int) : Float :=
  if mantissa = 0 then 0
  else
    let magnitude := (Nat.toDigits 10 mantissa).length + exponent
    if magnitude > 310 then infinity
    else if magnitude < -330 then 0
    else match exponent with
      | .ofNat k => Float.ofScientific mantissa false k
      | .negSucc k => Float.ofScientific mantissa true (k + 1)

end ProofOfWork.Decimal
