import ProofOfWork.Decimal.Literal
import ProofOfWork.Document.Value
set_option autoImplicit false

/-!
JSON numbers. The digits are gathered in 64 bits: once they no longer fit, the remaining digits of
the whole part count as places and those of the fraction are dropped. The number is then scaled by a
power of ten in floating point, so its last bits may differ from the nearest number's.
-/
namespace ProofOfWork.Document.Json

/-- Digits of a number, apart from its value: the gathered digits and their power of ten. -/
structure Gathered where
  digits : Nat
  power : Int

def gatherLimit : Nat := 2 ^ 64

def digitValue (c : Char) : Nat := c.toNat - 48

/-- The digits of the whole part, until they no longer fit; the rest of them only count. -/
def gatherWhole (digits : Nat) : List Char → Gathered
  | [] => ⟨digits, 0⟩
  | c :: rest =>
    let next := 10 * digits + digitValue c
    if next < gatherLimit then gatherWhole next rest else ⟨digits, Int.ofNat (rest.length + 1)⟩

/-- The digits of the fraction, until they no longer fit. -/
def gatherFraction (g : Gathered) : List Char → Gathered
  | [] => g
  | c :: rest =>
    let next := 10 * g.digits + digitValue c
    if next < gatherLimit then gatherFraction ⟨next, g.power - 1⟩ rest else g

/-- The greatest power of ten that is a number. -/
def scaleStep : Nat := 308

def powerOfTen (n : Nat) : Float := Decimal.nearest 1 n

/-- A number times a power of ten; nothing if that is too large. A very small power is applied in
steps. -/
def scaled? (fuel : Nat) (f : Float) (power : Int) : Option Float :=
  if power.natAbs ≤ scaleStep then
    if power ≥ 0 then
      let product := f * powerOfTen power.natAbs
      if product.isInf then none else some product
    else some (f / powerOfTen power.natAbs)
  else if f == 0 then some f
  else if power ≥ 0 then none
  else match fuel with
    | 0 => some 0
    | fuel + 1 => scaled? fuel (f / powerOfTen scaleStep) (power + scaleStep)

/-- The greatest exponent that is told apart from larger ones. -/
def exponentLimit : Nat := 2147483647

structure Exponent where
  negative : Bool
  digits : List Char

/-- The real number of gathered digits and an exponent part. -/
def realOf? (g : Gathered) (exponent : Option Exponent) : Option Float :=
  match exponent with
  | none => scaled? 8 (Float.ofNat g.digits) g.power
  | some e =>
    let size := Decimal.digitsValue e.digits
    if size > exponentLimit then
      if g.digits ≠ 0 ∧ !e.negative then none else some 0
    else
      let power := if e.negative then g.power - size else g.power + size
      scaled? 8 (Float.ofNat g.digits) power

/-- The value of a number; one that is too large is none that a setting can have. -/
def numberValue (negative : Bool) (whole : List Char) (fraction : Option (List Char))
    (exponent : Option Exponent) : Value :=
  let g := gatherWhole 0 whole
  let real (g : Gathered) : Value :=
    match realOf? g exponent with
    | some x => .real (if negative then -x else x)
    | none => .other
  match fraction, exponent with
  | none, none =>
    if g.power ≠ 0 then real g
    else if !negative then .integer g.digits
    else if g.digits = 0 ∨ g.digits > 2 ^ 63 then .real (-(Float.ofNat g.digits))
    else .integer (-(g.digits : Int))
  | none, some _ => real g
  | some digits, _ => real (gatherFraction g digits)

end ProofOfWork.Document.Json
