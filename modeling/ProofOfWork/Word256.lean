import ProofOfWork.Basic
import ProofOfWork.Text.Basic
import ProofOfWork.Text.Hex
set_option autoImplicit false

namespace ProofOfWork

structure Word256 where
  bytes : Vector UInt8 32
  deriving DecidableEq, Repr

namespace Word256

/-- The big-endian number of a list of bytes. -/
def bigEndian (bytes : List UInt8) : Nat :=
  bytes.foldl (fun value byte => 256 * value + byte.toNat) 0

def value (w : Word256) : Nat := bigEndian w.bytes.toList

/-- The word of a number, taken modulo `2 ^ 256`. -/
def ofNat (n : Nat) : Word256 :=
  ⟨Vector.ofFn fun i => (n / 256 ^ (31 - i.val)).toUInt8⟩

/-- The word of thirty-two bytes. -/
def ofBytes? (bytes : List UInt8) : Option Word256 :=
  if h : bytes.length = 32 then some ⟨⟨bytes.toArray, by simpa using h⟩⟩ else none

def max : Word256 := ⟨Vector.replicate 32 255⟩

def zero : Word256 := ⟨Vector.replicate 32 0⟩

/-- The last `count` bits set: whole bytes at the end, and the bits that are left over in the byte
in front of them, if there is one. -/
def lowBits (count : Nat) : Word256 :=
  let whole := count / 8
  let rest := count % 8
  ⟨Vector.ofFn fun i : Fin 32 =>
    let place := 31 - i.val
    if place < whole then 255
    else if place = whole ∧ 0 < rest then (1 <<< rest.toUInt8) - 1
    else 0⟩

instance : Inhabited Word256 := ⟨zero⟩

/-- The order of two lists of bytes, settled by the first place where they differ. -/
def compareBytes : List UInt8 → List UInt8 → Ordering
  | [], [] => .eq
  | [], _ :: _ => .lt
  | _ :: _, [] => .gt
  | a :: as, b :: bs =>
    if a < b then .lt else if b < a then .gt else compareBytes as bs

instance : Ord Word256 := ⟨fun a b => compareBytes a.bytes.toList b.bytes.toList⟩

/-- Whether the bytes of one word do not come after those of the other. -/
def le (a b : Word256) : Bool := compare a b != .gt

def byteWidth (byte : UInt8) : Nat := if byte = 0 then 0 else byte.toNat.log2 + 1

def leadingZeros : List UInt8 → Nat
  | [] => 0
  | byte :: rest => if byte = 0 then 8 + leadingZeros rest else 8 - byteWidth byte

/-- The zero bits in front of the first set bit; 256 for zero. -/
def leadingZeroBits (w : Word256) : Nat := leadingZeros w.bytes.toList

def hex (w : Word256) : List Char := Text.Hex.encode w.bytes.toList

inductive HexFault where
  | digits (fault : Text.Hex.Fault)
  | length (bytes : Nat)
  deriving DecidableEq, Repr

/-- Sixty-four digits of either case, with blanks around them allowed. -/
def ofHex (text : List Char) : Except HexFault Word256 :=
  match Text.Hex.decode (Text.Hex.utf8 (Text.trimBlanks text)) with
  | .error fault => .error (.digits fault)
  | .ok bytes =>
    match ofBytes? bytes with
    | some word => .ok word
    | none => .error (.length bytes.length)

end Word256
end ProofOfWork
