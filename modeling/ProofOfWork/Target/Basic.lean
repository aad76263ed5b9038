import ProofOfWork.Digest
set_option autoImplicit false

namespace ProofOfWork

structure Target where
  word : Word256
  deriving DecidableEq, Repr

namespace Target

/-- Every digest is accepted. -/
def max : Target := ⟨Word256.max⟩

/-- Only the digest zero is accepted. -/
def zero : Target := ⟨Word256.zero⟩

instance : Inhabited Target := ⟨max⟩

instance : Ord Target := ⟨fun a b => compare a.word b.word⟩

def value (t : Target) : Nat := t.word.value

def ofNat (n : Nat) : Target := ⟨Word256.ofNat n⟩

/-- Whether the bytes of a digest do not come after those of the target. -/
def accepts (t : Target) (d : Digest) : Bool := d.word.le t.word

def leadingZeroBits (t : Target) : Nat := t.word.leadingZeroBits

def hex (t : Target) : List Char := t.word.hex

/-- A target from sixty-four digits of either case, with blanks around them allowed. -/
def ofHex (text : List Char) : Except Error Target :=
  match Word256.ofHex text with
  | .ok word => .ok ⟨word⟩
  | .error (.digits fault) => .error (.invalidTarget (.digits fault))
  | .error (.length bytes) => .error (.invalidTarget (.length bytes))

def belowPowerOfTwo (exponent : UInt32) : Except Error Target :=
  if exponent > 256 then .error (.invalidTarget (.exponent exponent))
  else .ok ⟨Word256.lowBits exponent.toNat⟩

/-- The target that accepts what has at least so many leading zero bits. -/
def ofLeadingZeros (bits : UInt32) : Except Error Target :=
  if bits > 256 then .error (.invalidTarget (.leadingZeros bits))
  else belowPowerOfTwo (256 - bits)

/-- The binary places of a difficulty. -/
def difficultyPlaces : Nat := 32

def maxValue : Nat := 2 ^ 256 - 1

def ofDifficulty (difficulty : Float) : Except Error Target :=
  if !difficulty.isFinite || difficulty < 1 then
    .error (.invalidTarget (.difficultyRange difficulty))
  else match Decimal.shape (difficulty * Float.ofNat (2 ^ difficultyPlaces)) with
    | .finite false mantissa exponent =>
      .ok (ofNat (maxValue * 2 ^ difficultyPlaces / Decimal.truncated mantissa exponent))
    | _ => .error (.invalidTarget (.difficultySize difficulty))

/-- The difficulty of a target; that of zero is the greatest finite number. -/
def difficulty (t : Target) : Float :=
  if t.value = 0 then Decimal.greatest
  else Float.ofNat maxValue / Float.ofNat t.value

end Target
end ProofOfWork
