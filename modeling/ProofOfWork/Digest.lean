import ProofOfWork.Error
import ProofOfWork.Word256
set_option autoImplicit false

/-!
Digests: what a hasher makes of data and a nonce.
-/
namespace ProofOfWork

structure Digest where
  word : Word256
  deriving DecidableEq, Repr, Inhabited

namespace Digest

instance : Ord Digest := ⟨fun a b => compare a.word b.word⟩

def value (d : Digest) : Nat := d.word.value

def leadingZeroBits (d : Digest) : Nat := d.word.leadingZeroBits

def hex (d : Digest) : List Char := d.word.hex

/-- A digest from sixty-four digits of either case, with blanks around them allowed. -/
def ofHex (text : List Char) : Except Error Digest :=
  match Word256.ofHex text with
  | .ok word => .ok ⟨word⟩
  | .error (.digits fault) => .error (.invalidInput (.digestDigits fault))
  | .error (.length bytes) => .error (.invalidInput (.digestLength bytes))

end Digest
end ProofOfWork
