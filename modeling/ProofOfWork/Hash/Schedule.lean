set_option autoImplicit false

/-!
What the two sizes of BLAKE2 share: the order in which the rounds take the message words, and bytes
read past the end of the message, which are zero.
-/
namespace ProofOfWork.Hash

/-- The order of the sixteen message words in one round. -/
abbrev Row := Vector (Fin 16) 16

def schedule : Vector Row 10 := #v[
  #v[0, 1, 2, 3, 4, 5, 6, 7, 8, 9, 10, 11, 12, 13, 14, 15],
  #v[14, 10, 4, 8, 9, 15, 13, 6, 1, 12, 0, 2, 11, 7, 5, 3],
  #v[11, 8, 12, 0, 5, 2, 15, 13, 10, 14, 3, 6, 7, 1, 9, 4],
  #v[7, 9, 3, 1, 13, 12, 11, 14, 2, 6, 5, 10, 4, 0, 15, 8],
  #v[9, 0, 5, 7, 2, 4, 10, 15, 14, 1, 11, 12, 6, 8, 3, 13],
  #v[2, 12, 6, 10, 0, 11, 8, 3, 4, 13, 7, 5, 15, 14, 1, 9],
  #v[12, 5, 1, 15, 14, 13, 4, 10, 0, 7, 6, 3, 9, 2, 8, 11],
  #v[13, 11, 7, 14, 12, 1, 3, 9, 5, 0, 15, 4, 8, 6, 2, 10],
  #v[6, 15, 14, 9, 11, 3, 0, 8, 12, 2, 13, 7, 1, 4, 10, 5],
  #v[10, 2, 8, 4, 7, 6, 1, 5, 15, 11, 9, 14, 3, 12, 13, 0]]

/-- The message word that a row takes at a place. -/
@[inline] def Row.word {α : Type} (r : Row) (m : Vector α 16) (place : Nat) : α :=
  m.get (r.get (Fin.ofNat 16 place))

/-- The byte at an index; past the end it is zero. -/
@[inline] def byteAt (bytes : ByteArray) (i : Nat) : UInt8 :=
  if h : i < bytes.size then bytes[i] else 0

/-- The blocks of `size` bytes that a message fills; an empty message has one. -/
def blockCount (size length : Nat) : Nat := max 1 ((length + size - 1) / size)

end ProofOfWork.Hash
