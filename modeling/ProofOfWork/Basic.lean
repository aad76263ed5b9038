set_option autoImplicit false

/-!
What everything rests on: powers of natural numbers are those of the core library, whatever else is
imported; words stand as bytes, the least significant one first; and nonces are words.
-/
attribute [instance (high + 1), default_instance (high + 1)] instPowNat

namespace ProofOfWork

/-- The eight bytes of a word. -/
def littleEndian (word : UInt64) : List UInt8 :=
  [word.toUInt8, (word >>> 8).toUInt8, (word >>> 16).toUInt8, (word >>> 24).toUInt8,
    (word >>> 32).toUInt8, (word >>> 40).toUInt8, (word >>> 48).toUInt8, (word >>> 56).toUInt8]

def ofLittleEndian (bytes : Vector UInt8 8) : UInt64 :=
  bytes.toList.foldr (fun byte word => word <<< 8 ||| byte.toUInt64) 0

structure Nonce where
  value : UInt64
  deriving DecidableEq, Repr, Inhabited

namespace Nonce

instance : Ord Nonce := ⟨fun a b => compare a.value b.value⟩

/-- The nonce after this one; the greatest has none. -/
def next? (n : Nonce) : Option Nonce :=
  if n.value = 0xFFFFFFFFFFFFFFFF then none else some ⟨n.value + 1⟩

/-- The bytes that are hashed after the data. -/
def bytes (n : Nonce) : List UInt8 := littleEndian n.value

/-- The nonce of eight bytes, the least significant one first. -/
def ofBytes (bytes : Vector UInt8 8) : Nonce := ⟨ofLittleEndian bytes⟩

def text (n : Nonce) : String := n.value.toNat.repr

end Nonce
end ProofOfWork
