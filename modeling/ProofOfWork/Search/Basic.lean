set_option autoImplicit false

namespace ProofOfWork

inductive SearchMode where
  /-- The smallest accepted nonce of the range. -/
  | lowest
  /-- The solution that is reported first. -/
  | firstFound
  deriving DecidableEq, Repr, Inhabited

namespace SearchMode

def all : List SearchMode := [.lowest, .firstFound]

def name : SearchMode → String
  | .lowest => "lowest"
  | .firstFound => "first-found"

def title : SearchMode → String
  | .lowest => "Lowest"
  | .firstFound => "FirstFound"

end SearchMode

/-- The nonces from `first` up to `stop`, which is not one of them. -/
structure NonceRange where
  first : UInt64
  stop : UInt64
  deriving DecidableEq, Repr

namespace NonceRange

def count (r : NonceRange) : UInt64 := if r.first < r.stop then r.stop - r.first else 0

/-- The `count` nonces from `first` on, as far as they lie below the greatest number. -/
def upTo (first count : UInt64) : NonceRange :=
  if count ≤ 0xFFFFFFFFFFFFFFFF - first then ⟨first, first + count⟩
  else ⟨first, 0xFFFFFFFFFFFFFFFF⟩

/-- So many adjoining ranges of `chunk` nonces, of which the first `longer` have one more. -/
def adjoining (chunk : UInt64) : (parts longer : Nat) → (first : UInt64) → List NonceRange
  | 0, _, _ => []
  | parts + 1, 0, first => ⟨first, first + chunk⟩ :: adjoining chunk parts 0 (first + chunk)
  | parts + 1, longer + 1, first =>
    ⟨first, first + (chunk + 1)⟩ :: adjoining chunk parts longer (first + (chunk + 1))

/-- The range in at most `parts` parts, none of them empty, the longer ones first. -/
def partition (r : NonceRange) (parts : Nat) : List NonceRange :=
  let parts := min parts r.count.toNat
  if parts = 0 then []
  else adjoining (r.count / parts.toUInt64) parts (r.count % parts.toUInt64).toNat r.first

end NonceRange
end ProofOfWork
