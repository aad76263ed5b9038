import ProofOfWork.Basic
import ProofOfWork.Hash.Blake2b
set_option autoImplicit false

/-!
Argon2d in version 0x13 with one lane and one pass: 512 blocks of a KiB are filled in order, each
from the block before it and an earlier one that the block before it selects.
-/
namespace ProofOfWork.Hash.Argon2d

def salt : ByteArray := "nimiqrocks!".toUTF8

/-- The number of blocks, which is also the memory in KiB. -/
def blockTotal : Nat := 512

def digestLength : Nat := 32

def messageLimit : Nat := 2 ^ 32 - 1

abbrev Block := Vector UInt64 128

/-- A number in four bytes, the least significant one first. -/
def bytes32 (n : Nat) : ByteArray :=
  ⟨#[n.toUInt8, (n / 2 ^ 8).toUInt8, (n / 2 ^ 16).toUInt8, (n / 2 ^ 24).toUInt8]⟩

/-- A length and the bytes that have it. -/
def sized (bytes : ByteArray) : ByteArray := bytes32 bytes.size ++ bytes

/-- The parameters and the message in sixty-four bytes. -/
def seed (message : ByteArray) : ByteArray :=
  let parameters := bytes32 1 ++ bytes32 digestLength ++ bytes32 blockTotal ++ bytes32 1 ++
    bytes32 0x13 ++ bytes32 0
  ⟨(Blake2b.digest Blake2b.whole
    (parameters ++ sized message ++ sized salt ++ bytes32 0 ++ bytes32 0)).toArray⟩

/-- The first halves of `count` digests, each of the one before it, and all of the last. -/
def chained : Nat → ByteArray → ByteArray → ByteArray
  | 0, previous, out => out ++ previous
  | count + 1, previous, out =>
    chained count ⟨(Blake2b.digest Blake2b.whole previous).toArray⟩ (out ++ previous.extract 0 32)

/-- A block of a KiB made from bytes. -/
def expand (bytes : ByteArray) : Block :=
  let first : ByteArray := ⟨(Blake2b.digest Blake2b.whole (bytes32 1024 ++ bytes)).toArray⟩
  let all := chained 30 first ByteArray.empty
  Vector.ofFn fun k : Fin 128 => Blake2b.wordAt all (8 * k.val)

/-- The sum of two words and twice the product of their lower halves. -/
@[inline] def blend (x y : UInt64) : UInt64 :=
  x + y + 2 * (x &&& 0xFFFFFFFF) * (y &&& 0xFFFFFFFF)

@[inline] def mix (a b c d : UInt64) : UInt64 × UInt64 × UInt64 × UInt64 :=
  let a := blend a b
  let d := Blake2b.rotateRight (d ^^^ a) 32
  let c := blend c d
  let b := Blake2b.rotateRight (b ^^^ c) 24
  let a := blend a b
  let d := Blake2b.rotateRight (d ^^^ a) 16
  let c := blend c d
  let b := Blake2b.rotateRight (b ^^^ c) 63
  (a, b, c, d)

@[inline] def Block.put (block : Block) (place : Fin 128) (word : UInt64) : Block :=
  block.set place.val word place.isLt

/-- The columns, then the diagonals, of the sixteen words at the places `p 0` to `p 15`. -/
def permuteAt (block : Block) (p : Nat → Fin 128) : Block :=
  let word place := block.get (p place)
  let (a0, b0, c0, d0) := mix (word 0) (word 4) (word 8) (word 12)
  let (a1, b1, c1, d1) := mix (word 1) (word 5) (word 9) (word 13)
  let (a2, b2, c2, d2) := mix (word 2) (word 6) (word 10) (word 14)
  let (a3, b3, c3, d3) := mix (word 3) (word 7) (word 11) (word 15)
  let (a0, b1, c2, d3) := mix a0 b1 c2 d3
  let (a1, b2, c3, d0) := mix a1 b2 c3 d0
  let (a2, b3, c0, d1) := mix a2 b3 c0 d1
  let (a3, b0, c1, d2) := mix a3 b0 c1 d2
  block |>.put (p 0) a0 |>.put (p 1) a1 |>.put (p 2) a2 |>.put (p 3) a3
    |>.put (p 4) b0 |>.put (p 5) b1 |>.put (p 6) b2 |>.put (p 7) b3
    |>.put (p 8) c0 |>.put (p 9) c1 |>.put (p 10) c2 |>.put (p 11) c3
    |>.put (p 12) d0 |>.put (p 13) d1 |>.put (p 14) d2 |>.put (p 15) d3

/-- The places of the eight rows of a block, then of its eight columns of word pairs. -/
def places : Vector (Nat → Fin 128) 16 :=
  Vector.ofFn fun i k =>
    if i.val < 8 then Fin.ofNat 128 (16 * i.val + k)
    else Fin.ofNat 128 (2 * (i.val - 8) + 16 * (k / 2) + k % 2)

/-- The block made from two others. -/
def compress (x y : Block) : Block :=
  let both := Vector.zipWith (· ^^^ ·) x y
  Vector.zipWith (· ^^^ ·) both (places.foldl permuteAt both)

/-- The earlier block that goes with the block before the `index`-th: of the `index - 1` blocks
before that one, a word selects late ones more often. -/
def reference (index : Nat) (word : UInt64) : Nat :=
  let area := index - 1
  let x := word.toNat % 2 ^ 32
  let y := x * x / 2 ^ 32
  area - 1 - area * y / 2 ^ 32

/-- A block of the memory; there are no others. -/
def blockAt (memory : Array Block) (i : Nat) : Block :=
  memory[i]?.getD (Vector.replicate 128 0)

/-- The memory with its last `remaining` blocks filled. -/
def fill : Nat → Array Block → Array Block
  | 0, memory => memory
  | remaining + 1, memory =>
    let previous := blockAt memory (memory.size - 1)
    let other := blockAt memory (reference memory.size previous[0])
    fill remaining (memory.push (compress previous other))

def blockBytes (block : Block) : ByteArray :=
  ⟨(block.toList.flatMap littleEndian).toArray⟩

def digest (message : ByteArray) : Vector UInt8 32 :=
  let start := seed message
  let first := expand (start ++ bytes32 0 ++ bytes32 0)
  let second := expand (start ++ bytes32 1 ++ bytes32 0)
  let memory := fill (blockTotal - 2) #[first, second]
  Blake2b.digest Blake2b.half (bytes32 digestLength ++ blockBytes (blockAt memory (blockTotal - 1)))

end ProofOfWork.Hash.Argon2d
