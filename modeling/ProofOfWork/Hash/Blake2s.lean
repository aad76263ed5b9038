import ProofOfWork.Hash.Schedule
set_option autoImplicit false

namespace ProofOfWork.Hash.Blake2s

/-- The eight words that are carried from block to block. -/
structure Chain where
  (h0 h1 h2 h3 h4 h5 h6 h7 : UInt32)

/-- The sixteen words that are mixed within a block. -/
structure State where
  (a0 a1 a2 a3 b0 b1 b2 b3 c0 c1 c2 c3 d0 d1 d2 d3 : UInt32)

def initial : Chain :=
  ⟨0x6A09E667, 0xBB67AE85, 0x3C6EF372, 0xA54FF53A, 0x510E527F, 0x9B05688C, 0x1F83D9AB, 0x5BE0CD19⟩

@[inline] def rotateRight (x n : UInt32) : UInt32 := x >>> n ||| x <<< (32 - n)

/-- Four words of the state and two of the message. -/
@[inline] def mix (a b c d x y : UInt32) : UInt32 × UInt32 × UInt32 × UInt32 :=
  let a := a + b + x
  let d := rotateRight (d ^^^ a) 16
  let c := c + d
  let b := rotateRight (b ^^^ c) 12
  let a := a + b + y
  let d := rotateRight (d ^^^ a) 8
  let c := c + d
  let b := rotateRight (b ^^^ c) 7
  (a, b, c, d)

/-- The columns of the state, then its diagonals. -/
def round (m : Vector UInt32 16) (r : Row) (s : State) : State :=
  let (a0, b0, c0, d0) := mix s.a0 s.b0 s.c0 s.d0 (r.word m 0) (r.word m 1)
  let (a1, b1, c1, d1) := mix s.a1 s.b1 s.c1 s.d1 (r.word m 2) (r.word m 3)
  let (a2, b2, c2, d2) := mix s.a2 s.b2 s.c2 s.d2 (r.word m 4) (r.word m 5)
  let (a3, b3, c3, d3) := mix s.a3 s.b3 s.c3 s.d3 (r.word m 6) (r.word m 7)
  let (a0, b1, c2, d3) := mix a0 b1 c2 d3 (r.word m 8) (r.word m 9)
  let (a1, b2, c3, d0) := mix a1 b2 c3 d0 (r.word m 10) (r.word m 11)
  let (a2, b3, c0, d1) := mix a2 b3 c0 d1 (r.word m 12) (r.word m 13)
  let (a3, b0, c1, d2) := mix a3 b0 c1 d2 (r.word m 14) (r.word m 15)
  ⟨a0, a1, a2, a3, b0, b1, b2, b3, c0, c1, c2, c3, d0, d1, d2, d3⟩

/-- Four bytes from an index on, the least significant one first. -/
@[inline] def wordAt (bytes : ByteArray) (i : Nat) : UInt32 :=
  (byteAt bytes i).toUInt32 ||| (byteAt bytes (i + 1)).toUInt32 <<< 8 |||
    (byteAt bytes (i + 2)).toUInt32 <<< 16 ||| (byteAt bytes (i + 3)).toUInt32 <<< 24

/-- The chain after a block whose last byte is the message's `count`-th. -/
def compress (h : Chain) (m : Vector UInt32 16) (count : UInt64) (last : Bool) : Chain :=
  let i := initial
  let start : State :=
    ⟨h.h0, h.h1, h.h2, h.h3, h.h4, h.h5, h.h6, h.h7, i.h0, i.h1, i.h2, i.h3,
      i.h4 ^^^ count.toUInt32, i.h5 ^^^ (count >>> 32).toUInt32,
      if last then i.h6 ^^^ 0xFFFFFFFF else i.h6, i.h7⟩
  let s := schedule.foldl (fun s row => round m row s) start
  ⟨h.h0 ^^^ s.a0 ^^^ s.c0, h.h1 ^^^ s.a1 ^^^ s.c1, h.h2 ^^^ s.a2 ^^^ s.c2,
    h.h3 ^^^ s.a3 ^^^ s.c3, h.h4 ^^^ s.b0 ^^^ s.d0, h.h5 ^^^ s.b1 ^^^ s.d1,
    h.h6 ^^^ s.b2 ^^^ s.d2, h.h7 ^^^ s.b3 ^^^ s.d3⟩

/-- The chain after the last `remaining` blocks of a message, from block `index` on. -/
def absorb (bytes : ByteArray) : Nat → Nat → Chain → Chain
  | 0, _, h => h
  | remaining + 1, index, h =>
    let m := Vector.ofFn fun k : Fin 16 => wordAt bytes (64 * index + 4 * k.val)
    let count := if remaining = 0 then bytes.size else 64 * (index + 1)
    absorb bytes remaining (index + 1) (compress h m count.toUInt64 (remaining = 0))

def digest (bytes : ByteArray) : Vector UInt8 32 :=
  let start := { initial with h0 := initial.h0 ^^^ 0x01010020 }
  let h := absorb bytes (blockCount 64 bytes.size) 0 start
  let words := #v[h.h0, h.h1, h.h2, h.h3, h.h4, h.h5, h.h6, h.h7]
  Vector.ofFn fun k : Fin 32 =>
    (words[k.val / 4] >>> (8 * (k.val % 4)).toUInt32).toUInt8

end ProofOfWork.Hash.Blake2s
