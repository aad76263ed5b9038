import ProofOfWork.Target.Basic
set_option autoImplicit false

/-!
Compact words: a target in 32 bits, its length in bytes above its three most significant bytes. The
bit `0x00800000` is kept clear in writing and is an ordinary bit in reading.
-/
namespace ProofOfWork.Target

/-- The bit that is not set in a written word. -/
def compactSign : UInt32 := 0x00800000

/-- The three bytes of a mantissa, the least significant one first. -/
def mantissaBytes (word : UInt32) : List UInt8 :=
  [word.toUInt8, (word >>> 8).toUInt8, (word >>> 16).toUInt8]

/-- The target with the bytes `low` from the place `shift` on, counted from the least significant
byte; nothing if a byte other than zero has no place. -/
def placed? (shift : Nat) (low : List UInt8) : Option Target :=
  if (low.zipIdx shift).all fun (byte, place) => byte == 0 || place < 32 then
    some ⟨⟨Vector.ofFn fun i : Fin 32 =>
      let place := 31 - i.val
      if place < shift then 0 else low[place - shift]?.getD 0⟩⟩
  else none

/-- The target of a compact word. -/
def ofCompact (word : UInt32) : Except Error Target :=
  let size := (word >>> 24).toNat
  if size ≤ 3 then
    .ok (ofNat ((word.toNat % 2 ^ 24) / 256 ^ (3 - size)))
  else match placed? (size - 3) (mantissaBytes word) with
    | some target => .ok target
    | none => .error (.invalidTarget (.compactOverflow word))

/-- The compact word of a target; bytes after the third are dropped. -/
def compact (t : Target) : UInt32 :=
  let bytes := t.word.bytes.toList.dropWhile (· == 0)
  if bytes.isEmpty then 0
  else
    let size := bytes.length.toUInt32
    let mantissa := (Word256.bigEndian ((bytes ++ [0, 0, 0]).take 3)).toUInt32
    if mantissa &&& compactSign ≠ 0 then (size + 1) <<< 24 ||| mantissa >>> 8
    else size <<< 24 ||| mantissa

end ProofOfWork.Target
