import ProofOfWork.Basic
import ProofOfWork.Digest
import ProofOfWork.Hash.Argon2d
import ProofOfWork.Hash.Blake2s
import ProofOfWork.Text.Basic
set_option autoImplicit false

namespace ProofOfWork

inductive HashAlgorithm where
  | blake2s
  | blake2b
  | argon2d
  deriving DecidableEq, Repr, Inhabited

namespace HashAlgorithm

def all : List HashAlgorithm := [.blake2s, .blake2b, .argon2d]

def name : HashAlgorithm → String
  | .blake2s => "blake2s"
  | .blake2b => "blake2b"
  | .argon2d => "argon2d"

/-- The name in the style of a type's alternatives. -/
def title : HashAlgorithm → String
  | .blake2s => "Blake2s"
  | .blake2b => "Blake2b"
  | .argon2d => "Argon2d"

/-- The algorithm of a name, in letters of either case. -/
def read (text : List Char) : Except Error HashAlgorithm :=
  match Text.namedAnyCase? all name text with
  | some algorithm => .ok algorithm
  | none => .error (.setting (.unknownAlgorithm (Text.lowerAscii text)))

/-- The digest of a message. A message that Argon2d does not take has the greatest digest, which is
above every target but the greatest. -/
def digestBytes : HashAlgorithm → ByteArray → Digest
  | .blake2s, message => ⟨⟨Hash.Blake2s.digest message⟩⟩
  | .blake2b, message => ⟨⟨Hash.Blake2b.digest Hash.Blake2b.half message⟩⟩
  | .argon2d, message =>
    if message.size > Hash.Argon2d.messageLimit then ⟨.max⟩
    else ⟨⟨Hash.Argon2d.digest message⟩⟩

/-- The longest message that can be hashed, if there is a limit. -/
def messageLimit? : HashAlgorithm → Option Nat
  | .argon2d => some Hash.Argon2d.messageLimit
  | _ => none

end HashAlgorithm

/-- The bytes that stand for data and a nonce. -/
def candidate (data : List UInt8) (nonce : Nonce) : List UInt8 := data ++ nonce.bytes

def nonceLength : Nat := 8

structure Hasher where
  algorithm : HashAlgorithm
  digest : List UInt8 → Nonce → Digest

namespace Hasher

def of (algorithm : HashAlgorithm) : Hasher where
  algorithm
  digest data nonce := algorithm.digestBytes ⟨(candidate data nonce).toArray⟩

instance : Inhabited Hasher := ⟨of .blake2s⟩

/-- Data that is too long for the algorithm is refused before anything is hashed. -/
def checkInput (h : Hasher) (data : List UInt8) : Except Error Unit :=
  match h.algorithm.messageLimit? with
  | none => .ok ()
  | some limit =>
    if data.length + nonceLength > limit then
      .error (.invalidInput (.longData (limit - nonceLength)))
    else .ok ()

end Hasher

namespace Payload
open Text

/-- The mark of a payload given by digits. -/
def hexMark : List Char := ['h', 'e', 'x', ':']

/-- The bytes that a text stands for. Blanks count: there are no digits among them. -/
def read (text : List Char) : Except Error (List UInt8) :=
  match dropStart? hexMark text with
  | none => .ok (Hex.utf8 text)
  | some digits =>
    match Hex.decode (Hex.utf8 digits) with
    | .ok bytes => .ok bytes
    | .error fault => .error (.invalidInput (.payloadDigits fault))

end Payload
end ProofOfWork
