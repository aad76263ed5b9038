import ProofOfWork.Hasher
import ProofOfWork.Target.Basic
set_option autoImplicit false

namespace ProofOfWork

inductive Verdict where
  | valid
  | digestMismatch
  | aboveTarget
  deriving DecidableEq, Repr, Inhabited

namespace Verdict

def all : List Verdict := [.valid, .digestMismatch, .aboveTarget]

def text : Verdict → String
  | .valid => "valid"
  | .digestMismatch => "digest mismatch"
  | .aboveTarget => "above target"

/-- The verdict as a name in documents. -/
def name : Verdict → String
  | .valid => "valid"
  | .digestMismatch => "digest-mismatch"
  | .aboveTarget => "above-target"

def isValid (v : Verdict) : Bool := v = .valid

/-- The verdict on the claim that `claimed` is an accepted digest of the data and the nonce. -/
def of (hasher : Hasher) (target : Target) (data : List UInt8) (nonce : Nonce)
    (claimed : Digest) : Verdict :=
  let digest := hasher.digest data nonce
  if digest ≠ claimed then .digestMismatch
  else if target.accepts digest then .valid
  else .aboveTarget

end Verdict
end ProofOfWork
