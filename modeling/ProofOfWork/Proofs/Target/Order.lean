import Mathlib.Algebra.BigOperators.Fin
import ProofOfWork.Proofs.Word256
set_option autoImplicit false

namespace ProofOfWork
namespace Word256

theorem bigEndian_ofFn {count : Nat} (byte : Fin count → UInt8) :
    bigEndian (List.ofFn byte) = ∑ i, (byte i).toNat * 256 ^ (count - 1 - i.val) := by
  induction count with
  | zero => rfl
  | succ count ih =>
      have rest (i : Fin count) : count - i.succ.val = count - 1 - i.val := by
        rw [Fin.val_succ]
        omega
      rw [List.ofFn_succ, bigEndian_cons, ih, List.length_ofFn, Fin.sum_univ_succ]
      simp only [Nat.add_sub_cancel, rest, Fin.val_zero, Nat.sub_zero, Nat.mul_comm]

theorem value_eq_sum (w : Word256) :
    w.value = ∑ i : Fin 32, w.bytes[i].toNat * 256 ^ (31 - i.val) := by
  have bytes : w.bytes.toList = List.ofFn fun i : Fin 32 => w.bytes[i] := by
    rw [← Vector.toList_ofFn]
    exact congrArg Vector.toList Vector.ofFn_getElem.symm
  rw [value, bytes, bigEndian_ofFn]

theorem eq_iff {a b : Word256} : a = b ↔ a.value = b.value :=
  ⟨congrArg value, eq_of_value⟩

end Word256

/-- Digests and targets are compared byte by byte, and with that as the numbers of their bytes: a
target accepts the digests whose number is not above its own, and the orders and the equality of
digests and of targets are those of their numbers. -/
theorem ordered_as_numbers :
    (∀ w : Word256, w.value = ∑ i : Fin 32, w.bytes[i].toNat * 256 ^ (31 - i.val)) ∧
    (∀ (t : Target) (d : Digest), t.accepts d = true ↔ d.value ≤ t.value) ∧
    (∀ c d : Digest, compare c d = compare c.value d.value ∧ (c = d ↔ c.value = d.value)) ∧
    ∀ s t : Target, compare s t = compare s.value t.value ∧ (s = t ↔ s.value = t.value) := by
  refine ⟨Word256.value_eq_sum, Target.accepts_iff, fun c d => ⟨?_, ?_⟩, fun s t => ⟨?_, ?_⟩⟩
  · exact Word256.compare_eq c.word d.word
  · rw [Digest.mk.injEq, Word256.eq_iff]
    rfl
  · exact Word256.compare_eq s.word t.word
  · rw [Target.mk.injEq, Word256.eq_iff]
    rfl

end ProofOfWork
