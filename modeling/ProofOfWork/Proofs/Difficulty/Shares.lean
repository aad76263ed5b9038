import ProofOfWork.Proofs.Decimal.Magnitude
import ProofOfWork.Proofs.Target.Difficulty
set_option autoImplicit false

namespace ProofOfWork.Difficulty
open Decimal

section Pruned
variable {x : Float}

def clampUnits (a : Int) : Int := max one (min a (10 ^ 15 * one : Nat))

theorem clampUnits_mono {a b : Int} (le : a ≤ b) : clampUnits a ≤ clampUnits b :=
  max_le_max_left _ (min_le_min_right _ le)

theorem units_pruned {a : Int} (units : (shape x).units = some a) :
    (shape (pruned ⟨x⟩).value).units = some (clampUnits a) := by
  have low := lt_iff units units_least
  have high := lt_iff units_greatest units
  have far : one ≤ 10 ^ 15 * one := Nat.le_mul_of_pos_left _ (by decide)
  rw [pruned, clampUnits]
  by_cases below : x < least
  · have under := low.mp below
    rw [if_pos below, units_least]
    congr 1
    omega
  · have enough := mt low.mpr below
    rw [if_neg below]
    by_cases above : x > greatest
    · have more := high.mp above
      rw [if_pos above, units_greatest]
      congr 1
      omega
    · have less := mt high.mpr above
      rw [if_neg above, units]
      congr 1
      omega

end Pruned

section Shares
variable {k k' s s' : Float}

def shareRate (k s : Float) : Float := 1000 * k * s

theorem ofShares_eq (k s : Float) :
    ofShares k s = if (shareRate k s / 65536).isFinite && shareRate k s / 65536 > least
      then pruned ⟨shareRate k s / 65536⟩ else ⟨least⟩ := rfl

/-- Without an overflow the difficulty is the documented one, moved between the bounds. -/
theorem units_ofShares {a : Int} (finite : (shareRate k s / 65536).isFinite = true)
    (units : (shape (shareRate k s / 65536)).units = some a) :
    (shape (ofShares k s).value).units = some (clampUnits a) := by
  rw [ofShares_eq, finite, Bool.true_and]
  by_cases above : shareRate k s / 65536 > least
  · rw [if_pos (decide_eq_true above)]
    exact units_pruned units
  · have less := mt (lt_iff units_least units).mpr above
    have far : one ≤ 10 ^ 15 * one := Nat.le_mul_of_pos_left _ (by decide)
    rw [if_neg (by simpa using above), units_least, clampUnits]
    congr 1
    omega

theorem ofShares_endless (endless : (shareRate k s).isFinite = false) : ofShares k s = ⟨least⟩ := by
  have quotient : (shareRate k s / 65536).isFinite = false := by
    by_contra finite
    rw [Bool.not_eq_false] at finite
    rw [isFinite_of_div finite] at endless
    cases endless
  rw [ofShares_eq, quotient]
  rfl

theorem least_bounded : Bounded least :=
  ⟨one, units_least, Nat.le_refl _, Nat.le_mul_of_pos_left _ (by decide)⟩

/-- Whatever is expected, also what is negative, infinite or not a number. -/
theorem ofShares_bounded (k s : Float) : Bounded (ofShares k s).value := by
  rw [ofShares_eq]
  split
  · rename_i above
    rw [Bool.and_eq_true, decide_eq_true_eq] at above
    exact pruned_bounded (number_of_lt above.2).2
  · exact least_bounded

theorem Bounded.bounds {d : Float} (bounded : Bounded d) : least ≤ d ∧ d ≤ greatest := by
  obtain ⟨n, units, low, high⟩ := bounded
  exact ⟨(le_iff units_least units).mpr (Int.ofNat_le.mpr low),
    (le_iff units units_greatest).mpr (Int.ofNat_le.mpr high)⟩

theorem Bounded.eq_least {d : Float} (bounded : Bounded d) (le : d ≤ least) : d = least := by
  obtain ⟨n, units, low, -⟩ := bounded
  have high : (n : Int) ≤ (one : Int) := (le_iff units units_least).mp le
  have same : n = one := by omega
  have inside := ones_lt_beyond (show 1 < 2 ^ 53 by decide)
  rw [Nat.one_mul] at inside
  rw [same] at units
  exact eq_of_units units units_least Decimal.one_pos inside

/-- More hashes and more shares make the product greater. -/
theorem shareRate_mono (least : 0 ≤ k) (le : k ≤ k') (finite : k'.isFinite = true)
    (least' : 0 ≤ s) (le' : s ≤ s') (finite' : s'.isFinite = true)
    (product : (shareRate k' s').isFinite = true) :
    0 ≤ shareRate k s ∧ shareRate k s ≤ shareRate k' s' := by
  have bits : 1000 < 2 ^ 53 := by decide
  obtain ⟨pos, hashes⟩ := mul_le_mul (ofNat_le (Nat.zero_le 1000) bits)
    (ofNat_le (Nat.le_refl 1000) bits) (isFinite_ofNat bits) least le finite
  exact mul_le_mul pos hashes (isFinite_of_mul product) least' le' finite'

theorem isFinite_share (least : 0 ≤ shareRate k s) (finite : (shareRate k s).isFinite = true) :
    (shareRate k s / 65536).isFinite = true :=
  isFinite_div (show 0 < 65536 by decide) (by decide) least finite

theorem ofShares_mono (least : 0 ≤ k) (le : k ≤ k') (finite : k'.isFinite = true)
    (least' : 0 ≤ s) (le' : s ≤ s') (finite' : s'.isFinite = true)
    (product : (shareRate k' s').isFinite = true) :
    (ofShares k s).value ≤ (ofShares k' s').value := by
  obtain ⟨pos, rates⟩ := shareRate_mono least le finite least' le' finite' product
  have bits : 65536 < 2 ^ 53 := by decide
  obtain ⟨-, quotients⟩ :=
    div_le_div pos rates product (ofNat_lt (by decide) bits) (isFinite_ofNat bits)
  obtain ⟨a, units⟩ := units_of_number (number_of_le quotients).1
  obtain ⟨b, units'⟩ := units_of_number (number_of_le quotients).2
  have lesser := units_ofShares (isFinite_share pos (isFinite_of_le pos rates product)) units
  have greater := units_ofShares (isFinite_share (float_le_trans pos rates) product) units'
  exact (le_iff lesser greater).mpr (clampUnits_mono ((le_iff units units').mp quotients))

/-- The difficulty of a share lies between the bounds. Of two miners, the one of whom no less is
expected has no lower difficulty exactly if its product is finite, or if the other has the least
difficulty anyway. -/
theorem ofShares_le_iff (k k' s s' : Float) :
    (1 ≤ (ofShares k s).value ∧ (ofShares k s).value ≤ 1e15) ∧
    (0 ≤ k → k ≤ k' → k'.isFinite = true → 0 ≤ s → s ≤ s' → s'.isFinite = true →
      ((ofShares k s).value ≤ (ofShares k' s').value ↔
        (1000 * k' * s').isFinite = true ∨ (ofShares k s).value = 1)) := by
  refine ⟨(ofShares_bounded k s).bounds, ?_⟩
  intro pos le finite pos' le' finite'
  constructor
  · intro lower
    cases product : (1000 * k' * s').isFinite with
    | true => exact .inl rfl
    | false =>
        rw [ofShares_endless product] at lower
        exact .inr ((ofShares_bounded k s).eq_least lower)
  · rintro (product | same)
    · exact ofShares_mono pos le finite pos' le' finite' product
    · rw [same]
      exact (ofShares_bounded k' s').bounds.1

theorem ofShares_le_of_twice : (ofShares 65536 1).value ≤ (ofShares 131072 2).value :=
  ((ofShares_le_iff 65536 131072 1 2).2 (ofNat_le (by decide) (by decide))
    (ofNat_le (by decide) (by decide)) (isFinite_ofNat (by decide))
    (ofNat_le (by decide) (by decide)) (ofNat_le (by decide) (by decide))
    (isFinite_ofNat (by decide))).mpr (.inl (by decide +kernel))

/-- A miner of ten times the hashes, whose exact difficulty is some fifteen thousand, falls to the
least one: the product of its hashes overflows before the few shares make it small. -/
theorem ofShares_falls :
    (0 : Float) ≤ 1e305 ∧ (1e305 : Float) ≤ 1e306 ∧ (1e306 : Float).isFinite = true ∧
      (0 : Float) ≤ 1e-300 ∧ (1e-300 : Float).isFinite = true ∧
      1500 < (ofShares 1e305 1e-300).value ∧ (ofShares 1e306 1e-300).value = 1 ∧
      ¬ (ofShares 1e305 1e-300).value ≤ (ofShares 1e306 1e-300).value := by
  decide +kernel

end Shares
end ProofOfWork.Difficulty
