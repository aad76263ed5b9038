import ProofOfWork.Document.Json.Read
import ProofOfWork.Proofs.Decimal.Text
set_option autoImplicit false

namespace ProofOfWork.Document.Json
open Decimal Text

/-! Digits that fit. -/

/-- A number with more digits after it. -/
def valueFrom (n : Nat) (ds : List Char) : Nat := ds.foldl (fun v c => 10 * v + digitValue c) n

theorem le_valueFrom (n : Nat) (ds : List Char) : n ≤ valueFrom n ds := by
  induction ds generalizing n with
  | nil => exact Nat.le_refl n
  | cons c ds ih =>
      have next : n ≤ 10 * n + digitValue c := by omega
      exact Nat.le_trans next (ih _)

theorem digitsValue_append (ds fs : List Char) :
    digitsValue (ds ++ fs) = valueFrom (digitsValue ds) fs := List.foldl_append

theorem gatherWhole_fits {n : Nat} {ds : List Char} (fits : valueFrom n ds < gatherLimit) :
    gatherWhole n ds = ⟨valueFrom n ds, 0⟩ := by
  induction ds generalizing n with
  | nil => rfl
  | cons c ds ih =>
      have next : 10 * n + digitValue c < gatherLimit := Nat.lt_of_le_of_lt (le_valueFrom _ ds) fits
      rw [gatherWhole, if_pos next, ih fits]
      rfl

theorem gatherFraction_fits {g : Gathered} {ds : List Char}
    (fits : valueFrom g.digits ds < gatherLimit) :
    gatherFraction g ds = ⟨valueFrom g.digits ds, g.power - ds.length⟩ := by
  induction ds generalizing g with
  | nil => simp [gatherFraction, valueFrom]
  | cons c ds ih =>
      have next : 10 * g.digits + digitValue c < gatherLimit :=
        Nat.lt_of_le_of_lt (le_valueFrom _ ds) fits
      rw [gatherFraction, if_pos next, ih fits]
      simp only [Gathered.mk.injEq, List.length_cons]
      exact ⟨rfl, by omega⟩

def exponentOf : Int → Exponent
  | .ofNat k => ⟨false, decimal k⟩
  | .negSucc k => ⟨true, decimal (k + 1)⟩

theorem realOf_exponent (g : Gathered) {power : Option Int}
    (near : ∀ k ∈ power, k.natAbs ≤ exponentLimit) :
    realOf? g (power.map exponentOf) =
      scaled? 8 (Float.ofNat g.digits) (g.power + power.getD 0) := by
  cases power with
  | none => simp [realOf?]
  | some k =>
      have within := near k rfl
      cases k with
      | ofNat k =>
          have few : ¬exponentLimit < k := Nat.not_lt.mpr within
          simp [realOf?, exponentOf, few]
      | negSucc k =>
          have few : ¬exponentLimit < k + 1 := Nat.not_lt.mpr within
          have power : g.power - ((k + 1 : Nat) : Int) = g.power + .negSucc k := by omega
          rw [Option.map_some, exponentOf, realOf?]
          simp only [digitsValue_decimal, few, if_false, if_true, power, Option.getD_some]

section Spellings
variable {p : Spelling}

theorem numberValue_spelling (negative : Bool) (fits : p.scaled.digits < gatherLimit)
    (near : ∀ k ∈ p.power, k.natAbs ≤ exponentLimit)
    (real : p.fraction.isSome = true ∨ p.power.isSome = true) {x : Float}
    (value : scaled? 8 (Float.ofNat p.scaled.digits) p.scaled.exponent = some x) :
    numberValue negative p.whole p.fraction (p.power.map exponentOf) =
      .real (if negative then -x else x) := by
  obtain ⟨whole, fraction, power⟩ := p
  have all : digitsValue whole ≤ digitsValue (whole ++ fraction.getD []) := by
    rw [digitsValue_append]
    exact le_valueFrom _ _
  have gathered : gatherWhole 0 whole = ⟨digitsValue whole, 0⟩ :=
    gatherWhole_fits (Nat.lt_of_le_of_lt all fits)
  unfold numberValue
  rw [gathered]
  cases fraction with
  | none =>
      cases power with
      | none => simp at real
      | some k =>
          have same : scaled? 8 (Float.ofNat (digitsValue whole)) (0 + k) = some x := by
            rw [Spelling.scaled, Option.getD_none, List.append_nil] at value
            simpa using value
          have read := (realOf_exponent ⟨digitsValue whole, 0⟩ near).trans same
          simp only [read]
          rfl
  | some ds =>
      have more : gatherFraction ⟨digitsValue whole, 0⟩ ds =
          ⟨digitsValue (whole ++ ds), 0 - ds.length⟩ := by
        rw [digitsValue_append]
        refine gatherFraction_fits (Nat.lt_of_le_of_lt (Nat.le_of_eq ?_) fits)
        exact (digitsValue_append whole ds).symm
      have same : scaled? 8 (Float.ofNat (digitsValue (whole ++ ds)))
          (0 - ds.length + power.getD 0) = some x := by
        rw [Int.zero_sub, Int.add_comm, ← Int.sub_eq_add_neg]
        exact value
      have read := (realOf_exponent ⟨digitsValue (whole ++ ds), 0 - ds.length⟩ near).trans same
      simp only [more, read]

end Spellings
end ProofOfWork.Document.Json
