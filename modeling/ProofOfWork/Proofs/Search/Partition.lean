import Mathlib.Data.List.Chain
import ProofOfWork.Proofs.Search.Range
set_option autoImplicit false

namespace ProofOfWork

def checkedAdd (a b : UInt64) : Option UInt64 :=
  if a.toNat + b.toNat < 2 ^ 64 then some (a + b) else none

theorem checkedAdd_eq {a b : UInt64} (fits : a.toNat + b.toNat < 2 ^ 64) :
    checkedAdd a b = some (a + b) := if_pos fits

namespace NonceRange

/-- The adjoining ranges, if no sum wraps around. -/
def adjoining? (chunk : UInt64) : (parts longer : Nat) → (first : UInt64) → Option (List NonceRange)
  | 0, _, _ => some []
  | parts + 1, longer, first => do
    let width ← checkedAdd chunk (if 0 < longer then 1 else 0)
    let stop ← checkedAdd first width
    let rest ← adjoining? chunk parts (longer - 1) stop
    return ⟨first, stop⟩ :: rest

/-- The parts of the range, if no sum wraps around. -/
def partition? (r : NonceRange) (parts : Nat) : Option (List NonceRange) :=
  let parts := min parts r.count.toNat
  if parts = 0 then some []
  else adjoining? (r.count / parts.toUInt64) parts (r.count % parts.toUInt64).toNat r.first

/-- What it means that ranges, in this order, split a range. -/
structure Split (r : NonceRange) (parts : List NonceRange) : Prop where
  filled : ∀ part ∈ parts, part.first < part.stop
  ascending : parts.Pairwise fun before after => before.stop ≤ after.first
  begins : parts.head?.map NonceRange.first = some r.first
  follows : parts.IsChain fun before after => after.first = before.stop
  ends : parts.getLast?.map NonceRange.stop = some r.stop
  even : ∀ part ∈ parts, ∀ other ∈ parts,
    part.stop.toNat - part.first.toNat ≤ other.stop.toNat - other.first.toNat + 1

section Adjoin
variable {first stop : UInt64} {parts : List NonceRange}

theorem Adjoin.head (adjoin : Adjoin first parts stop) (some_part : parts ≠ []) :
    parts.head?.map NonceRange.first = some first := by
  cases adjoin with
  | nil => exact absurd rfl some_part
  | cons filled tail => rfl

theorem Adjoin.eq_of_nil (adjoin : Adjoin first parts stop) (none_left : parts = []) :
    first = stop := by
  cases adjoin with
  | nil => rfl
  | cons filled tail => cases none_left

theorem Adjoin.follows (adjoin : Adjoin first parts stop) :
    parts.IsChain fun before after => after.first = before.stop := by
  induction adjoin with
  | nil => exact .nil
  | @cons r rest stop filled tail ih =>
      refine List.isChain_cons.mpr ⟨?_, ih⟩
      intro next found
      have some_part : rest ≠ [] := List.ne_nil_of_mem (List.mem_of_mem_head? found)
      have begins := tail.head some_part
      rw [Option.mem_def.mp found, Option.map_some, Option.some.injEq] at begins
      exact begins

theorem Adjoin.last (adjoin : Adjoin first parts stop) (some_part : parts ≠ []) :
    parts.getLast?.map NonceRange.stop = some stop := by
  induction adjoin with
  | nil => exact absurd rfl some_part
  | @cons r rest stop filled tail ih =>
      by_cases alone : rest = []
      · subst alone
        rw [List.getLast?_singleton, Option.map_some, tail.eq_of_nil rfl]
      · have later := ih alone
        rwa [List.getLast?_cons_of_ne_nil alone]

theorem Adjoin.split {r : NonceRange} (adjoin : Adjoin r.first parts r.stop)
    (some_part : parts ≠ []) {chunk : Nat}
    (widths : ∀ part ∈ parts, part.first.toNat + chunk ≤ part.stop.toNat ∧
      part.stop.toNat ≤ part.first.toNat + chunk + 1) : r.Split parts := by
  refine ⟨?_, ?_, adjoin.head some_part, adjoin.follows, adjoin.last some_part, ?_⟩
  · intro part member
    exact UInt64.lt_iff_toNat_lt.mpr (adjoin.filled part member)
  · exact adjoin.apart.imp fun before => UInt64.le_iff_toNat_le.mpr before
  · intro part member other among
    have wide := widths part member
    have narrow := widths other among
    omega

end Adjoin

def width (chunk : UInt64) (longer : Nat) : UInt64 := chunk + if 0 < longer then 1 else 0

theorem width_toNat {chunk : UInt64} {longer : Nat} (fits : chunk.toNat + min longer 1 < 2 ^ 64) :
    (width chunk longer).toNat = chunk.toNat + min longer 1 := by
  unfold width
  split
  · rw [add_toNat (by rw [UInt64.toNat_one]; omega), UInt64.toNat_one]
    omega
  · rw [add_toNat (by rw [UInt64.toNat_zero]; omega), UInt64.toNat_zero]
    omega

theorem adjoining_succ (chunk : UInt64) (parts longer : Nat) (first : UInt64) :
    adjoining chunk (parts + 1) longer first =
      ⟨first, first + width chunk longer⟩ ::
        adjoining chunk parts (longer - 1) (first + width chunk longer) := by
  cases longer with
  | zero => simp only [adjoining, width, Nat.lt_irrefl, if_false, UInt64.add_zero, Nat.zero_sub]
  | succ longer => simp only [adjoining, width, Nat.succ_pos, if_true, Nat.add_sub_cancel]

section
variable {chunk : UInt64} {parts longer : Nat} {first : UInt64}

theorem adjoining_step (few : longer ≤ parts + 1)
    (fits : first.toNat + ((parts + 1) * chunk.toNat + longer) < 2 ^ 64) :
    (width chunk longer).toNat = chunk.toNat + min longer 1 ∧
      (first + width chunk longer).toNat = first.toNat + (chunk.toNat + min longer 1) ∧
      longer - 1 ≤ parts ∧
      (first + width chunk longer).toNat + (parts * chunk.toNat + (longer - 1)) < 2 ^ 64 := by
  rw [Nat.succ_mul] at fits
  have wide : (width chunk longer).toNat = chunk.toNat + min longer 1 := width_toNat (by omega)
  have next := add_toNat (a := first) (b := width chunk longer) (by omega)
  omega

theorem adjoining_widths (few : longer ≤ parts)
    (fits : first.toNat + (parts * chunk.toNat + longer) < 2 ^ 64) :
    ∀ part ∈ adjoining chunk parts longer first,
      part.first.toNat + chunk.toNat ≤ part.stop.toNat ∧
        part.stop.toNat ≤ part.first.toNat + chunk.toNat + 1 := by
  induction parts generalizing longer first with
  | zero => intro part member; cases member
  | succ parts ih =>
      obtain ⟨-, next, less, within⟩ := adjoining_step few fits
      rw [adjoining_succ]
      intro part member
      rcases List.mem_cons.mp member with rfl | later
      · dsimp only
        omega
      · exact ih less within part later

/-- The sums grow up to the end of the last range, so if that is a word all of them are. -/
theorem adjoining?_eq (few : longer ≤ parts)
    (fits : first.toNat + (parts * chunk.toNat + longer) < 2 ^ 64) :
    adjoining? chunk parts longer first = some (adjoining chunk parts longer first) := by
  induction parts generalizing longer first with
  | zero => rfl
  | succ parts ih =>
      obtain ⟨wide, next, less, within⟩ := adjoining_step few fits
      have most := (first + width chunk longer).toNat_lt
      have length : checkedAdd chunk (if 0 < longer then 1 else 0) =
          some (width chunk longer) := by
        refine checkedAdd_eq ?_
        split <;> simp <;> omega
      have stop : checkedAdd first (width chunk longer) = some (first + width chunk longer) :=
        checkedAdd_eq (by omega)
      rw [adjoining_succ, adjoining?, length, Option.bind_eq_bind, Option.bind_some, stop,
        Option.bind_eq_bind, Option.bind_some, ih less within]
      rfl

end

theorem partition_filled {r : NonceRange} {parts : Nat} (filled : r.first < r.stop)
    (positive : 0 < parts) :
    ∃ (chunk : UInt64) (count longer : Nat), longer ≤ count ∧
      r.first.toNat + (count * chunk.toNat + longer) < 2 ^ 64 ∧
      r.partition parts = adjoining chunk count longer r.first ∧
      r.partition? parts = adjoining? chunk count longer r.first := by
  have length := r.count_toNat
  have most := r.stop.toNat_lt
  rw [UInt64.lt_iff_toNat_lt] at filled
  have several : min parts r.count.toNat ≠ 0 := by omega
  obtain ⟨-, few, whole⟩ := count_division (r := r) (k := min parts r.count.toNat)
    (by omega) (by omega)
  refine ⟨_, _, _, few, by rw [whole]; omega, ?_, ?_⟩
  · rw [partition]
    exact if_neg several
  · rw [partition?]
    exact if_neg several

/-- The parts split the range, as many as asked for if it has so many nonces, and all sums on the
way to them are words. -/
theorem partition_splits (r : NonceRange) (parts : Nat) :
    (r.stop ≤ r.first ∨ parts = 0 → r.partition parts = []) ∧
    (r.first < r.stop → 0 < parts →
      (r.partition parts).length = min parts (r.stop.toNat - r.first.toNat) ∧
      r.Split (r.partition parts)) ∧
    r.partition? parts = some (r.partition parts) := by
  have length := r.length_partition parts
  have count := r.count_toNat
  refine ⟨?_, ?_, ?_⟩
  · intro nothing
    rw [UInt64.le_iff_toNat_le] at nothing
    exact List.eq_nil_of_length_eq_zero (by omega)
  · intro filled positive
    obtain ⟨chunk, number, longer, few, fits, division, -⟩ := partition_filled filled positive
    rw [UInt64.lt_iff_toNat_lt] at filled
    have adjoin := partition_adjoin (Nat.le_of_lt filled) positive
    have widths := adjoining_widths few fits
    rw [← division] at widths
    exact ⟨length, adjoin.split (List.ne_nil_of_length_pos (by omega)) widths⟩
  · by_cases several : r.first < r.stop ∧ 0 < parts
    · obtain ⟨chunk, number, longer, few, fits, division, sums⟩ :=
        partition_filled several.1 several.2
      rw [division, sums, adjoining?_eq few fits]
    · rw [UInt64.lt_iff_toNat_lt] at several
      have nothing : min parts r.count.toNat = 0 := by omega
      simp only [partition, partition?, nothing, if_true]

/-- Ten nonces in front of the greatest one, in four parts. -/
theorem partition_splits_of_edge :
    (NonceRange.partition ⟨0xFFFFFFFFFFFFFFF5, 0xFFFFFFFFFFFFFFFF⟩ 4).length = 4 ∧
      (⟨0xFFFFFFFFFFFFFFF5, 0xFFFFFFFFFFFFFFFF⟩ : NonceRange).Split
        (NonceRange.partition ⟨0xFFFFFFFFFFFFFFF5, 0xFFFFFFFFFFFFFFFF⟩ 4) ∧
      NonceRange.partition ⟨7, 7⟩ 4 = [] := by
  obtain ⟨-, several, -⟩ := partition_splits ⟨0xFFFFFFFFFFFFFFF5, 0xFFFFFFFFFFFFFFFF⟩ 4
  obtain ⟨length, split⟩ := several (by decide) (by decide)
  obtain ⟨nothing, -⟩ := partition_splits ⟨7, 7⟩ 4
  exact ⟨length.trans (by decide), split, nothing (.inl (by decide))⟩

end NonceRange
end ProofOfWork
