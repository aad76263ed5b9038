import ProofOfWork.Basic
import ProofOfWork.Search.Basic
set_option autoImplicit false

namespace ProofOfWork

theorem Nonce.eq_of_toNat {m n : Nonce} (same : m.value.toNat = n.value.toNat) : m = n := by
  have values := UInt64.toNat_inj.mp same
  rwa [← Nonce.mk.injEq] at values

theorem add_toNat {a b : UInt64} (fits : a.toNat + b.toNat < 2 ^ 64) :
    (a + b).toNat = a.toNat + b.toNat := by
  rw [UInt64.toNat_add]
  exact Nat.mod_eq_of_lt fits

theorem one_le_toNat {a : UInt64} (apart : a ≠ 0) : 1 ≤ a.toNat :=
  Nat.pos_of_ne_zero fun zero => apart (UInt64.toNat_inj.mp zero)

namespace NonceRange

instance : Membership Nonce NonceRange where
  mem r n := r.first ≤ n.value ∧ n.value < r.stop

theorem mem_iff {r : NonceRange} {n : Nonce} :
    n ∈ r ↔ r.first.toNat ≤ n.value.toNat ∧ n.value.toNat < r.stop.toNat := by
  simp only [Membership.mem, UInt64.le_iff_toNat_le, UInt64.lt_iff_toNat_lt]

/-- The greatest number stays outside, so that a sum above it never wraps around. -/
@[simp] theorem stop_upTo (first count : UInt64) :
    (upTo first count).stop.toNat = min (first.toNat + count.toNat) (2 ^ 64 - 1) := by
  have low := first.toNat_lt
  have span : ((0xFFFFFFFFFFFFFFFF : UInt64) - first).toNat = 2 ^ 64 - 1 - first.toNat := by
    rw [UInt64.toNat_sub_of_le _ _ (by rw [UInt64.le_iff_toNat_le]; simp; omega)]
    simp
  unfold upTo
  split
  · rename_i inside
    rw [UInt64.le_iff_toNat_le, span] at inside
    simp only [UInt64.toNat_add]
    omega
  · rename_i outside
    rw [UInt64.le_iff_toNat_le, span] at outside
    simp only [UInt64.reduceToNat]
    omega

@[simp] theorem first_upTo (first count : UInt64) : (upTo first count).first = first := by
  unfold upTo
  split <;> rfl

theorem mem_upTo {first count : UInt64} {n : Nonce} :
    n ∈ upTo first count ↔
      first.toNat ≤ n.value.toNat ∧
        n.value.toNat < min (first.toNat + count.toNat) (2 ^ 64 - 1) := by
  simp [mem_iff]

theorem upTo_ordered (first count : UInt64) :
    (upTo first count).first.toNat ≤ (upTo first count).stop.toNat := by
  have low := first.toNat_lt
  rw [stop_upTo, first_upTo]
  omega

@[simp] theorem count_toNat (r : NonceRange) : r.count.toNat = r.stop.toNat - r.first.toNat := by
  unfold count
  split
  · rename_i below
    rw [UInt64.lt_iff_toNat_lt] at below
    rw [UInt64.toNat_sub_of_le _ _ (by rw [UInt64.le_iff_toNat_le]; omega)]
  · rename_i above
    rw [UInt64.lt_iff_toNat_lt] at above
    simp only [UInt64.toNat_zero]
    omega

/-- The first nonces of the range, in ascending order. -/
def leading (r : NonceRange) (count : Nat) : List Nonce :=
  (List.range count).map fun ahead => ⟨r.first + ahead.toUInt64⟩

theorem leading_succ (r : NonceRange) (count : Nat) :
    r.leading (count + 1) = r.leading count ++ [⟨r.first + count.toUInt64⟩] := by
  simp only [leading, List.range_succ, List.map_append, List.map_cons, List.map_nil]

theorem first_add_toNat {r : NonceRange} {ahead : Nat}
    (inside : r.first.toNat + ahead < 2 ^ 64) :
    (r.first + ahead.toUInt64).toNat = r.first.toNat + ahead := by
  have word : ahead.toUInt64.toNat = ahead :=
    UInt64.toNat_ofNat_of_lt' (by change ahead < 2 ^ 64; omega)
  rw [add_toNat (by rw [word]; exact inside), word]

theorem mem_leading {r : NonceRange} {count : Nat}
    (within : r.first.toNat + count ≤ r.stop.toNat) {n : Nonce} :
    n ∈ r.leading count ↔
      r.first.toNat ≤ n.value.toNat ∧ n.value.toNat < r.first.toNat + count := by
  have most := r.stop.toNat_lt
  simp only [leading, List.mem_map, List.mem_range]
  constructor
  · rintro ⟨ahead, below, rfl⟩
    rw [first_add_toNat (by omega)]
    omega
  · rintro ⟨low, high⟩
    refine ⟨n.value.toNat - r.first.toNat, by omega, ?_⟩
    apply Nonce.eq_of_toNat
    rw [first_add_toNat (by omega)]
    omega

@[simp]
theorem length_leading (r : NonceRange) (count : Nat) : (r.leading count).length = count := by
  simp only [leading, List.length_map, List.length_range]

theorem leading_nodup {r : NonceRange} {count : Nat}
    (within : r.first.toNat + count ≤ r.stop.toNat) : (r.leading count).Nodup := by
  have most := r.stop.toNat_lt
  induction count with
  | zero => exact List.nodup_nil
  | succ count ih =>
      rw [leading_succ, List.nodup_append]
      refine ⟨ih (by omega), List.pairwise_singleton _ _, ?_⟩
      intro n earlier m last same
      rw [List.mem_singleton] at last
      subst last
      subst same
      have before := ((mem_leading (by omega)).mp earlier).2
      dsimp only at before
      rw [first_add_toNat (by omega)] at before
      omega

/-- Ranges that follow each other without a gap, none of them empty. -/
inductive Adjoin : UInt64 → List NonceRange → UInt64 → Prop
  | nil (first : UInt64) : Adjoin first [] first
  | cons {r : NonceRange} {rest : List NonceRange} {stop : UInt64} (filled : r.first < r.stop)
      (tail : Adjoin r.stop rest stop) : Adjoin r.first (r :: rest) stop

theorem Adjoin.ordered {first stop : UInt64} {parts : List NonceRange}
    (adjoin : Adjoin first parts stop) : first.toNat ≤ stop.toNat := by
  induction adjoin with
  | nil => exact Nat.le_refl _
  | cons filled tail ih =>
      rw [UInt64.lt_iff_toNat_lt] at filled
      omega

theorem Adjoin.filled {first stop : UInt64} {parts : List NonceRange}
    (adjoin : Adjoin first parts stop) : ∀ part ∈ parts, part.first.toNat < part.stop.toNat := by
  induction adjoin with
  | nil => intro part member; cases member
  | cons filled tail ih =>
      intro part member
      rcases List.mem_cons.mp member with rfl | later
      · exact UInt64.lt_iff_toNat_lt.mp filled
      · exact ih part later

theorem Adjoin.first_le {first stop : UInt64} {parts : List NonceRange}
    (adjoin : Adjoin first parts stop) : ∀ part ∈ parts, first.toNat ≤ part.first.toNat := by
  induction adjoin with
  | nil => intro part member; cases member
  | cons filled tail ih =>
      intro part member
      rw [UInt64.lt_iff_toNat_lt] at filled
      rcases List.mem_cons.mp member with rfl | later
      · exact Nat.le_refl _
      · have := ih part later
        omega

theorem Adjoin.apart {first stop : UInt64} {parts : List NonceRange}
    (adjoin : Adjoin first parts stop) :
    parts.Pairwise fun before after => before.stop.toNat ≤ after.first.toNat := by
  induction adjoin with
  | nil => exact .nil
  | cons filled tail ih => exact List.pairwise_cons.mpr ⟨tail.first_le, ih⟩

theorem Adjoin.place_unique {first stop : UInt64} {parts : List NonceRange}
    (adjoin : Adjoin first parts stop) {place other : Nat} {r s : NonceRange} {n : Nonce}
    (here : parts[place]? = some r) (there : parts[other]? = some s) (inside : n ∈ r)
    (shared : n ∈ s) : place = other := by
  obtain ⟨below, rfl⟩ := List.getElem?_eq_some_iff.mp here
  obtain ⟨low, rfl⟩ := List.getElem?_eq_some_iff.mp there
  have apart := List.pairwise_iff_getElem.mp adjoin.apart
  rw [mem_iff] at inside shared
  rcases Nat.lt_trichotomy place other with before | same | after
  · have := apart place other below low before
    omega
  · exact same
  · have := apart other place low below after
    omega

theorem Adjoin.mem {first stop : UInt64} {parts : List NonceRange}
    (adjoin : Adjoin first parts stop) (n : Nonce) :
    (∃ part ∈ parts, n ∈ part) ↔ n ∈ (⟨first, stop⟩ : NonceRange) := by
  induction adjoin with
  | nil => simp only [List.not_mem_nil, false_and, exists_false, mem_iff, false_iff]; omega
  | @cons r rest stop filled tail ih =>
      have after := tail.ordered
      rw [UInt64.lt_iff_toNat_lt] at filled
      simp only [mem_iff] at ih ⊢
      constructor
      · rintro ⟨part, member, inside⟩
        rcases List.mem_cons.mp member with rfl | later
        · omega
        · have inside := ih.mp ⟨part, later, inside⟩
          omega
      · intro inside
        by_cases here : n.value.toNat < r.stop.toNat
        · exact ⟨r, List.mem_cons_self, inside.1, here⟩
        · obtain ⟨part, later, inside⟩ := ih.mpr ⟨by omega, inside.2⟩
          exact ⟨part, List.mem_cons_of_mem r later, inside⟩

theorem Adjoin.first_of_single {first stop : UInt64} {parts : List NonceRange}
    (adjoin : Adjoin first parts stop) (single : parts.length ≤ 1) {place : Nat} {r : NonceRange}
    (here : parts[place]? = some r) : r.first = first := by
  obtain ⟨below, rfl⟩ := List.getElem?_eq_some_iff.mp here
  have only : place = 0 := by omega
  subst only
  cases adjoin with
  | nil => cases here
  | cons filled tail => rfl

theorem Adjoin.after {first width stop : UInt64} {rest : List NonceRange}
    (filled : 0 < width.toNat) (fits : first.toNat + width.toNat < 2 ^ 64)
    (tail : Adjoin (first + width) rest stop) :
    Adjoin first (⟨first, first + width⟩ :: rest) stop := by
  have grows : first < first + width := by
    rw [UInt64.lt_iff_toNat_lt, add_toNat fits]
    omega
  exact .cons (r := ⟨first, first + width⟩) grows tail

theorem adjoining_adjoin (chunk : UInt64) (parts longer : Nat) (first : UInt64)
    (filled : 0 < chunk.toNat) (few : longer ≤ parts)
    (fits : first.toNat + (parts * chunk.toNat + longer) < 2 ^ 64) :
    Adjoin first (adjoining chunk parts longer first)
      (UInt64.ofNat (first.toNat + (parts * chunk.toNat + longer))) := by
  -- on the parts that are left, of which the longer ones come first
  induction parts generalizing longer first with
  | zero =>
      have even : longer = 0 := by omega
      subst even
      simp only [adjoining, Nat.zero_mul, Nat.add_zero, UInt64.ofNat_toNat]
      exact .nil first
  | succ parts ih =>
      rw [Nat.succ_mul] at fits ⊢
      cases longer with
      | zero =>
          have next := add_toNat (a := first) (b := chunk) (by omega)
          have rest := ih 0 (first + chunk) (by omega) (by omega)
          have same : (first + chunk).toNat + (parts * chunk.toNat + 0) =
              first.toNat + (parts * chunk.toNat + chunk.toNat + 0) := by omega
          rw [same] at rest
          exact rest.after filled (by omega)
      | succ longer =>
          have one : (chunk + 1).toNat = chunk.toNat + 1 :=
            add_toNat (by rw [UInt64.toNat_one]; omega)
          have next := add_toNat (a := first) (b := chunk + 1) (by omega)
          have rest := ih longer (first + (chunk + 1)) (by omega) (by omega)
          have same : (first + (chunk + 1)).toNat + (parts * chunk.toNat + longer) =
              first.toNat + (parts * chunk.toNat + chunk.toNat + (longer + 1)) := by omega
          rw [same] at rest
          exact rest.after (by omega) (by omega)

theorem length_adjoining (chunk : UInt64) (parts longer : Nat) (first : UInt64) :
    (adjoining chunk parts longer first).length = parts := by
  induction parts generalizing longer first with
  | zero => rfl
  | succ parts ih => cases longer <;> simp only [adjoining, List.length_cons, ih]

@[simp] theorem length_partition (r : NonceRange) (parts : Nat) :
    (r.partition parts).length = min parts (r.stop.toNat - r.first.toNat) := by
  rw [← r.count_toNat]
  unfold partition
  dsimp only
  split
  · rename_i nothing
    rw [nothing]
    rfl
  · exact length_adjoining _ _ _ _

theorem length_partition_le (r : NonceRange) (parts : Nat) :
    (r.partition parts).length ≤ parts := by
  rw [length_partition]
  exact Nat.min_le_left _ _

theorem count_division {r : NonceRange} {k : Nat} (filled : 0 < k) (atMost : k ≤ r.count.toNat) :
    0 < (r.count / k.toUInt64).toNat ∧ (r.count % k.toUInt64).toNat ≤ k ∧
      k * (r.count / k.toUInt64).toNat + (r.count % k.toUInt64).toNat = r.count.toNat := by
  have most := r.count.toNat_lt
  have word : k.toUInt64.toNat = k := UInt64.toNat_ofNat_of_lt' (by change k < 2 ^ 64; omega)
  rw [UInt64.toNat_div, UInt64.toNat_mod, word]
  exact ⟨Nat.div_pos atMost filled, Nat.le_of_lt (Nat.mod_lt _ filled), Nat.div_add_mod _ k⟩

theorem partition_adjoin {r : NonceRange} {parts : Nat}
    (ordered : r.first.toNat ≤ r.stop.toNat) (positive : 1 ≤ parts) :
    Adjoin r.first (r.partition parts) r.stop := by
  have length := r.count_toNat
  have most := r.stop.toNat_lt
  unfold partition
  dsimp only
  split
  · rename_i nothing
    have empty : r.first = r.stop := UInt64.toNat_inj.mp (by omega)
    rw [empty]
    exact .nil r.stop
  · rename_i several
    obtain ⟨filled, few, whole⟩ := count_division (r := r) (k := min parts r.count.toNat)
      (by omega) (by omega)
    have rest := adjoining_adjoin (r.count / (min parts r.count.toNat).toUInt64)
      (min parts r.count.toNat) (r.count % (min parts r.count.toNat).toUInt64).toNat r.first
      filled few (by rw [whole]; omega)
    have last : UInt64.ofNat (r.first.toNat + r.count.toNat) = r.stop := by
      rw [length, Nat.add_sub_cancel' ordered, UInt64.ofNat_toNat]
    rwa [whole, last] at rest

end NonceRange
end ProofOfWork
