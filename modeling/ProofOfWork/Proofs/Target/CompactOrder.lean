import ProofOfWork.Proofs.Target.Compact
set_option autoImplicit false

/-!
The order of compact words. A target is written in normal form: its mantissa keeps the bit
`0x00800000` clear and is at least `0x008000`, so the next size would leave it too short. Of two
targets the greater one has no smaller size, and on one grid no smaller mantissa; so words in normal
form are ordered as the targets are, and a target has one of them only.
-/
namespace ProofOfWork.Target

theorem toNat_parts (word : UInt32) : word.toNat = sizeOf word * 2 ^ 24 + mantissaOf word := by
  rw [sizeOf, mantissaOf]
  exact (Nat.div_add_mod' _ _).symm

section Grid
variable {s t : Target}

theorem mantissaAt_mono (le : s ≤ t) (size : Nat) : s.mantissaAt size ≤ t.mantissaAt size :=
  Nat.div_le_div_right (Nat.mul_le_mul_right _ (le_iff.mp le))

theorem mantissaAt_coarser (t : Target) {size other : Nat} (le : size ≤ other) :
    t.mantissaAt other ≤ t.mantissaAt size :=
  Nat.div_le_div_left (Nat.pow_le_pow_right (by decide) le) (Nat.pow_pos (by decide))

theorem onGrid_mul (t : Target) (size : Nat) :
    onGrid (t.mantissaAt size) size * 256 ^ 3 = t.mantissaAt size * 256 ^ size := by
  unfold onGrid
  apply Nat.div_mul_cancel
  rcases Nat.le_total 3 size with large | small
  · exact Nat.dvd_mul_left_of_dvd (Nat.pow_dvd_pow 256 large) _
  · have whole : 256 ^ size ∣ t.value * 256 ^ 3 :=
      Nat.dvd_mul_left_of_dvd (Nat.pow_dvd_pow 256 small) _
    rw [mantissaAt, Nat.div_mul_cancel whole]
    exact Nat.dvd_mul_left _ _

end Grid

/-- A word has the mantissa of the target on its grid, with the bit `0x00800000` clear and one of
the eight bits below it set. -/
structure Normal (t : Target) (word : UInt32) : Prop where
  mantissa : mantissaOf word = t.mantissaAt (sizeOf word)
  filled : 2 ^ 15 ≤ mantissaOf word
  clear : mantissaOf word < 2 ^ 23

theorem normal_compact {t : Target} (pos : 0 < t.value) : Normal t t.compact := by
  obtain ⟨mantissa, filled, clear, -⟩ := compact_parts pos
  exact ⟨mantissa, filled, clear⟩

section Normal
variable {s t : Target} {v w : UInt32}

/-- A size more would leave the mantissa of the smaller target below `2 ^ 15`. -/
theorem Normal.size_le (left : Normal s v) (right : Normal t w) (le : s ≤ t) :
    sizeOf v ≤ sizeOf w := by
  by_contra more
  have short : mantissaOf v ≤ mantissaOf w / 256 :=
    calc mantissaOf v = s.mantissaAt (sizeOf v) := left.mantissa
      _ ≤ t.mantissaAt (sizeOf v) := mantissaAt_mono le _
      _ ≤ t.mantissaAt (sizeOf w + 1) := t.mantissaAt_coarser (by omega)
      _ = mantissaOf w / 256 := by rw [mantissaAt_succ, right.mantissa]
  have filled := left.filled
  have clear := right.clear
  omega

theorem Normal.le (left : Normal s v) (right : Normal t w) (le : s ≤ t) : v ≤ w := by
  rw [UInt32.le_iff_toNat_le, toNat_parts, toNat_parts w]
  rcases Nat.lt_or_eq_of_le (left.size_le right le) with less | same
  · have bound := mantissaOf_lt v
    omega
  · have mantissas := mantissaAt_mono le (sizeOf w)
    rw [← right.mantissa, ← same, ← left.mantissa] at mantissas
    omega

/-- A target has one word in normal form, the one that is written. -/
theorem Normal.compact_eq (normal : Normal t w) : t.compact = w := by
  have bounds : 2 ^ 15 ≤ t.mantissaAt (sizeOf w) := normal.mantissa ▸ normal.filled
  have pos : 0 < t.value := by
    apply Nat.pos_of_ne_zero
    intro nothing
    rw [mantissaAt, nothing, Nat.zero_mul, Nat.zero_div] at bounds
    exact absurd bounds (by decide)
  have self : t ≤ t := le_iff.mpr (Nat.le_refl _)
  have written := normal_compact pos
  exact UInt32.le_antisymm (written.le normal self) (normal.le written self)

end Normal

theorem normal_of_ofCompact {t back : Target} (pos : 0 < t.value)
    (read : ofCompact t.compact = .ok back) : Normal back t.compact := by
  have normal := normal_compact pos
  refine ⟨?_, normal.filled, normal.clear⟩
  have same := onGrid_mul t (sizeOf t.compact)
  rw [← normal.mantissa] at same
  rw [mantissaAt, value_onGrid read, same, Nat.mul_div_cancel _ (Nat.pow_pos (by decide))]

theorem exists_ofCompact (t : Target) : ∃ back, ofCompact t.compact = .ok back := by
  rcases Nat.eq_zero_or_pos t.value with zero | pos
  · exact ⟨Target.zero, by rw [compact_zero zero, ofCompact_zero]⟩
  · have normal := normal_compact pos
    have below := (onGrid_mantissaAt (normal.mantissa ▸ normal.filled)).1
    rw [← normal.mantissa] at below
    have fits := Nat.lt_of_le_of_lt below t.word.value_lt
    exact ⟨_, by rw [ofCompact_eq, if_pos fits]⟩

theorem compact_mono {s t : Target} (le : s ≤ t) : s.compact ≤ t.compact := by
  rcases Nat.eq_zero_or_pos s.value with zero | pos
  · rw [compact_zero zero]
    exact UInt32.zero_le
  · have more : 0 < t.value := Nat.lt_of_lt_of_le pos (le_iff.mp le)
    exact (normal_compact pos).le (normal_compact more) le

/-- Words that are written are in normal form, are written again as they are when they are read, and
are ordered as the targets are. -/
theorem compact_canonical :
    (∀ t : Target, t ≠ zero →
      t.compact &&& compactSign = 0 ∧ 0x008000 ≤ t.compact &&& 0x00FFFFFF ∧
        1 ≤ (t.compact >>> 24).toNat ∧ (t.compact >>> 24).toNat ≤ 33) ∧
    (∀ t : Target, ∃ back, ofCompact t.compact = .ok back ∧ back.compact = t.compact) ∧
    ∀ s t : Target, s ≤ t → s.compact ≤ t.compact := by
  refine ⟨?_, ?_, fun s t => compact_mono⟩
  · intro t other
    have pos : 0 < t.value := Nat.pos_of_ne_zero fun nothing => other (eq_zero_iff.mpr nothing)
    obtain ⟨-, filled, clear, least, most⟩ := compact_parts pos
    rw [UInt32.le_iff_toNat_le, toNat_mantissa, toNat_size]
    exact ⟨(and_compactSign _).mpr clear, filled, least, most⟩
  · intro t
    obtain ⟨back, read⟩ := exists_ofCompact t
    refine ⟨back, read, ?_⟩
    rcases Nat.eq_zero_or_pos t.value with zero | pos
    · rw [compact_zero zero, ofCompact_zero] at read
      rw [← Except.ok.inj read, compact_zero zero, compact_zero value_zero]
    · exact (normal_of_ofCompact pos read).compact_eq

/-- The least byte with its highest bit set is written a size above its predecessor. -/
theorem compact_canonical_of_high_byte :
    (ofNat 0x80 ≠ zero ∧ (ofNat 0x80).compact &&& compactSign = 0 ∧
      (ofNat 0x80).compact = 0x02008000) ∧
    ofNat 0x7F ≤ ofNat 0x80 ∧ (ofNat 0x7F).compact = 0x017F0000 ∧
    (ofNat 0x7F).compact ≤ (ofNat 0x80).compact := by
  obtain ⟨normal, -, ordered⟩ := compact_canonical
  have other : ofNat 0x80 ≠ zero := by decide +kernel
  have le : ofNat 0x7F ≤ ofNat 0x80 := by
    rw [le_iff]
    decide +kernel
  exact ⟨⟨other, (normal _ other).1, by decide +kernel⟩, le, by decide +kernel, ordered _ _ le⟩

end ProofOfWork.Target
