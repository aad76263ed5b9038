import ProofOfWork.Decimal.Layout
import ProofOfWork.Proofs.Decimal.Binary64
set_option autoImplicit false

/-!
Rounding to binary64 numbers. A magnitude is a quotient in units of the least positive number, and
its grid is the power of two that leaves it 53 bits. Products, quotients and numbers written in
decimal are their exact values rounded to the grid.
-/
namespace ProofOfWork.Decimal
open Float.Model Float.Model.UnpackedFloat

/-! The nearest integer. -/

section Nearest
variable {n d : Nat}

/-- The integer nearest to a quotient lies within a half of it, and within less if it is odd. -/
theorem roundHalfEven_spec (pos : 0 < d) :
    2 * (roundHalfEven n d * d) ≤ 2 * n + d ∧ 2 * n ≤ 2 * (roundHalfEven n d * d) + d ∧
      (roundHalfEven n d % 2 = 1 →
        2 * (roundHalfEven n d * d) < 2 * n + d ∧ 2 * n < 2 * (roundHalfEven n d * d) + d) := by
  have split := Nat.div_add_mod' n d
  have rest := Nat.mod_lt n pos
  unfold roundHalfEven
  dsimp only
  by_cases up : 2 * (n % d) > d ∨ (2 * (n % d) = d ∧ n / d % 2 = 1)
  · rw [if_pos up, Nat.add_mul, Nat.one_mul]
    omega
  · rw [if_neg up]
    omega

theorem le_succ_of_near {a b : Nat} (low : 2 * (a * d) ≤ 2 * n + d)
    (high : 2 * n ≤ 2 * (b * d) + d) (pos : 0 < d) : a ≤ b + 1 := by
  have bound : a * d < (b + 2) * d := by
    rw [Nat.add_mul]
    omega
  exact Nat.le_of_lt_succ (Nat.lt_of_mul_lt_mul_right bound)

/-- Of two neighbours one is odd, and an odd one is not reached by a half. -/
theorem roundHalfEven_mono {n' d' : Nat} (pos : 0 < d) (pos' : 0 < d')
    (le : n * d' ≤ n' * d) : roundHalfEven n d ≤ roundHalfEven n' d' := by
  obtain ⟨low, -, odd⟩ := roundHalfEven_spec (n := n) pos
  obtain ⟨-, high, odd'⟩ := roundHalfEven_spec (n := n') pos'
  generalize roundHalfEven n d = a at low odd
  generalize roundHalfEven n' d' = b at high odd'
  have above : 2 * (a * (d * d')) ≤ 2 * (n * d') + d * d' :=
    calc 2 * (a * (d * d')) = 2 * (a * d) * d' := by ring
      _ ≤ (2 * n + d) * d' := Nat.mul_le_mul_right d' low
      _ = 2 * (n * d') + d * d' := by ring
  have below : 2 * (n' * d) ≤ 2 * (b * (d * d')) + d * d' :=
    calc 2 * (n' * d) = 2 * n' * d := by ring
      _ ≤ (2 * (b * d') + d') * d := Nat.mul_le_mul_right d high
      _ = 2 * (b * (d * d')) + d * d' := by ring
  have near : 2 * (n * d') ≤ 2 * (b * (d * d')) + d * d' := by omega
  have next := le_succ_of_near above near (Nat.mul_pos pos pos')
  by_contra more
  obtain rfl : a = b + 1 := by omega
  have unfolded : (b + 1) * (d * d') = b * (d * d') + d * d' := Nat.succ_mul _ _
  rcases Nat.mod_two_eq_zero_or_one b with even | odd_b
  · have strict := Nat.mul_lt_mul_of_pos_right (odd (by omega)).1 pos'
    have same : 2 * ((b + 1) * d) * d' = 2 * ((b + 1) * (d * d')) := by ring
    have same' : (2 * n + d) * d' = 2 * (n * d') + d * d' := by ring
    omega
  · have strict := Nat.mul_lt_mul_of_pos_right (odd' odd_b).2 pos
    have same : 2 * n' * d = 2 * (n' * d) := by ring
    have same' : (2 * (b * d') + d') * d = 2 * (b * (d * d')) + d * d' := by ring
    omega

theorem roundHalfEven_eq {a : Nat} (pos : 0 < d) (low : 2 * (a * d) ≤ 2 * n + d)
    (high : 2 * n ≤ 2 * (a * d) + d)
    (odd : a % 2 = 1 → 2 * (a * d) < 2 * n + d ∧ 2 * n < 2 * (a * d) + d) :
    roundHalfEven n d = a := by
  obtain ⟨low', high', odd'⟩ := roundHalfEven_spec (n := n) pos
  generalize roundHalfEven n d = b at low' high' odd'
  have most := le_succ_of_near low high' pos
  have least := le_succ_of_near low' high pos
  rcases Nat.lt_trichotomy b a with less | same | more
  · obtain rfl : a = b + 1 := by omega
    have unfolded : (b + 1) * d = b * d + d := Nat.succ_mul _ _
    omega
  · exact same
  · obtain rfl : b = a + 1 := by omega
    have unfolded : (a + 1) * d = a * d + d := Nat.succ_mul _ _
    omega

theorem roundHalfEven_of_quarters {a : Nat} (pos : 0 < d) (low : (4 * a - 2) * d ≤ 4 * n)
    (high : 4 * n ≤ (4 * a + 2) * d)
    (odd : a % 2 = 1 → (4 * a - 2) * d < 4 * n ∧ 4 * n < (4 * a + 2) * d) :
    roundHalfEven n d = a := by
  have least : 4 * (a * d) ≤ (4 * a - 2) * d + 2 * d := by
    rw [← Nat.add_mul, ← Nat.mul_assoc]
    exact Nat.mul_le_mul_right d (by omega)
  have most : (4 * a + 2) * d = 4 * (a * d) + 2 * d := by ring
  apply roundHalfEven_eq pos
  · omega
  · omega
  · intro odd_a
    obtain ⟨above, below⟩ := odd odd_a
    have exactly : (4 * a - 2) * d + 2 * d = 4 * (a * d) := by
      rw [← Nat.add_mul, ← Nat.mul_assoc]
      congr 1
      omega
    omega

theorem roundHalfEven_whole (a : Nat) (pos : 0 < d) : roundHalfEven (a * d) d = a :=
  roundHalfEven_eq pos (by omega) (by omega) (by omega)

end Nearest

/-! The grid of a magnitude. -/

/-- The places that the magnitude `n / d` loses when it keeps 53 bits. -/
def gridOf (n d : Nat) : Nat := (n / d).log2 - 52

/-- The magnitude `n / d` rounded to its grid. -/
def rounded (n d : Nat) : Nat := roundHalfEven n (d * 2 ^ gridOf n d) * 2 ^ gridOf n d

section Grid
variable {n d k : Nat}

theorem gridOf_high (pos : 0 < d) : n < d * 2 ^ (53 + gridOf n d) := by
  have below : n / d < 2 ^ (53 + gridOf n d) := by
    apply Nat.lt_of_lt_of_le (Nat.lt_log2_self (n := n / d))
    apply Nat.pow_le_pow_right (by decide)
    unfold gridOf
    omega
  rw [Nat.mul_comm]
  exact (Nat.div_lt_iff_lt_mul pos).mp below

theorem gridOf_low (pos : 0 < d) : gridOf n d = 0 ∨ d * 2 ^ (52 + gridOf n d) ≤ n := by
  by_cases short : (n / d).log2 ≤ 52
  · left
    unfold gridOf
    omega
  · right
    have some : n / d ≠ 0 := by
      intro zero
      rw [zero] at short
      exact short (by decide)
    have exponent : 52 + gridOf n d = (n / d).log2 := by
      unfold gridOf
      omega
    rw [exponent, Nat.mul_comm]
    exact (Nat.le_div_iff_mul_le pos).mp (Nat.log2_self_le some)

theorem pow_mul_lt {a b : Nat} (less : d * 2 ^ a < d * 2 ^ b) : a < b :=
  (Nat.pow_lt_pow_iff_right (by decide)).mp (Nat.lt_of_mul_lt_mul_left less)

theorem gridOf_eq (pos : 0 < d) (high : n < d * 2 ^ (53 + k))
    (low : k = 0 ∨ d * 2 ^ (52 + k) ≤ n) : gridOf n d = k := by
  apply Nat.le_antisymm
  · rcases gridOf_low (n := n) pos with zero | above
    · omega
    · have less := pow_mul_lt (Nat.lt_of_le_of_lt above high)
      omega
  · rcases low with zero | above
    · omega
    · have less := pow_mul_lt (Nat.lt_of_le_of_lt above (gridOf_high pos))
      omega

/-- At most 53 bits are left, or one more that is set alone. -/
theorem roundHalfEven_grid_le (pos : 0 < d) :
    roundHalfEven n (d * 2 ^ gridOf n d) ≤ 2 ^ 53 := by
  have unit : 0 < d * 2 ^ gridOf n d := Nat.mul_pos pos (Nat.two_pow_pos _)
  have below := gridOf_high (n := n) pos
  rw [Nat.pow_add, Nat.mul_comm (2 ^ 53), ← Nat.mul_assoc, Nat.mul_comm _ (2 ^ 53)] at below
  calc roundHalfEven n (d * 2 ^ gridOf n d)
      ≤ roundHalfEven (2 ^ 53 * (d * 2 ^ gridOf n d)) (d * 2 ^ gridOf n d) :=
        roundHalfEven_mono unit unit (Nat.mul_le_mul_right _ (Nat.le_of_lt below))
    _ = 2 ^ 53 := roundHalfEven_whole _ unit

/-- The leading bit is set if any place is lost. -/
theorem le_roundHalfEven_grid (pos : 0 < d) :
    gridOf n d = 0 ∨ 2 ^ 52 ≤ roundHalfEven n (d * 2 ^ gridOf n d) := by
  have unit : 0 < d * 2 ^ gridOf n d := Nat.mul_pos pos (Nat.two_pow_pos _)
  rcases gridOf_low (n := n) pos with zero | above
  · exact .inl zero
  · right
    rw [Nat.pow_add, Nat.mul_comm (2 ^ 52), ← Nat.mul_assoc, Nat.mul_comm _ (2 ^ 52)] at above
    calc 2 ^ 52
        = roundHalfEven (2 ^ 52 * (d * 2 ^ gridOf n d)) (d * 2 ^ gridOf n d) :=
          (roundHalfEven_whole _ unit).symm
      _ ≤ roundHalfEven n (d * 2 ^ gridOf n d) :=
          roundHalfEven_mono unit unit (Nat.mul_le_mul_right _ above)

theorem rounded_mono {n' d' : Nat} (pos : 0 < d) (pos' : 0 < d') (le : n * d' ≤ n' * d) :
    rounded n d ≤ rounded n' d' := by
  have grids : gridOf n d ≤ gridOf n' d' := by
    rcases gridOf_low (n := n) pos with zero | above
    · omega
    · have chain : d * d' * 2 ^ (52 + gridOf n d) < d * d' * 2 ^ (53 + gridOf n' d') :=
        calc d * d' * 2 ^ (52 + gridOf n d) = d * 2 ^ (52 + gridOf n d) * d' := by ring
          _ ≤ n * d' := Nat.mul_le_mul_right d' above
          _ ≤ n' * d := le
          _ < d' * 2 ^ (53 + gridOf n' d') * d := Nat.mul_lt_mul_of_pos_right (gridOf_high pos') pos
          _ = d * d' * 2 ^ (53 + gridOf n' d') := by ring
      have less := pow_mul_lt chain
      omega
  unfold rounded
  rcases Nat.eq_or_lt_of_le grids with same | coarser
  · rw [← same]
    apply Nat.mul_le_mul_right
    apply roundHalfEven_mono (Nat.mul_pos pos (Nat.two_pow_pos _))
      (Nat.mul_pos pos' (Nat.two_pow_pos _))
    rw [← Nat.mul_assoc, ← Nat.mul_assoc]
    exact Nat.mul_le_mul_right _ le
  · have leading : 2 ^ 52 ≤ roundHalfEven n' (d' * 2 ^ gridOf n' d') :=
      (le_roundHalfEven_grid pos').resolve_left (by omega)
    calc roundHalfEven n (d * 2 ^ gridOf n d) * 2 ^ gridOf n d
        ≤ 2 ^ 53 * 2 ^ gridOf n d := Nat.mul_le_mul_right _ (roundHalfEven_grid_le pos)
      _ = 2 ^ 52 * 2 ^ (gridOf n d + 1) := by ring
      _ ≤ 2 ^ 52 * 2 ^ gridOf n' d' :=
          Nat.mul_le_mul_left _ (Nat.pow_le_pow_right (by decide) coarser)
      _ ≤ roundHalfEven n' (d' * 2 ^ gridOf n' d') * 2 ^ gridOf n' d' :=
          Nat.mul_le_mul_right _ leading

theorem rounded_congr {n' d' : Nat} (pos : 0 < d) (pos' : 0 < d') (same : n * d' = n' * d) :
    rounded n d = rounded n' d' :=
  Nat.le_antisymm (rounded_mono pos pos' (Nat.le_of_eq same))
    (rounded_mono pos' pos (Nat.le_of_eq same.symm))

/-- A magnitude of at least 53 bits is rounded by at most one part in `2 ^ 53`. -/
theorem rounded_near (pos : 0 < d) (normal : 2 ^ 52 * d ≤ n) :
    2 ^ 53 * (rounded n d * d) ≤ 2 ^ 53 * n + n ∧
      2 ^ 53 * n ≤ 2 ^ 53 * (rounded n d * d) + n := by
  have unit : 0 < d * 2 ^ gridOf n d := Nat.mul_pos pos (Nat.two_pow_pos _)
  obtain ⟨above, below, -⟩ := roundHalfEven_spec (n := n) unit
  have grid : 2 ^ 52 * (d * 2 ^ gridOf n d) ≤ n := by
    rcases gridOf_low (n := n) pos with zero | low
    · rw [zero, Nat.pow_zero, Nat.mul_one]
      exact normal
    · rwa [Nat.pow_add, Nat.mul_left_comm] at low
  have same : rounded n d * d =
      roundHalfEven n (d * 2 ^ gridOf n d) * (d * 2 ^ gridOf n d) := by
    unfold rounded
    ring
  rw [same]
  omega

/-- A quarter of the grid below its first number the magnitudes have the next finer grid. -/
theorem rounded_under {j : Nat} (pos : 0 < d)
    (low : (4 * 2 ^ 52 - 1) * (2 ^ (j + 1) * d) ≤ 4 * n)
    (below : n < 2 ^ 52 * (2 ^ (j + 1) * d)) : rounded n d = 2 ^ 52 * 2 ^ (j + 1) := by
  have double : 2 ^ (j + 1) * d = 2 * (d * 2 ^ j) := by ring
  rw [double] at low below
  have grid : gridOf n d = j := by
    apply gridOf_eq pos
    · have wide : d * 2 ^ (53 + j) = 2 ^ 53 * (d * 2 ^ j) := by ring
      omega
    · have wide : d * 2 ^ (52 + j) = 2 ^ 52 * (d * 2 ^ j) := by ring
      omega
  have whole : roundHalfEven n (d * 2 ^ j) = 2 ^ 53 := by
    apply roundHalfEven_eq (Nat.mul_pos pos (Nat.two_pow_pos _)) <;> omega
  rw [rounded, grid, whole, Nat.pow_succ]
  ring

/-- Within a half of the grid `k`, and not below its first number, a magnitude has this grid. -/
theorem rounded_within {m : Nat} (pos : 0 < d) (bits : m < 2 ^ 53) (leading : 2 ^ 52 ≤ m ∨ k = 0)
    (first : m = 2 ^ 52 → 0 < k → m * (2 ^ k * d) ≤ n)
    (low : (4 * m - 2) * (2 ^ k * d) ≤ 4 * n) (high : 4 * n ≤ (4 * m + 2) * (2 ^ k * d))
    (odd : m % 2 = 1 → (4 * m - 2) * (2 ^ k * d) < 4 * n ∧ 4 * n < (4 * m + 2) * (2 ^ k * d)) :
    rounded n d = m * 2 ^ k := by
  have grid : gridOf n d = k := by
    apply gridOf_eq pos
    · have wide : d * 2 ^ (53 + k) = 2 ^ 53 * (2 ^ k * d) := by ring
      have most : (4 * m + 2) * (2 ^ k * d) ≤ (4 * 2 ^ 53 - 2) * (2 ^ k * d) :=
        Nat.mul_le_mul_right _ (by omega)
      have unit : 0 < 2 ^ k * d := Nat.mul_pos (Nat.two_pow_pos _) pos
      omega
    · have wide : d * 2 ^ (52 + k) = 2 ^ 52 * (2 ^ k * d) := by ring
      rcases Nat.eq_zero_or_pos k with zero | some
      · exact .inl zero
      · right
        have set := leading.resolve_right (by omega)
        rcases Nat.eq_or_lt_of_le set with rfl | more
        · rw [wide]
          exact first rfl some
        · have least : (4 * 2 ^ 52) * (2 ^ k * d) ≤ (4 * m - 2) * (2 ^ k * d) :=
            Nat.mul_le_mul_right _ (by omega)
          omega
  have whole : roundHalfEven n (d * 2 ^ k) = m := by
    rw [Nat.mul_comm d]
    exact roundHalfEven_of_quarters (Nat.mul_pos (Nat.two_pow_pos _) pos) low high odd
  rw [rounded, grid, whole]

/-- What is rounded to `m * 2 ^ k`: what lies within a half of the grid, and below the first number of
a grid only what lies within a quarter of it. A bound is rounded to it if `m` is even. -/
theorem rounded_eq {m : Nat} (pos : 0 < d) (bits : m < 2 ^ 53) (leading : 2 ^ 52 ≤ m ∨ k = 0)
    (low : (4 * m - if m = 2 ^ 52 ∧ 0 < k then 1 else 2) * (2 ^ k * d) ≤ 4 * n)
    (high : 4 * n ≤ (4 * m + 2) * (2 ^ k * d))
    (odd : m % 2 = 1 → (4 * m - 2) * (2 ^ k * d) < 4 * n ∧ 4 * n < (4 * m + 2) * (2 ^ k * d)) :
    rounded n d = m * 2 ^ k := by
  by_cases below : m = 2 ^ 52 ∧ 0 < k ∧ n < m * (2 ^ k * d)
  · obtain ⟨rfl, some, below⟩ := below
    obtain ⟨j, rfl⟩ := Nat.exists_eq_succ_of_ne_zero (Nat.ne_of_gt some)
    rw [if_pos ⟨rfl, some⟩] at low
    exact rounded_under pos low below
  · have first : m = 2 ^ 52 → 0 < k → m * (2 ^ k * d) ≤ n := by
      intro least some
      exact Nat.le_of_not_lt fun less => below ⟨least, some, less⟩
    refine rounded_within pos bits leading first ?_ high odd
    by_cases bounded : m = 2 ^ 52 ∧ 0 < k
    · have above := first bounded.1 bounded.2
      have less : (4 * m - 2) * (2 ^ k * d) ≤ 4 * m * (2 ^ k * d) :=
        Nat.mul_le_mul_right _ (Nat.sub_le _ _)
      rw [Nat.mul_assoc] at less
      omega
    · rw [if_neg bounded] at low
      exact low

end Grid

/-! Magnitudes as numbers. -/

/-- The number of a magnitude that lies on its grid; infinity beyond the greatest finite number. -/
def Shape.ofUnits (negative : Bool) (n : Nat) : Shape :=
  if beyond ≤ n then .infinite negative
  else .finite negative (n / 2 ^ gridOf n 1) (Int.ofNat (gridOf n 1) - 1074)

section Units
variable {m : Nat} {e : Int}

theorem gridOf_magnitude (bits : m < 2 ^ 53) (leading : 2 ^ 52 ≤ m ∨ e = -1074) :
    gridOf (magnitude m e) 1 = (e + 1074).toNat := by
  unfold magnitude
  apply gridOf_eq Nat.one_pos
  · rw [Nat.one_mul, Nat.pow_add]
    exact Nat.mul_lt_mul_of_pos_right bits (Nat.two_pow_pos _)
  · rcases leading with set | rfl
    · right
      rw [Nat.one_mul, Nat.pow_add]
      exact Nat.mul_le_mul_right _ set
    · exact .inl rfl

@[simp] theorem ofUnits_magnitude (negative : Bool) (canonical : Canonical m e) :
    Shape.ofUnits negative (magnitude m e) = .finite negative m e := by
  have grid := gridOf_magnitude canonical.bits canonical.leading
  have least := canonical.least
  rw [Shape.ofUnits, if_neg (Nat.not_le.mpr (magnitude_lt_beyond canonical)), grid, magnitude,
    Nat.mul_div_cancel _ (Nat.two_pow_pos _), Int.ofNat_eq_natCast]
  congr 1
  omega

theorem beyond_le_magnitude (leading : 2 ^ 52 ≤ m) (far : 971 < e) : beyond ≤ magnitude m e := by
  have power : (971 + 1074 : Int).toNat + 1 ≤ (e + 1074).toNat := by omega
  calc beyond = 2 ^ 52 * 2 ^ ((971 + 1074 : Int).toNat + 1) := by
        rw [beyond, magnitude, Nat.pow_succ]
        omega
    _ ≤ 2 ^ 52 * 2 ^ (e + 1074).toNat :=
        Nat.mul_le_mul_left _ (Nat.pow_le_pow_right (by decide) power)
    _ ≤ magnitude m e := Nat.mul_le_mul_right _ leading

theorem shape_pack_subnormal (s : Sign) (pos : 0 < m) (bits : m < 2 ^ 52) :
    shape (.ofModel (.pack (.finite s m (-1074) pos))) = .finite (isNegative s) m (-1074) := by
  have log : m.log2 < 52 := (Nat.log2_lt (Nat.ne_of_gt pos)).mpr bits
  have bias : ((-1074 : Int) + (Format.binary64.exponentBias : Nat) + (52 : Nat)).toNat = 1 := rfl
  have width : ¬ m.log2 + 1 = Format.binary64.mantissaBits := by
    have value : Format.binary64.mantissaBits = 53 := rfl
    omega
  have few : ¬ 2 ^ 11 ≤ 1 + 1 := by decide
  have packed : UnpackedFloat.pack Format.binary64 (.finite s m (-1074) pos) =
      packComponents Format.binary64 s 0#11 (BitVec.ofNat 52 m) := by
    simp only [UnpackedFloat.pack, bias, few, width, if_false]
  rw [shape_pack, packed, unpack_packComponents, if_neg (by decide), if_pos rfl, BitVec.toNat_ofNat,
    Nat.mod_eq_of_lt bits]

theorem shape_pack_infinite (s : Sign) (pos : 0 < m) (far : 971 < e) :
    shape (.ofModel (.pack (.finite s m e pos))) = .infinite (isNegative s) := by
  have full : 2 ^ 11 ≤ (e + (Format.binary64.exponentBias : Nat) + (52 : Nat)).toNat + 1 := by
    have value : Format.binary64.exponentBias = 1023 := rfl
    omega
  rw [shape_pack]
  simp only [UnpackedFloat.pack, full, if_true, shape_packedInfinity]

theorem shape_pack_finite (s : Sign) (pos : 0 < m) (bits : m < 2 ^ 53) (least : -1074 ≤ e)
    (leading : 2 ^ 52 ≤ m ∨ e = -1074) :
    shape (.ofModel (.pack (.finite s m e pos))) = .ofUnits (isNegative s) (magnitude m e) := by
  by_cases most : e ≤ 971
  · rw [ofUnits_magnitude _ ⟨bits, least, most, leading⟩]
    by_cases set : 2 ^ 52 ≤ m
    · exact shape_pack_normal s pos set bits least most
    · obtain rfl := leading.resolve_left set
      exact shape_pack_subnormal s pos (Nat.lt_of_not_le set)
  · have set := leading.resolve_right (by omega)
    rw [shape_pack_infinite s pos (by omega), Shape.ofUnits,
      if_pos (beyond_le_magnitude set (by omega))]

@[simp] theorem shape_pack_zero (s : Sign) :
    shape (.ofModel (.pack (.zero s))) = .ofUnits (isNegative s) 0 := by
  have nothing : magnitude 0 (-1074) = 0 := Nat.zero_mul _
  rw [shape_pack, UnpackedFloat.pack, shape_packedZero, ← nothing,
    ofUnits_magnitude _ ⟨by decide, by decide, by decide, .inr rfl⟩, nothing]

end Units

/-! The bits behind a mantissa tell on which side of the middle the quotient lies. -/

/-- The integer part of a quotient and the bits that decide how it is rounded. -/
def extendedQuotient (n d : Nat) : ExtendedMantissa :=
  ⟨n / d, decide (2 * n / d % 2 = 1), decide (2 * n % d ≠ 0)⟩

section Extended
variable {n d : Nat}

theorem doubled_quotient (pos : 0 < d) :
    2 * (n % d) < d ∧ 2 * n / d = 2 * (n / d) ∧ 2 * n % d = 2 * (n % d) ∨
      d ≤ 2 * (n % d) ∧ 2 * n / d = 2 * (n / d) + 1 ∧ 2 * n % d = 2 * (n % d) - d := by
  have split := Nat.div_add_mod n d
  have rest := Nat.mod_lt n pos
  rcases Nat.lt_or_ge (2 * (n % d)) d with low | high
  · left
    refine ⟨low, (Nat.div_mod_unique pos).mpr ⟨?_, low⟩⟩
    rw [Nat.mul_left_comm]
    omega
  · right
    refine ⟨high, (Nat.div_mod_unique pos).mpr ⟨?_, by omega⟩⟩
    rw [Nat.mul_add, Nat.mul_left_comm]
    omega

theorem extendedQuotient_cases (pos : 0 < d) :
    2 * (n % d) < d ∧ extendedQuotient n d = ⟨n / d, false, decide (n % d ≠ 0)⟩ ∨
      2 * (n % d) = d ∧ extendedQuotient n d = ⟨n / d, true, false⟩ ∨
      d < 2 * (n % d) ∧ extendedQuotient n d = ⟨n / d, true, true⟩ := by
  have even : decide (2 * (n / d) % 2 = 1) = false := decide_eq_false (by omega)
  have odd : decide ((2 * (n / d) + 1) % 2 = 1) = true := decide_eq_true (by omega)
  unfold extendedQuotient
  rcases doubled_quotient (n := n) pos with ⟨low, quotient, rest⟩ | ⟨high, quotient, rest⟩
  · left
    have bit : decide (2 * (n % d) ≠ 0) = decide (n % d ≠ 0) := decide_eq_decide.mpr (by omega)
    rw [quotient, rest, even, bit]
    exact ⟨low, rfl⟩
  · right
    rw [quotient, rest, odd]
    rcases Nat.eq_or_lt_of_le high with tie | above
    · have bit : decide (2 * (n % d) - d ≠ 0) = false := decide_eq_false (by omega)
      rw [bit]
      exact .inl ⟨tie.symm, rfl⟩
    · have bit : decide (2 * (n % d) - d ≠ 0) = true := decide_eq_true (by omega)
      rw [bit]
      exact .inr ⟨above, rfl⟩

theorem roundedMantissa_extendedQuotient (pos : 0 < d) :
    (extendedQuotient n d).roundedMantissa = roundHalfEven n d := by
  unfold roundHalfEven
  dsimp only
  rcases extendedQuotient_cases (n := n) pos with ⟨low, bits⟩ | ⟨tie, bits⟩ | ⟨high, bits⟩
  · rw [bits, if_neg (by omega)]
    cases decide (n % d ≠ 0) <;> rfl
  · rw [bits]
    change n / d + n / d % 2 = _
    split <;> omega
  · rw [bits, if_pos (.inl high)]
    rfl

theorem extendedQuotient_accuracy (pos : 0 < d) :
    ExtendedMantissa.ofMantissaAndAccuracy (n / d) (accuracyOfFraction (n % d) d) =
      extendedQuotient n d := by
  unfold accuracyOfFraction
  rcases extendedQuotient_cases (n := n) pos with ⟨low, bits⟩ | ⟨tie, bits⟩ | ⟨high, bits⟩
  · rw [bits]
    by_cases zero : n % d = 0
    · rw [if_pos zero, decide_eq_false (not_not_intro zero)]
      rfl
    · rw [if_neg zero, decide_eq_true zero, Nat.compare_eq_lt.mpr low]
      rfl
  · rw [bits, if_neg (by omega), Nat.compare_eq_eq.mpr tie]
    rfl
  · rw [bits, if_neg (by omega), Nat.compare_eq_gt.mpr high]
    rfl

theorem extendedQuotient_shiftOne (pos : 0 < d) :
    (extendedQuotient n d).shiftRightOne = extendedQuotient n (d * 2) := by
  have whole : n / (d * 2) = n / d / 2 := (Nat.div_div_eq_div_mul n d 2).symm
  have half : 2 * n / (d * 2) = n / d := by
    rw [Nat.mul_comm d 2]
    exact Nat.mul_div_mul_left n d (by decide)
  have rest : 2 * n % (d * 2) = 2 * (n % d) := by
    rw [Nat.mul_comm d 2]
    exact Nat.mul_mod_mul_left 2 n d
  have bit : (n / d % 2 != 0) = decide (n / d % 2 = 1) := by
    rcases Nat.mod_two_eq_zero_or_one (n / d) with even | odd
    · rw [even]
      rfl
    · rw [odd]
      rfl
  have sticky : (decide (2 * n / d % 2 = 1) || decide (2 * n % d ≠ 0)) =
      decide (2 * (n % d) ≠ 0) := by
    rw [← Bool.decide_or]
    apply decide_eq_decide.mpr
    rcases doubled_quotient (n := n) pos with ⟨low, quotient, rest⟩ | ⟨high, quotient, rest⟩
    · omega
    · omega
  unfold extendedQuotient ExtendedMantissa.shiftRightOne
  rw [whole, half, rest, bit, sticky]

theorem extendedQuotient_shift (pos : 0 < d) (k : Nat) :
    extendedQuotient n d >>> k = extendedQuotient n (d * 2 ^ k) := by
  induction k with
  | zero =>
      rw [Nat.pow_zero, Nat.mul_one]
      rfl
  | succ k ih =>
      change (extendedQuotient n d >>> k).shiftRightOne = _
      rw [ih, extendedQuotient_shiftOne (Nat.mul_pos pos (Nat.two_pow_pos k)), Nat.pow_succ,
        Nat.mul_assoc]

end Extended

/-! Rounding a quotient to a number. -/

section Round
variable {n d : Nat} {e : Int}

theorem roundHalfEven_congr {n' d' : Nat} (pos : 0 < d) (pos' : 0 < d')
    (same : n * d' = n' * d) : roundHalfEven n d = roundHalfEven n' d' :=
  Nat.le_antisymm (roundHalfEven_mono pos pos' (Nat.le_of_eq same))
    (roundHalfEven_mono pos' pos (Nat.le_of_eq same.symm))

theorem shift_settled {r : Nat} {t : Int} (bits : r < 2 ^ 53) (least : -1074 ≤ t) :
    shiftToTargetExponent Format.binary64 r t .exact = (⟨r, false, false⟩, t) := by
  have log : r.log2 < 53 := by
    rcases Nat.eq_zero_or_pos r with rfl | pos
    · decide
    · exact (Nat.log2_lt (Nat.ne_of_gt pos)).mpr bits
  have amount : (max ((r.log2 : Int) + t - 52) (-1074) - t).toNat = 0 := by omega
  rw [shiftToTargetExponent, targetExponent_eq]
  simp only [shiftToExponent, amount, Int.natCast_zero, Int.add_zero]
  rfl

theorem shift_carried {t : Int} (least : -1074 ≤ t) :
    shiftToTargetExponent Format.binary64 (2 ^ 53) t .exact = (⟨2 ^ 52, false, false⟩, t + 1) := by
  have log : (2 ^ 53).log2 = 53 := by decide
  have amount : (max (((2 ^ 53).log2 : Int) + t - 52) (-1074) - t).toNat = 1 := by
    rw [log]
    omega
  have shifted : ExtendedMantissa.ofMantissaAndAccuracy (2 ^ 53) .exact >>> 1 =
      ⟨2 ^ 52, false, false⟩ := rfl
  rw [shiftToTargetExponent, targetExponent_eq]
  simp only [shiftToExponent, amount, shifted]
  rfl

/-- A rounded mantissa is packed after one more shift if it has been carried into a new bit. -/
theorem shape_settled (s : Sign) {r : Nat} {t : Int} (bits : r ≤ 2 ^ 53) (least : -1074 ≤ t)
    (leading : 2 ^ 52 ≤ r ∨ t = -1074) :
    let settled := shiftToTargetExponent Format.binary64 r t .exact
    shape (.ofModel (.pack (if h : settled.1.mantissa = 0 then .zero s
      else .finite s settled.1.mantissa settled.2 (Nat.pos_of_ne_zero h)))) =
      .ofUnits (isNegative s) (magnitude r t) := by
  rcases Nat.lt_or_eq_of_le bits with few | rfl
  · rw [shift_settled few least]
    dsimp only
    by_cases zero : r = 0
    · subst zero
      rw [dif_pos rfl, shape_pack_zero, magnitude, Nat.zero_mul]
    · rw [dif_neg zero]
      exact shape_pack_finite s (Nat.pos_of_ne_zero zero) few least leading
  · have power : (t + 1 + 1074).toNat = (t + 1074).toNat + 1 := by omega
    have same : magnitude (2 ^ 53) t = magnitude (2 ^ 52) (t + 1) := by
      rw [magnitude, magnitude, power, Nat.pow_succ 2 (t + 1074).toNat]
      omega
    rw [shift_carried least]
    dsimp only
    rw [dif_neg (by decide), same]
    exact shape_pack_finite s (by decide) (by decide) (by omega) (.inl (Nat.le_refl _))

theorem gridOf_scaled (pos : 0 < d) (wide : 2 ^ 52 ≤ n / d ∨ e ≤ -1074) :
    (gridOf (n * 2 ^ (e + 1074).toNat) (d * 2 ^ (-(e + 1074)).toNat) : Int) =
      max (((n / d).log2 : Int) + e - 52) (-1074) + 1074 := by
  obtain ⟨k, known⟩ : ∃ k : Nat,
      (k : Int) = max (((n / d).log2 : Int) + e - 52) (-1074) + 1074 := by
    refine ⟨(max (((n / d).log2 : Int) + e - 52) (-1074) + 1074).toNat, ?_⟩
    omega
  rw [← known, Nat.cast_inj]
  -- the quotient fits into 53 bits of this grid, and fills them unless the grid is the finest
  apply gridOf_eq (Nat.mul_pos pos (Nat.two_pow_pos _))
  · have below : n < 2 ^ ((n / d).log2 + 1) * d :=
      (Nat.div_lt_iff_lt_mul pos).mp (Nat.lt_log2_self (n := n / d))
    calc n * 2 ^ (e + 1074).toNat
        < 2 ^ ((n / d).log2 + 1) * d * 2 ^ (e + 1074).toNat :=
          Nat.mul_lt_mul_of_pos_right below (Nat.two_pow_pos _)
      _ = d * 2 ^ ((n / d).log2 + 1 + (e + 1074).toNat) := by ring
      _ ≤ d * 2 ^ ((-(e + 1074)).toNat + (53 + k)) := by
          apply Nat.mul_le_mul_left
          apply Nat.pow_le_pow_right (by decide)
          omega
      _ = d * 2 ^ (-(e + 1074)).toNat * 2 ^ (53 + k) := by ring
  · by_cases zero : k = 0
    · exact .inl zero
    · right
      have some : n / d ≠ 0 := by
        intro none
        rw [none] at wide known
        have log : Nat.log2 0 = 0 := rfl
        omega
      have above : 2 ^ (n / d).log2 * d ≤ n :=
        (Nat.le_div_iff_mul_le pos).mp (Nat.log2_self_le some)
      calc d * 2 ^ (-(e + 1074)).toNat * 2 ^ (52 + k)
          = d * 2 ^ ((-(e + 1074)).toNat + (52 + k)) := by ring
        _ = d * 2 ^ ((n / d).log2 + (e + 1074).toNat) := by
            congr 2
            omega
        _ = 2 ^ (n / d).log2 * d * 2 ^ (e + 1074).toNat := by ring
        _ ≤ n * 2 ^ (e + 1074).toNat := Nat.mul_le_mul_right _ above

/-- Rounding a quotient with enough bits before the point, or with an exponent small enough that
bits are only lost. -/
theorem shape_roundWithAccuracy (s : Sign) (pos : 0 < d) (wide : 2 ^ 52 ≤ n / d ∨ e ≤ -1074) :
    shape (.ofModel (.pack (roundWithAccuracy Format.binary64 s (n / d) e
      (accuracyOfFraction (n % d) d)))) =
      .ofUnits (isNegative s)
        (rounded (n * 2 ^ (e + 1074).toNat) (d * 2 ^ (-(e + 1074)).toNat)) := by
  have grid := gridOf_scaled pos wide
  have many := le_roundHalfEven_grid (n := n * 2 ^ (e + 1074).toNat)
    (Nat.mul_pos pos (Nat.two_pow_pos (-(e + 1074)).toNat))
  have few := roundHalfEven_grid_le (n := n * 2 ^ (e + 1074).toNat)
    (Nat.mul_pos pos (Nat.two_pow_pos (-(e + 1074)).toNat))
  unfold rounded
  generalize gridOf (n * 2 ^ (e + 1074).toNat) (d * 2 ^ (-(e + 1074)).toNat) = g at *
  have target : Format.binary64.targetExponent (totalExponent (n / d) e) = (g : Int) - 1074 := by
    rw [targetExponent_eq]
    omega
  have log : 2 ^ 52 ≤ n / d → 52 ≤ (n / d).log2 := by
    intro leading
    exact (Nat.le_log2 (by omega)).mpr leading
  have back : e + (((g : Int) - 1074 - e).toNat : Int) = (g : Int) - 1074 := by omega
  -- the accuracy stands for the rest, so a later shift is a division by more
  have first : shiftToTargetExponent Format.binary64 (n / d) e (accuracyOfFraction (n % d) d) =
      (extendedQuotient n (d * 2 ^ ((g : Int) - 1074 - e).toNat), (g : Int) - 1074) := by
    rw [shiftToTargetExponent, target]
    simp only [shiftToExponent, extendedQuotient_accuracy pos, extendedQuotient_shift pos, back]
  have nearest : roundHalfEven n (d * 2 ^ ((g : Int) - 1074 - e).toNat) =
      roundHalfEven (n * 2 ^ (e + 1074).toNat) (d * 2 ^ (-(e + 1074)).toNat * 2 ^ g) := by
    apply roundHalfEven_congr (Nat.mul_pos pos (Nat.two_pow_pos _))
      (Nat.mul_pos (Nat.mul_pos pos (Nat.two_pow_pos _)) (Nat.two_pow_pos _))
    calc n * (d * 2 ^ (-(e + 1074)).toNat * 2 ^ g)
        = n * d * 2 ^ ((-(e + 1074)).toNat + g) := by ring
      _ = n * d * 2 ^ ((e + 1074).toNat + ((g : Int) - 1074 - e).toNat) := by
          congr 2
          omega
      _ = n * 2 ^ (e + 1074).toNat * (d * 2 ^ ((g : Int) - 1074 - e).toNat) := by ring
  rw [← nearest] at many few ⊢
  have settled := shape_settled s (t := (g : Int) - 1074) few (by omega)
    (many.symm.imp_right (by omega))
  have power : ((g : Int) - 1074 + 1074).toNat = g := by omega
  rw [magnitude, power] at settled
  rw [roundWithAccuracy, first]
  dsimp only
  rw [roundedMantissa_extendedQuotient (Nat.mul_pos pos (Nat.two_pow_pos _))]
  exact settled

end Round
end ProofOfWork.Decimal
