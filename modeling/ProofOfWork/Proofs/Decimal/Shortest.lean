import ProofOfWork.Decimal.Shortest
import ProofOfWork.Proofs.Decimal.Operations
set_option autoImplicit false

namespace ProofOfWork.Decimal

def Interval.Holds (i : Interval) (n d : Nat) : Prop := i.has (n * i.den) d = true

section Interval
variable {m n d : Nat} {e : Int}

theorem Interval.has_iff (i : Interval) (a scale : Nat) : i.has a scale = true ↔
    i.low * scale ≤ a ∧ a ≤ i.high * scale ∧
      (i.closed = false → i.low * scale < a ∧ a < i.high * scale) := by
  unfold Interval.has
  cases i.closed with
  | false =>
      simp
      omega
  | true => simp

theorem four_units : 4 * one = 2 ^ (places + 2) := by
  rw [one, Nat.pow_add, Nat.mul_comm]

theorem exists_power (least : -1074 ≤ e) : ∃ up down, 0 < up ∧ 0 < down ∧ down ≤ 4 * one ∧
    up * (4 * one) = 2 ^ (e + 1074).toNat * down ∧
    Interval.of m e = {
      low := (4 * m - if m = 2 ^ 52 ∧ e > -1074 then 1 else 2) * up
      num := 4 * m * up
      high := (4 * m + 2) * up
      den := down
      closed := m % 2 = 0 } := by
  cases shift : e - 2 with
  | ofNat k =>
      rw [Int.ofNat_eq_natCast] at shift
      refine ⟨2 ^ k, 1, Nat.two_pow_pos k, Nat.one_pos, ?_, ?_, ?_⟩
      · have some := one_pos
        omega
      · have power : (e + 1074).toNat = k + (places + 2) := by
          rw [places]
          omega
        rw [power, four_units, Nat.pow_add 2 k, Nat.mul_one]
      · rw [Interval.of, shift]
  | negSucc k =>
      have exponent : (e + 1074).toNat + (k + 1) = places + 2 := by
        rw [places]
        omega
      refine ⟨1, 2 ^ (k + 1), Nat.one_pos, Nat.two_pow_pos _, ?_, ?_, ?_⟩
      · rw [four_units]
        exact Nat.pow_le_pow_right (by decide) (by omega)
      · rw [← Nat.pow_add, exponent, four_units, Nat.one_mul]
      · rw [Interval.of, shift]

/-- Everything in the interval of a number is rounded to it. -/
theorem rounded_of_holds (canonical : Canonical m e) (pos : 0 < d)
    (inside : (Interval.of m e).Holds n d) : rounded (n * one) d = magnitude m e := by
  have least := canonical.least
  obtain ⟨up, down, some, divisor, -, scale, parts⟩ := exists_power (m := m) least
  -- both sides are brought to one denominator before they are compared
  have wide (a : Nat) : a * up * d * (4 * one) = a * (2 ^ (e + 1074).toNat * d) * down := by
    calc a * up * d * (4 * one) = a * d * (up * (4 * one)) := by ring
      _ = a * d * (2 ^ (e + 1074).toNat * down) := by rw [scale]
      _ = a * (2 ^ (e + 1074).toNat * d) * down := by ring
  have number : n * down * (4 * one) = 4 * (n * one) * down := by ring
  have units : 0 < 4 * one := Nat.mul_pos (by decide) one_pos
  rw [Interval.Holds, Interval.has_iff, parts] at inside
  dsimp only at inside
  obtain ⟨low, high, strict⟩ := inside
  have gap : (if m = 2 ^ 52 ∧ 0 < (e + 1074).toNat then 1 else 2) =
      if m = 2 ^ 52 ∧ e > -1074 then 1 else 2 :=
    if_congr (and_congr_right fun _ => by omega) rfl rfl
  apply rounded_eq pos canonical.bits
  · exact canonical.leading.imp_right (by omega)
  · have le := Nat.mul_le_mul_right (4 * one) low
    rw [wide, number] at le
    rw [gap]
    exact Nat.le_of_mul_le_mul_right le divisor
  · have le := Nat.mul_le_mul_right (4 * one) high
    rw [wide, number] at le
    exact Nat.le_of_mul_le_mul_right le divisor
  · intro odd
    obtain ⟨above, below⟩ := strict (decide_eq_false (by omega))
    have first : ¬(m = 2 ^ 52 ∧ e > -1074) := by
      rintro ⟨rfl, -⟩
      omega
    rw [if_neg first] at above
    have lt := Nat.mul_lt_mul_of_pos_right above units
    have lt' := Nat.mul_lt_mul_of_pos_right below units
    rw [wide, number] at lt lt'
    exact ⟨Nat.lt_of_mul_lt_mul_right lt, Nat.lt_of_mul_lt_mul_right lt'⟩

end Interval

/-! The position of the first digit. -/

theorem smallPlaces_spec {num den fuel : Nat} (reached : den ≤ num * 10 ^ fuel) :
    den ≤ num * 10 ^ smallPlaces num den fuel ∧
      (smallPlaces num den fuel = 0 ∨ num * 10 ^ (smallPlaces num den fuel - 1) < den) := by
  induction fuel generalizing num with
  | zero => exact ⟨reached, .inl rfl⟩
  | succ fuel ih =>
      rw [smallPlaces]
      by_cases first : num ≥ den
      · rw [if_pos first, Nat.pow_zero, Nat.mul_one]
        exact ⟨first, .inl rfl⟩
      · rw [if_neg first]
        have later : den ≤ num * 10 * 10 ^ fuel := by
          rw [Nat.mul_assoc, ← Nat.pow_succ']
          exact reached
        obtain ⟨above, below⟩ := ih later
        rw [Nat.mul_assoc, ← Nat.pow_succ'] at above
        refine ⟨above, .inr ?_⟩
        rw [Nat.add_sub_cancel]
        rcases below with zero | below
        · rw [zero, Nat.pow_zero, Nat.mul_one]
          exact Nat.lt_of_not_le first
        · rcases Nat.eq_zero_or_pos (smallPlaces (num * 10) den fuel) with zero | some
          · rw [zero, Nat.pow_zero, Nat.mul_one]
            exact Nat.lt_of_not_le first
          · have power : smallPlaces (num * 10) den fuel =
                smallPlaces (num * 10) den fuel - 1 + 1 := by omega
            rw [power, Nat.pow_succ', ← Nat.mul_assoc]
            exact below

theorem pointPosition_spec {num den : Nat} (pos : 0 < den) (reached : den ≤ num * 10 ^ 400) :
    den * 10 ^ (pointPosition num den - 1).toNat ≤ num * 10 ^ (1 - pointPosition num den).toNat ∧
      num * 10 ^ (-pointPosition num den).toNat < den * 10 ^ (pointPosition num den).toNat := by
  unfold pointPosition
  by_cases large : num ≥ den
  · have some : 0 < num / den := Nat.div_pos large pos
    have least := pow_digits_le some
    have most := lt_pow_digits (num / den)
    have filled := Nat.length_toDigits_pos (b := 10) (n := num / den)
    rw [if_pos large]
    generalize (Nat.toDigits 10 (num / den)).length = k at *
    have first : ((k : Int) - 1).toNat = k - 1 := by omega
    have none : (1 - (k : Int)).toNat = 0 := by omega
    have none' : (-(k : Int)).toNat = 0 := by omega
    rw [first, none, none', Int.toNat_natCast, Nat.pow_zero, Nat.mul_one, Nat.mul_comm den,
      Nat.mul_comm den]
    exact ⟨(Nat.le_div_iff_mul_le pos).mp least, (Nat.div_lt_iff_lt_mul pos).mp most⟩
  · obtain ⟨above, below⟩ := smallPlaces_spec reached
    rw [if_neg large, Int.ofNat_eq_natCast]
    have some : 0 < smallPlaces num den 400 := by
      apply Nat.pos_of_ne_zero
      intro zero
      rw [zero, Nat.pow_zero, Nat.mul_one] at above
      exact large above
    generalize smallPlaces num den 400 = k at *
    have none : (1 - (k : Int) - 1).toNat = 0 := by omega
    have first : (1 - (1 - (k : Int))).toNat = k := by omega
    have last : (-(1 - (k : Int))).toNat = k - 1 := by omega
    have none' : (1 - (k : Int)).toNat = 0 := by omega
    rw [none, first, last, none', Nat.pow_zero, Nat.mul_one]
    exact ⟨above, below.resolve_left (by omega)⟩

/-! The decimals of a grid. -/

namespace Interval
variable {i : Interval} {tie : Tie} {q : Int} {s : Scaled}

/-- The grid point at or below the exact value. -/
def below (i : Interval) (q : Int) : Nat := i.num * 10 ^ (-q).toNat / (10 ^ q.toNat * i.den)

theorem onGrid?_eq (i : Interval) (tie : Tie) (q : Int) : ∃ above : Bool, i.onGrid? tie q =
    match i.has (i.below q * (10 ^ q.toNat * i.den)) (10 ^ (-q).toNat),
      i.has ((i.below q + 1) * (10 ^ q.toNat * i.den)) (10 ^ (-q).toNat) with
    | true, true => some ⟨if above then i.below q + 1 else i.below q, q⟩
    | true, false => some ⟨i.below q, q⟩
    | false, true => some ⟨i.below q + 1, q⟩
    | false, false => none := by
  unfold onGrid? below
  cases q with
  | ofNat k =>
      have none : (-(Int.ofNat k)).toNat = 0 := by
        rw [Int.ofNat_eq_natCast]
        omega
      rw [none, Nat.pow_zero]
      exact ⟨_, rfl⟩
  | negSucc k => exact ⟨_, rfl⟩

/-- A decimal that stands for an interval is one of the two neighbours of the exact value, and lies
in the interval. -/
theorem onGrid?_some (hit : i.onGrid? tie q = some s) : s.exponent = q ∧
    (s.digits = i.below q ∨ s.digits = i.below q + 1) ∧
      i.Holds (s.digits * 10 ^ q.toNat) (10 ^ (-q).toNat) := by
  obtain ⟨above, same⟩ := onGrid?_eq i tie q
  unfold Holds
  rw [same] at hit
  rw [Nat.mul_assoc]
  split at hit
  · rename_i low high
    cases hit
    refine ⟨rfl, ?_⟩
    cases above
    · exact ⟨.inl rfl, low⟩
    · exact ⟨.inr rfl, high⟩
  · rename_i low high
    cases hit
    exact ⟨rfl, .inl rfl, low⟩
  · rename_i low high
    cases hit
    exact ⟨rfl, .inr rfl, high⟩
  · cases hit

theorem onGrid?_isSome (hit : i.has (i.below q * (10 ^ q.toNat * i.den)) (10 ^ (-q).toNat) = true ∨
    i.has ((i.below q + 1) * (10 ^ q.toNat * i.den)) (10 ^ (-q).toNat) = true) :
    ∃ s, i.onGrid? tie q = some s := by
  obtain ⟨above, same⟩ := onGrid?_eq i tie q
  rw [same]
  split
  · exact ⟨_, rfl⟩
  · exact ⟨_, rfl⟩
  · exact ⟨_, rfl⟩
  · rename_i low high
    rw [low, high] at hit
    rcases hit with none | none <;> cases none

end Interval

/-! Seventeen digits are enough. -/

section Tens
variable {x y a b c d : Nat}

theorem tens_le (le : x * 10 ^ a ≤ y * 10 ^ b) (same : a + c = d + b) : x * 10 ^ d ≤ y * 10 ^ c := by
  have power : 0 < 10 ^ b := Nat.pow_pos (by decide)
  apply Nat.le_of_mul_le_mul_right _ power
  calc x * 10 ^ d * 10 ^ b = x * 10 ^ a * 10 ^ c := by
        rw [Nat.mul_assoc, Nat.mul_assoc, ← Nat.pow_add, ← Nat.pow_add, same]
    _ ≤ y * 10 ^ b * 10 ^ c := Nat.mul_le_mul_right _ le
    _ = y * 10 ^ c * 10 ^ b := Nat.mul_right_comm _ _ _

theorem tens_lt (lt : x * 10 ^ a < y * 10 ^ b) (same : a + c = d + b) : x * 10 ^ d < y * 10 ^ c := by
  have power : 0 < 10 ^ c := Nat.pow_pos (by decide)
  apply Nat.lt_of_mul_lt_mul_right (a := 10 ^ b)
  calc x * 10 ^ d * 10 ^ b = x * 10 ^ a * 10 ^ c := by
        rw [Nat.mul_assoc, Nat.mul_assoc, ← Nat.pow_add, ← Nat.pow_add, same]
    _ < y * 10 ^ b * 10 ^ c := Nat.mul_lt_mul_of_pos_right lt power
    _ = y * 10 ^ c * 10 ^ b := Nat.mul_right_comm _ _ _

end Tens

section Shortest
variable {m : Nat} {e : Int} {tie : Tie}

theorem point_spec (canonical : Canonical m e) (pos : 0 < m) :
    let i := Interval.of m e
    let p := pointPosition i.num i.den
    i.den * 10 ^ (p - 1).toNat ≤ i.num * 10 ^ (1 - p).toNat ∧
      i.num * 10 ^ (-p).toNat < i.den * 10 ^ p.toNat := by
  obtain ⟨up, down, some, divisor, few, -, parts⟩ := exists_power (m := m) canonical.least
  rw [parts]
  apply pointPosition_spec divisor
  have wide : 4 * one ≤ 10 ^ 400 := by decide +kernel
  have least : 1 ≤ 4 * m * up := Nat.mul_pos (Nat.mul_pos (by decide) pos) some
  calc down ≤ 4 * one := few
    _ ≤ 10 ^ 400 := wide
    _ ≤ 4 * m * up * 10 ^ 400 := Nat.le_mul_of_pos_left _ least

/-- On a grid with sixteen more places than the first digit a neighbour of the exact value lies in
the interval: the grid is finer than the distance of the number from the next ones. -/
theorem fine_hit (canonical : Canonical m e) (pos : 0 < m) {q : Int}
    (fine : (Interval.of m e).den * 10 ^ (16 + q.toNat) ≤ (Interval.of m e).num * 10 ^ (-q).toNat) :
    ∃ s, (Interval.of m e).onGrid? tie q = some s := by
  obtain ⟨up, down, some, divisor, -, -, parts⟩ := exists_power (m := m) canonical.least
  have scale : 0 < 10 ^ (-q).toNat := Nat.pow_pos (by decide)
  apply Interval.onGrid?_isSome
  rw [Interval.has_iff, Interval.has_iff, Interval.below, parts]
  rw [parts, Nat.pow_add] at fine
  dsimp only at fine ⊢
  have unit : 0 < 10 ^ q.toNat * down := Nat.mul_pos (Nat.pow_pos (by decide)) divisor
  have split := Nat.div_add_mod' (4 * m * up * 10 ^ (-q).toNat) (10 ^ q.toNat * down)
  have rest := Nat.mod_lt (4 * m * up * 10 ^ (-q).toNat) unit
  rw [Nat.add_one_mul (4 * m * up * 10 ^ (-q).toNat / (10 ^ q.toNat * down))]
  -- the point below the exact value, and what is left above it
  generalize 4 * m * up * 10 ^ (-q).toNat / (10 ^ q.toNat * down) * (10 ^ q.toNat * down) = low at *
  generalize 4 * m * up * 10 ^ (-q).toNat % (10 ^ q.toNat * down) = r at *
  have step : down * (10 ^ 16 * 10 ^ q.toNat) = 10 ^ 16 * (10 ^ q.toNat * down) := by ring
  rw [step] at fine
  generalize 10 ^ q.toNat * down = u at *
  have width : 0 < up * 10 ^ (-q).toNat := Nat.mul_pos some scale
  have bits := Nat.mul_le_mul_right (up * 10 ^ (-q).toNat) (Nat.le_of_lt_succ canonical.bits)
  have number : 4 * m * up * 10 ^ (-q).toNat = 4 * (m * (up * 10 ^ (-q).toNat)) := by ring
  have high : (4 * m + 2) * up * 10 ^ (-q).toNat =
      4 * (m * (up * 10 ^ (-q).toNat)) + 2 * (up * 10 ^ (-q).toNat) := by ring
  have near (gap : Nat) (less : gap ≤ 4 * m) : (4 * m - gap) * up * 10 ^ (-q).toNat +
      gap * (up * 10 ^ (-q).toNat) = 4 * (m * (up * 10 ^ (-q).toNat)) := by
    rw [Nat.mul_assoc, ← Nat.add_mul, Nat.sub_add_cancel less, Nat.mul_assoc]
  rw [number] at split fine
  rw [high]
  by_cases first : m = 2 ^ 52 ∧ e > -1074
  · -- the interval reaches half as far down, but the grid is twice as fine for the least mantissa
    have gap := near 1 (by omega)
    rw [if_pos first]
    obtain ⟨rfl, -⟩ := first
    right
    omega
  · have gap := near 2 (by omega)
    rw [if_neg first]
    rcases Nat.le_total (2 * r) u with nearer | farther
    · left
      omega
    · right
      omega

theorem below_bounds {i : Interval} {p : Int} (n : Nat) (pos : 0 < i.den)
    (first : i.den * 10 ^ (p - 1).toNat ≤ i.num * 10 ^ (1 - p).toNat)
    (last : i.num * 10 ^ (-p).toNat < i.den * 10 ^ p.toNat) :
    10 ^ n ≤ i.below (p - Int.ofNat (n + 1)) ∧ i.below (p - Int.ofNat (n + 1)) < 10 ^ (n + 1) := by
  have unit : 0 < 10 ^ (p - Int.ofNat (n + 1)).toNat * i.den :=
    Nat.mul_pos (Nat.pow_pos (by decide)) pos
  unfold Interval.below
  rw [Nat.le_div_iff_mul_le unit, Nat.div_lt_iff_lt_mul unit, ← Nat.mul_assoc, ← Nat.pow_add,
    ← Nat.mul_assoc, ← Nat.pow_add, Nat.mul_comm _ i.den, Nat.mul_comm _ i.den,
    Int.ofNat_eq_natCast]
  exact ⟨tens_le first (by omega), tens_lt last (by omega)⟩

theorem stripped_spec (fuel : Nat) (s : Scaled) : ∃ k : Nat,
    s.digits = (s.stripped fuel).digits * 10 ^ k ∧ (s.stripped fuel).exponent = s.exponent + k ∧
      (0 < fuel → s.digits % 10 = 0 → s.digits ≠ 0 → 0 < k) := by
  induction fuel generalizing s with
  | zero => exact ⟨0, (Nat.mul_one _).symm, (Int.add_zero _).symm, fun none => absurd none (by decide)⟩
  | succ fuel ih =>
      rw [Scaled.stripped]
      by_cases round : s.digits % 10 = 0 ∧ s.digits ≠ 0
      · obtain ⟨k, digits, exponent, -⟩ := ih ⟨s.digits / 10, s.exponent + 1⟩
        rw [if_pos round]
        refine ⟨k + 1, ?_, ?_, fun _ _ _ => Nat.succ_pos k⟩
        · rw [Nat.pow_succ, ← Nat.mul_assoc, ← digits]
          dsimp only
          omega
        · rw [exponent]
          dsimp only
          omega
      · rw [if_neg round]
        refine ⟨0, (Nat.mul_one _).symm, (Int.add_zero _).symm, ?_⟩
        intro _ tens some
        exact absurd ⟨tens, some⟩ round

/-- The exact value of a decimal in units of the least positive number, rounded. -/
def Scaled.rounded (s : Scaled) : Nat :=
  Decimal.rounded (s.digits * 10 ^ s.exponent.toNat * one) (10 ^ (-s.exponent).toNat)

@[simp] theorem rounded_tens (n k : Nat) (e : Int) :
    Scaled.rounded ⟨n * 10 ^ k, e⟩ = Scaled.rounded ⟨n, e + k⟩ := by
  unfold Scaled.rounded
  dsimp only
  apply rounded_congr (Nat.pow_pos (by decide)) (Nat.pow_pos (by decide))
  calc n * 10 ^ k * 10 ^ e.toNat * one * 10 ^ (-(e + k)).toNat
      = n * 10 ^ (k + e.toNat + (-(e + k)).toNat) * one := by ring
    _ = n * 10 ^ ((e + k).toNat + (-e).toNat) * one := by
        congr 3
        omega
    _ = n * 10 ^ (e + k).toNat * one * 10 ^ (-e).toNat := by ring

theorem stripped_rounded (fuel : Nat) (s : Scaled) : (s.stripped fuel).rounded = s.rounded := by
  obtain ⟨k, digits, exponent, -⟩ := stripped_spec fuel s
  have same := rounded_tens (s.stripped fuel).digits k s.exponent
  rw [← digits, ← exponent] at same
  exact same.symm

/-- Without the zeros at its end a decimal of eighteen digits is shorter, as it can only be the power
of ten. -/
theorem stripped_digits {s : Scaled} (some : 0 < s.digits) (few : s.digits ≤ 10 ^ 17) :
    0 < (s.stripped 20).digits ∧ (s.stripped 20).digits < 10 ^ 17 := by
  obtain ⟨k, whole, -, shorter⟩ := stripped_spec 20 s
  constructor
  · apply Nat.pos_of_ne_zero
    intro zero
    rw [zero, Nat.zero_mul] at whole
    omega
  · rcases Nat.eq_zero_or_pos k with rfl | dropped
    · rw [Nat.pow_zero, Nat.mul_one] at whole
      rw [← whole]
      apply Nat.lt_of_le_of_ne few
      intro full
      exact absurd (shorter (by decide) (by rw [full]) (by omega)) (Nat.lt_irrefl 0)
    · have tenfold : (s.stripped 20).digits * 10 ≤ 10 ^ 17 :=
        calc (s.stripped 20).digits * 10 ≤ (s.stripped 20).digits * 10 ^ k :=
              Nat.mul_le_mul_left _ (Nat.le_self_pow (by omega) 10)
          _ ≤ 10 ^ 17 := by
              rw [← whole]
              exact few
      omega

theorem Interval.den_pos (canonical : Canonical m e) : 0 < (Interval.of m e).den := by
  obtain ⟨up, down, -, divisor, -, -, parts⟩ := exists_power (m := m) canonical.least
  rw [parts]
  exact divisor

/-- One of the seventeen grids has a decimal in the interval, at the latest the finest one. -/
theorem shortest_hit (tie : Tie) (canonical : Canonical m e) (pos : 0 < m) :
    ∃ (s : Scaled) (n : Nat), shortest tie m e = s.stripped 20 ∧ n < 17 ∧
      (Interval.of m e).onGrid? tie
        (pointPosition (Interval.of m e).num (Interval.of m e).den - Int.ofNat (n + 1)) =
          some s := by
  obtain ⟨first, -⟩ := point_spec canonical pos
  unfold shortest
  dsimp only
  generalize pointPosition (Interval.of m e).num (Interval.of m e).den = p at *
  have fine : (Interval.of m e).den * 10 ^ (16 + (p - Int.ofNat (16 + 1)).toNat) ≤
      (Interval.of m e).num * 10 ^ (-(p - Int.ofNat (16 + 1))).toNat := by
    apply tens_le first
    rw [Int.ofNat_eq_natCast]
    omega
  obtain ⟨finest, sixteenth⟩ : ∃ s,
      (Interval.of m e).onGrid? tie (p - Int.ofNat (16 + 1)) = some s :=
    fine_hit canonical pos fine
  obtain ⟨s, hit⟩ : ∃ s, (List.range 17).findSome?
      (fun n => (Interval.of m e).onGrid? tie (p - Int.ofNat (n + 1))) = some s := by
    apply Option.isSome_iff_exists.mp
    rw [List.findSome?_isSome_iff]
    exact ⟨16, by decide, by rw [sixteenth]; rfl⟩
  obtain ⟨n, member, found⟩ := List.exists_of_findSome?_eq_some hit
  refine ⟨s, n, ?_, List.mem_range.mp member, found⟩
  rw [hit, Option.getD_some]

/-- The shortest decimal has at most seventeen digits and is rounded to the number. -/
theorem shortest_spec (tie : Tie) (canonical : Canonical m e) (pos : 0 < m) :
    0 < (shortest tie m e).digits ∧ (shortest tie m e).digits < 10 ^ 17 ∧
      (shortest tie m e).rounded = magnitude m e := by
  obtain ⟨s, n, stripped, few, found⟩ := shortest_hit tie canonical pos
  obtain ⟨first, last⟩ := point_spec canonical pos
  obtain ⟨exponent, digits, inside⟩ := Interval.onGrid?_some found
  obtain ⟨least, most⟩ := below_bounds n (Interval.den_pos canonical) first last
  have positive : 1 ≤ 10 ^ n := Nat.one_le_pow _ _ (by decide)
  have wide : 10 ^ (n + 1) ≤ 10 ^ 17 := Nat.pow_le_pow_right (by decide) few
  have bounds : 0 < s.digits ∧ s.digits ≤ 10 ^ 17 := by
    rcases digits with same | same <;> rw [same] <;> omega
  obtain ⟨some, short⟩ := stripped_digits bounds.1 bounds.2
  rw [stripped]
  refine ⟨some, short, ?_⟩
  rw [stripped_rounded, Scaled.rounded, exponent]
  exact rounded_of_holds canonical (Nat.pow_pos (by decide)) inside

end Shortest
end ProofOfWork.Decimal
