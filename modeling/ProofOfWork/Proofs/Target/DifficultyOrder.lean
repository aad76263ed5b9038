import ProofOfWork.Proofs.Decimal.Operations
import ProofOfWork.Proofs.Target.Difficulty
set_option autoImplicit false

namespace ProofOfWork
open Decimal

namespace Difficulty
variable {d : Float} {m : Nat} {e : Int}

theorem tooLarge_scaled : tooLarge * 2 ^ Target.difficultyPlaces = beyond := by
  have power : widest + places + Target.difficultyPlaces = 53 + (971 + 1074 : Int).toNat := rfl
  rw [tooLarge, one, beyond, magnitude, ← Nat.pow_add, ← Nat.pow_add, ← Nat.pow_add, power]

theorem scaled_of_tooLarge (value : shape d = .finite false m e)
    (far : tooLarge ≤ magnitude m e) :
    shape (d * Float.ofNat (2 ^ Target.difficultyPlaces)) = .infinite false := by
  have factor : magnitude (2 ^ 52) (32 - 52) = 2 ^ Target.difficultyPlaces * one := by
    have split : 52 + (32 - 52 + 1074 : Int).toNat = Target.difficultyPlaces + places := rfl
    rw [magnitude, one, ← Nat.pow_add, ← Nat.pow_add, split]
  have past : beyond ≤ rounded (magnitude m e * (2 ^ Target.difficultyPlaces * one)) one :=
    calc beyond = rounded beyond 1 := rounded_beyond.symm
      _ ≤ rounded (magnitude m e * (2 ^ Target.difficultyPlaces * one)) one := by
          apply rounded_mono Nat.one_pos Decimal.one_pos
          rw [← tooLarge_scaled, Nat.mul_one, ← Nat.mul_assoc]
          exact Nat.mul_le_mul_right _ (Nat.mul_le_mul_right _ far)
  rw [shape_mul value shape_scale, factor, Shape.ofUnits, if_pos past]
  rfl

/-- What is finite and not below one is a divisor of at least one in fixed point, or too large. -/
theorem scaled_cases (finite : d.isFinite = true) (low : ¬ d < least) :
    (∃ m e, shape (d * Float.ofNat (2 ^ Target.difficultyPlaces)) = .finite false m e ∧
      2 ^ Target.difficultyPlaces ≤ truncated m e) ∨
    shape (d * Float.ofNat (2 ^ Target.difficultyPlaces)) = .infinite false := by
  obtain ⟨m, e, value, least⟩ := shape_of_least finite low
  rcases Nat.lt_or_ge (magnitude m e) tooLarge with inside | far
  · obtain ⟨scaled, whole⟩ := scaled_of_shape value least inside
    exact .inl ⟨m, e + 32, scaled, whole ▸ Target.le_denominator least _⟩
  · exact .inr (scaled_of_tooLarge value far)

end Difficulty

namespace Target
open Difficulty

section Order
variable {d e : Float} {t : Target}

theorem admitted_of_check (inside : ¬ (!d.isFinite || decide (d < 1)) = true) :
    d.isFinite = true ∧ ¬ d < 1 := by
  simpa using inside

theorem units_of_ofDifficulty (made : ofDifficulty d = .ok t) :
    ∃ units : Nat, (shape d).units = some (units : Int) ∧ one ≤ units ∧ units < tooLarge := by
  rw [ofDifficulty] at made
  by_cases refused : (!d.isFinite || decide (d < 1)) = true
  · rw [if_pos refused] at made
    cases made
  · obtain ⟨finite, least⟩ := admitted_of_check refused
    obtain ⟨m, e, value, low⟩ := shape_of_least finite least
    refine ⟨magnitude m e, by rw [value]; rfl, low, Nat.lt_of_not_le fun far => ?_⟩
    rw [if_neg refused, scaled_of_tooLarge value far] at made
    cases made

/-- A difficulty from one on that is no greater than one with a target has a target that is no
harder. -/
theorem exists_easier (least : 1 ≤ d) (le : d ≤ e) (made : ofDifficulty e = .ok t) :
    ∃ s, ofDifficulty d = .ok s ∧ t ≤ s := by
  obtain ⟨more, large, high, inside⟩ := units_of_ofDifficulty made
  obtain ⟨a, units⟩ := units_of_number (number_of_le le).1
  have low := (Decimal.le_iff units_least units).mp least
  have ordered := (Decimal.le_iff units large).mp le
  obtain ⟨few, rfl⟩ := Int.eq_ofNat_of_zero_le (Int.le_trans (Int.natCast_nonneg one) low)
  have low : one ≤ few := Int.ofNat_le.mp low
  have ordered : few ≤ more := Int.ofNat_le.mp ordered
  refine ⟨_, ofDifficulty_eq units low (Nat.lt_of_le_of_lt ordered inside), ?_⟩
  have smaller := le_denominator low difficultyPlaces
  have divisors : few * 2 ^ difficultyPlaces / one ≤ more * 2 ^ difficultyPlaces / one :=
    Nat.div_le_div_right (Nat.mul_le_mul_right _ ordered)
  rw [ofDifficulty_eq large high inside] at made
  rw [← Except.ok.inj made, Target.le_iff, value_quotient smaller,
    value_quotient (le_denominator high difficultyPlaces)]
  exact Nat.div_le_div_left divisors (Nat.lt_of_lt_of_le (Nat.two_pow_pos _) smaller)

theorem ofDifficulty_one : ofDifficulty 1 = .ok max := by
  have far : one < tooLarge := lt_mul_left Decimal.one_pos (Nat.one_lt_two_pow (by decide))
  change ofDifficulty least = _
  rw [ofDifficulty_eq units_least (Nat.le_refl _) far, Nat.mul_div_cancel_left _ Decimal.one_pos,
    Nat.mul_div_cancel _ (Nat.two_pow_pos _)]
  have whole : (ofNat maxValue).value = maxValue := Word256.value_ofNat maxValue
  exact congrArg Except.ok (eq_of_value (whole.trans value_max.symm))

end Order

/-! The same computation with every step checked: none where it would break off. -/

/-- The quotient of two numbers; none by zero. -/
def checkedDiv (n d : Nat) : Option Nat := if d = 0 then none else some (n / d)

/-- The difference of two numbers; none below zero. -/
def checkedSub (n k : Nat) : Option Nat := if n < k then none else some (n - k)

def tooWide : Error := .invalidTarget (.described "Value exceeds 256 bits")

/-- The target of a number, its bytes behind as many zeros as are missing. -/
def ofNumber? (n : Nat) : Option (Except Error Target) :=
  if 256 < n.size then some (.error tooWide)
  else do
    let missing ← checkedSub 32 (Word256.numberBytes n).length
    let word ← Word256.ofBytes? (List.replicate missing 0 ++ Word256.numberBytes n)
    return .ok ⟨word⟩

/-- The target of a difficulty. -/
def ofDifficulty? (difficulty : Float) : Option (Except Error Target) :=
  if !difficulty.isFinite || difficulty < 1 then
    some (.error (.invalidTarget (.difficultyRange difficulty)))
  else match shape (difficulty * Float.ofNat (2 ^ difficultyPlaces)) with
    | .finite false mantissa exponent => do
      let n ← checkedDiv (maxValue * 2 ^ difficultyPlaces) (truncated mantissa exponent)
      ofNumber? n
    | _ => some (.error (.invalidTarget (.difficultySize difficulty)))

theorem ofNumber?_eq {n : Nat} (fits : n < 2 ^ 256) : ofNumber? n = some (.ok (ofNat n)) := by
  have narrow : ¬ 256 < n.size := Nat.not_lt.mpr (Nat.size_le.mpr fits)
  have few : (Word256.numberBytes n).length ≤ 32 := Word256.length_numberBytes fits
  have missing : checkedSub 32 (Word256.numberBytes n).length =
      some (32 - (Word256.numberBytes n).length) := if_neg (Nat.not_lt.mpr few)
  have filled : (List.replicate (32 - (Word256.numberBytes n).length) 0 ++
      Word256.numberBytes n).length = 32 := by
    rw [List.length_append, List.length_replicate]
    omega
  have made := Word256.ofBytes?_eq filled
  rw [Word256.bigEndian_zeros, Word256.bigEndian_numberBytes] at made
  rw [ofNumber?, if_neg narrow, missing, Option.bind_eq_bind, Option.bind_some, made]
  rfl

/-- No step breaks off: the divisor is at least `2 ^ 32`, so the quotient has at most 256 bits. -/
theorem ofDifficulty?_eq (d : Float) : ofDifficulty? d = some (ofDifficulty d) := by
  unfold ofDifficulty? ofDifficulty
  by_cases refused : (!d.isFinite || decide (d < 1)) = true
  · rw [if_pos refused, if_pos refused]
  · obtain ⟨finite, least⟩ := admitted_of_check refused
    rw [if_neg refused, if_neg refused]
    rcases scaled_cases finite least with ⟨m, e, scaled, large⟩ | scaled
    · have some_divisor : truncated m e ≠ 0 :=
        Nat.ne_of_gt (Nat.lt_of_lt_of_le (Nat.two_pow_pos _) large)
      have fits := Nat.lt_of_le_of_lt (quotient_le large) (show maxValue < 2 ^ 256 by decide)
      rw [scaled]
      dsimp only
      rw [checkedDiv, if_neg some_divisor, Option.bind_eq_bind, Option.bind_some, ofNumber?_eq fits]
    · rw [scaled]

theorem ofDifficulty_ne_tooWide (d : Float) : ofDifficulty d ≠ .error tooWide := by
  intro wide
  unfold ofDifficulty at wide
  split at wide
  · cases wide
  · split at wide <;> cases wide

/-- A greater difficulty never has an easier target, and the least one has the greatest target; for
no number the division is one by zero, the quotient wider than a target or its padding below
zero. -/
theorem ofDifficulty_antitone :
    (∀ d e : Float, 1 ≤ d → d ≤ e → ∀ t, ofDifficulty e = .ok t →
      ∃ s, ofDifficulty d = .ok s ∧ t ≤ s) ∧
    ofDifficulty 1 = .ok max ∧
    ∀ d : Float, ofDifficulty? d = some (ofDifficulty d) ∧
      ofDifficulty? d ≠ some (.error tooWide) := by
  refine ⟨fun d e least le t => exists_easier least le, ofDifficulty_one, fun d => ?_⟩
  have whole := ofDifficulty?_eq d
  refine ⟨whole, ?_⟩
  rw [whole]
  exact fun wide => ofDifficulty_ne_tooWide d (Option.some.inj wide)

/-- A difficulty of two and a half beside the greatest one. -/
theorem ofDifficulty_antitone_of_fraction :
    ((1 : Float) ≤ 2.5 ∧ 2.5 ≤ Difficulty.greatest ∧
      ofDifficulty Difficulty.greatest = .ok hardest) ∧
    ∃ s, ofDifficulty 2.5 = .ok s ∧ hardest ≤ s := by
  have least : (1 : Float) ≤ 2.5 := by decide +kernel
  have le : 2.5 ≤ Difficulty.greatest := by decide +kernel
  obtain ⟨ordered, -⟩ := ofDifficulty_antitone
  exact ⟨⟨least, le, ofDifficulty_greatest⟩, ordered 2.5 _ least le _ ofDifficulty_greatest⟩

end Target
end ProofOfWork
