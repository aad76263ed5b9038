import ProofOfWork.Proofs.Difficulty.Shares
set_option autoImplicit false

namespace ProofOfWork.Difficulty
open Decimal

section Adjusted
variable {tolerance : Float} {rate : HashRate} {period : Period} {d : Difficulty}

/-- The difficulty at which a search takes the period at the rate, moved between the bounds. -/
def wanted (rate : HashRate) (period : Period) : Difficulty := pruned ⟨rate.value * period.value⟩

/-- The rule keeps a difficulty or supplies one that is the same for all of them. -/
theorem adjusted_kept_or_wanted (tolerance : Float) (rate : HashRate) (period : Period)
    (d : Difficulty) :
    adjusted tolerance rate period d = d ∨
      adjusted tolerance rate period d = wanted rate period := by
  unfold adjusted
  dsimp only
  split
  · split
    · exact .inl rfl
    · exact .inr rfl
  · exact .inl rfl

/-- The supplied difficulty may be out of the tolerance by its rounding; then it is supplied again. -/
theorem adjusted_wanted (tolerance : Float) (rate : HashRate) (period : Period) :
    adjusted tolerance rate period (wanted rate period) = wanted rate period :=
  (adjusted_kept_or_wanted tolerance rate period (wanted rate period)).elim id id

theorem adjusted_adjusted (tolerance : Float) (rate : HashRate) (period : Period)
    (d : Difficulty) :
    adjusted tolerance rate period (adjusted tolerance rate period d) =
      adjusted tolerance rate period d := by
  rcases adjusted_kept_or_wanted tolerance rate period d with kept | supplied
  · rw [kept, kept]
  · rw [supplied]
    exact adjusted_wanted tolerance rate period

theorem adjusted_iterate (n : Nat) :
    (adjusted tolerance rate period)^[n + 1] d = adjusted tolerance rate period d := by
  rw [Function.iterate_succ_apply]
  exact Function.iterate_fixed (adjusted_adjusted tolerance rate period d) n

theorem adjusted_range (tolerance : Float) (rate : HashRate) (period : Period) (d : Difficulty) :
    let next := adjusted tolerance rate period d
    next = d ∨ (next = wanted rate period ∧ 1 ≤ next.value ∧ next.value ≤ 1e15) := by
  intro next
  rcases adjusted_cases tolerance rate period d with kept | bounded
  · exact .inl kept
  · rcases adjusted_kept_or_wanted tolerance rate period d with kept | supplied
    · exact .inl kept
    · exact .inr ⟨supplied, bounded.bounds⟩

/-- The rule settles in one step, whatever its arguments are: a difficulty that it has given is given
again for the same measurement, however often it is asked. That difficulty is the one before, or the
product of rate and period moved between the bounds; so it stays between the bounds if it was there. -/
theorem adjusted_settles (tolerance : Float) (rate : HashRate) (period : Period) (d : Difficulty) :
    let next := adjusted tolerance rate period d
    adjusted tolerance rate period next = next ∧
    (∀ n, (adjusted tolerance rate period)^[n + 1] d = next) ∧
    (next = d ∨ (next = pruned ⟨rate.value * period.value⟩ ∧ 1 ≤ next.value ∧ next.value ≤ 1e15)) ∧
    (1 ≤ d.value ∧ d.value ≤ 1e15 → 1 ≤ next.value ∧ next.value ≤ 1e15) := by
  intro next
  have range := adjusted_range tolerance rate period d
  refine ⟨adjusted_adjusted tolerance rate period d, fun n => adjusted_iterate n, range, ?_⟩
  intro inside
  rcases range with kept | ⟨-, bounds⟩
  · have same : next = d := kept
    rw [same]
    exact inside
  · exact bounds

/-- Without a tolerance the product of three hashes a second and two fifths of a second is not kept,
since its quotient by the rate is not the period; it is supplied a second time. -/
theorem adjusted_settles_of_rounding :
    let next := adjusted 0 ⟨3⟩ ⟨0.4⟩ ⟨1e15⟩
    ((1 : Float) ≤ 1e15 ∧ (1e15 : Float) ≤ 1e15) ∧ next.value < 2 ∧
      ¬ (next.value / 3 - 0.4).abs / 0.4 ≤ 0 ∧
      adjusted 0 ⟨3⟩ ⟨0.4⟩ next = next ∧ 1 ≤ next.value ∧ next.value ≤ 1e15 := by
  intro next
  have inside : (1 : Float) ≤ 1e15 ∧ (1e15 : Float) ≤ 1e15 := by decide +kernel
  obtain ⟨again, -, -, stays⟩ := adjusted_settles 0 ⟨3⟩ ⟨0.4⟩ ⟨1e15⟩
  have rounded : next.value < 2 ∧ ¬ (next.value / 3 - 0.4).abs / 0.4 ≤ 0 := by decide +kernel
  exact ⟨inside, rounded.1, rounded.2, again, stays inside⟩

end Adjusted
end ProofOfWork.Difficulty
