import ProofOfWork.Proofs.Session.Report
import ProofOfWork.Proofs.Target.Difficulty
set_option autoImplicit false

namespace ProofOfWork

namespace Session
variable {config : SessionConfig} {payload : List UInt8} {script : UInt64 → Circumstances}

theorem nextDifficulty_bounded {o : RoundOutcome} {t : Target} (searched : o.difficulty = .of t)
    (moves : ((nextDifficulty config o).value != o.difficulty.value) = true) :
    Difficulty.Bounded (nextDifficulty config o).value := by
  refine (Difficulty.adjusted_cases _ _ _ _).resolve_left fun same => ?_
  have kept : nextDifficulty config o = o.difficulty := same
  obtain ⟨units, number⟩ := Decimal.units_of_number t.difficulty_number
  have equal : (t.difficulty == t.difficulty) = true := (Decimal.beq_iff number number).mpr rfl
  rw [kept, searched, Difficulty.of, bne, equal] at moves
  cases moves

theorem moved_bounded {o : RoundOutcome} {t : Target} (searched : o.difficulty = .of t)
    (now : Target) : moved config now o = now ∨ (moved config now o).InBounds := by
  unfold moved
  split
  · rename_i moves
    have changed := (Bool.and_eq_true_iff.mp moves).2
    exact .inr (Target.target_bounded (nextDifficulty_bounded searched changed)).2
  · exact .inl rfl

section Held
variable (script : UInt64 → Circumstances) (config : SessionConfig) (payload : List UInt8)

/-- The targets that the engine has after the search of a turn and after the turn. -/
def Turn.held (t : Turn) : List Target :=
  [(t.engine.search (t.request config payload) (script t.number)).engine.target,
    t.left.engine.target]

/-- The targets that the engine has in the course of rounds, from the first one on. -/
def targetsHeld (count : Nat) (number : UInt64) (e : Engine) (token : Token) : List Target :=
  e.target :: (turns (fun _ => none) script config payload count number e token).flatMap
    (Turn.held script config payload)

end Held

section Turns
variable (alone : ∀ number, (script number).replaced = none) {first : Target} {count : Nat}
  {number : UInt64} {e : Engine} {token : Token}

include alone

/-- A search leaves the target as it is, and after it the target may move into the bounds. -/
theorem turn_targets (number : UInt64) (e : Engine) (token : Token) :
    let t := turn (fun _ => none) script config payload number e token
    (t.engine.search (t.request config payload) (script t.number)).engine.target = e.target ∧
    (t.left.engine.target = e.target ∨ t.left.engine.target.InBounds) ∧
    ∀ o, t.left.outcome = .ok o → o.difficulty = .of e.target := by
  have kept := (e.search_keeps (r := request config payload token number) (alone number)).2
  refine ⟨kept, ?_⟩
  cases answer : (e.search (request config payload token number) (script number)).answer with
  | error fault =>
      rw [turn_refused (fun _ => none) e answer rfl]
      exact ⟨.inl kept, nofun⟩
  | ok a =>
      obtain ⟨-, -, rfl⟩ := (Engine.admits_of_answer answer).answer_cases answer
      rw [turn_answered (fun _ => none) e answer rfl]
      dsimp only
      rw [retarget_eq, kept]
      refine ⟨moved_bounded (t := e.target) rfl _, ?_⟩
      rintro o ⟨⟩
      rfl

theorem turns_held (begun : e.target = first ∨ e.target.InBounds) :
    ∀ t ∈ turns (fun _ => none) script config payload count number e token,
      (∀ held ∈ t.held script config payload, held = first ∨ held.InBounds) ∧
      ∀ o, t.left.outcome = .ok o →
        ∃ held ∈ t.held script config payload, o.difficulty = .of held := by
  refine turns_all (fun now => now.target = first ∨ now.target.InBounds) ?_ ?_ begun
  · intro number now token well
    obtain ⟨kept, later, searched⟩ := turn_targets alone number now token
    refine ⟨?_, fun o completed => ⟨_, List.mem_cons_self, kept ▸ searched o completed⟩⟩
    intro held member
    rcases List.mem_pair.mp member with rfl | rfl
    · exact kept ▸ well
    · exact later.elim (fun same => same ▸ well) .inr
  · intro number now token o well _
    exact (turn_targets alone number now token).2.1.elim (fun same => same ▸ well) .inr

theorem targetsHeld_bounded (begun : e.target = first ∨ e.target.InBounds) :
    ∀ t ∈ targetsHeld script config payload count number e token, t = first ∨ t.InBounds := by
  intro target member
  rcases List.mem_cons.mp member with rfl | later
  · exact begun
  · obtain ⟨t, among, held⟩ := List.mem_flatMap.mp later
    exact (turns_held alone begun t among).1 target held

end Turns

/-- The engine ends with a target that it has held, and each round was mined against one. -/
theorem roundsAmid_held (config : SessionConfig) (payload : List UInt8)
    (alone : ∀ number, (script number).replaced = none) (count : Nat) (number : UInt64) (e : Engine)
    (token : Token) :
    let rounds := roundsAmid (fun _ => none) script config payload count number e token
    let held := targetsHeld script config payload count number e token
    rounds.engine.target ∈ held ∧ ∀ o ∈ rounds.outcomes, ∃ t ∈ held, o.difficulty = .of t := by
  constructor
  · cases last : (turns (fun _ => none) script config payload count number e token).getLast? with
    | none => simp [roundsAmid, Rounds.of, last, targetsHeld]
    | some t =>
        have left : t.left.engine.target ∈ t.held script config payload :=
          List.mem_cons_of_mem _ List.mem_cons_self
        rw [roundsAmid, Rounds.of, last]
        exact List.mem_cons_of_mem _
          (List.mem_flatMap.mpr ⟨t, List.mem_of_getLast? last, left⟩)
  · intro o member
    obtain ⟨t, among, made⟩ := List.mem_filterMap.mp member
    have completed : t.left.outcome = .ok o := by
      cases outcome : t.left.outcome with
      | error fault =>
          rw [outcome] at made
          cases made
      | ok p =>
          rw [outcome] at made
          cases made
          rfl
    obtain ⟨held, here, searched⟩ := (turns_held alone (.inl rfl) t among).2 o completed
    exact ⟨held, List.mem_cons_of_mem _ (List.mem_flatMap.mpr ⟨t, among, here⟩), searched⟩

/-- Whatever a session finds and however long its rounds take, each target that the engine has in
its course is the first one or lies between that of the greatest difficulty and the greatest target.
A round whose difficulty changes has a next target without the fallback, and it is not zero. -/
theorem run_targets_bounded (config : SessionConfig) (e : Engine) (payload : List UInt8)
    (rounds : UInt64) (token : Token) (script : UInt64 → Circumstances) (elapsed : Duration)
    (alone : ∀ number, (script number).replaced = none) :
    let held := targetsHeld script config payload rounds.toNat 0 e token
    let ended := run config e payload rounds token script elapsed
    Target.ofDifficulty Difficulty.greatest = .ok Target.hardest ∧ 0 < Target.hardest.value ∧
    (∀ t ∈ held, t = e.target ∨ t.InBounds) ∧ ended.engine.target ∈ held ∧
    (∀ report, ended.report = .ok report →
      report.finalTarget ∈ held ∧ ∀ o ∈ report.rounds, ∃ t ∈ held, o.difficulty = .of t) ∧
    ∀ (o : RoundOutcome) (t : Target), o.difficulty = .of t →
      ((nextDifficulty config o).value != o.difficulty.value) = true →
      ∃ next, Target.ofDifficulty (nextDifficulty config o).value = .ok next ∧
        next.InBounds ∧ next ≠ .zero ∧
        ∀ now : Engine, config.retarget = true → retarget config now o = now.setTarget next := by
  intro held ended
  obtain ⟨last, mined⟩ := roundsAmid_held config payload alone rounds.toNat 0 e token
  have whole : ended = _ := run_eq config e payload rounds token script elapsed
  have hardest : 0 < Target.hardest.value := by
    rw [Target.value_hardest]
    decide
  refine ⟨Target.ofDifficulty_greatest, hardest, ?_, ?_, ?_, ?_⟩
  · exact targetsHeld_bounded alone (.inl rfl)
  · rw [whole, runAmid]
    split
    · rename_i none
      subst none
      exact List.mem_singleton_self _
    · exact last
  · intro report reported
    rw [whole, runAmid] at reported
    split at reported
    · cases reported
    · obtain ⟨outcomes, final⟩ := Rounds.report_ok reported
      rw [outcomes, final]
      exact ⟨last, mined⟩
  · intro o t searched moves
    obtain ⟨made, bounds⟩ := Target.target_bounded (nextDifficulty_bounded searched moves)
    refine ⟨(nextDifficulty config o).target, made, bounds, ?_, ?_⟩
    · intro zero
      have positive := bounds.pos
      rw [zero] at positive
      exact absurd Target.value_zero (Nat.ne_of_gt positive)
    · intro now wanted
      rw [retarget_eq, moved, wanted, moves]
      rfl

/-- Three rounds of a second each, from the target zero on, whose difficulty is out of bounds. -/
theorem run_targets_bounded_from_zero :
    let ended := run { maxAttempts := 9 } (Engine.marking [2] .lowest 2) [] 3 .idle
      (fun _ => { elapsed := .ofSeconds 1 }) .zero
    (Engine.marking [2] .lowest 2).target = .zero ∧ ended.engine.target ≠ .zero ∧
      ended.engine.target.InBounds := by
  intro ended
  obtain ⟨-, -, bounds, last, -, -⟩ := run_targets_bounded { maxAttempts := 9 }
    (Engine.marking [2] .lowest 2) [] 3 .idle (fun _ => { elapsed := .ofSeconds 1 }) .zero
    (fun _ => rfl)
  have away : ended.engine.target ≠ .zero := by decide +kernel
  exact ⟨rfl, away, (bounds _ last).resolve_left away⟩

end Session
end ProofOfWork
