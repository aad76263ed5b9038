import ProofOfWork.Proofs.Engine.Verification
import ProofOfWork.Session.Run
set_option autoImplicit false

/-!
The rounds of a session as a chain of targets. A round is mined against the target that the engine
has when its search begins, its solution is checked against the target that the engine has when the
search is over, and the target of the next round follows from both. Other holders of the engine may
give it targets between the rounds and while a round is mined.
-/
namespace ProofOfWork.Session

/-- The verdict of the engine's current target on what a search found. -/
def judged (e : Engine) (data : List UInt8) : SearchResult → Option Verdict
  | .found nonce digest => some (e.verdict data nonce digest)
  | .exhausted => none

/-- What is reported of a round whose search was answered; `e` is the engine after the search. -/
def outcome (e : Engine) (payload : List UInt8) (number : UInt64) (a : SearchOutcome) :
    RoundOutcome where
  round := number
  result := a.result
  verdict := judged e (salted payload number) a.result
  difficulty := .of a.target
  attempts := a.attempts
  elapsed := a.elapsed
  hashRate := a.hashRate

/-- The target after a round that ends with the target `t`. -/
def moved (config : SessionConfig) (t : Target) (o : RoundOutcome) : Target :=
  if config.retarget && (nextDifficulty config o).value != o.difficulty.value then
    (nextDifficulty config o).target
  else t

theorem retarget_eq (config : SessionConfig) (e : Engine) (o : RoundOutcome) :
    retarget config e o = e.setTarget (moved config e.target o) := by
  unfold retarget moved
  dsimp only
  split <;> rfl

theorem moved_wanted {config : SessionConfig} (wanted : config.retarget = true) (t : Target)
    (o : RoundOutcome) : moved config t o =
      if (nextDifficulty config o).value != o.difficulty.value then (nextDifficulty config o).target
      else t := by
  simp only [moved, wanted, Bool.true_and]

theorem moved_fixed {config : SessionConfig} (fixed : config.retarget = false) (t : Target)
    (o : RoundOutcome) : moved config t o = t := by
  simp only [moved, fixed, Bool.false_and, Bool.false_eq_true, if_false]

section Round
variable {c : Circumstances} {config : SessionConfig} {payload : List UInt8} {number : UInt64}
  {e : Engine} {token : Token}

theorem roundOn_refused {fault : Error}
    (refused : (e.search (request config payload token number) c).answer = .error fault) :
    Id.run (roundOn (Host.scripted c) config payload number e token) =
      ⟨.error fault, (e.search (request config payload token number) c).engine,
        (e.search (request config payload token number) c).token⟩ := by
  rw [Engine.search] at refused
  simp only [roundOn, Id.run_bind, refused]
  rfl

theorem roundOn_answered {a : SearchOutcome}
    (answered : (e.search (request config payload token number) c).answer = .ok a) :
    Id.run (roundOn (Host.scripted c) config payload number e token) =
      let left := (e.search (request config payload token number) c).engine
      ⟨.ok (outcome left payload number a), retarget config left (outcome left payload number a),
        (e.search (request config payload token number) c).token⟩ := by
  rw [Engine.search] at answered
  simp only [roundOn, Id.run_bind, answered]
  cases result : a.result <;> simp only [outcome, result, judged] <;> rfl

end Round

/-- A round of a session amid others: the engine and the token when its search begins, and what it
leaves behind. -/
structure Turn where
  number : UInt64
  engine : Engine
  token : Token
  left : Round

def Turn.request (config : SessionConfig) (payload : List UInt8) (t : Turn) : SearchRequest :=
  Session.request config payload t.token t.number

/-- Why the turn has no outcome. -/
def Turn.fault? (t : Turn) : Option Error :=
  match t.left.outcome with
  | .error fault => some fault
  | .ok _ => none

/-- What turns have left when the last of them is over. -/
def Rounds.of (e : Engine) (token : Token) (turns : List Turn) : Rounds where
  outcomes := turns.filterMap fun t => t.left.outcome.toOption
  ended := turns.getLast?.bind Turn.fault?
  engine := (turns.getLast?.map fun t => t.left.engine).getD e
  token := (turns.getLast?.map fun t => t.left.token).getD token

section Amid
variable (given : UInt64 → Option Target) (script : UInt64 → Circumstances)
  (config : SessionConfig) (payload : List UInt8)

/-- A turn amid others, who give the engine the target `given number` last before the search of the
round begins. The targets that they give while it is mined stand in the script. -/
def turn (number : UInt64) (e : Engine) (token : Token) : Turn :=
  let engine := e.setTarget ((given number).getD e.target)
  let left := Id.run <| roundOn (Host.scripted (script number)) config payload number engine token
  { number, engine, token, left }

/-- At most so many turns, one after another; one without an outcome is the last. -/
def turns : Nat → UInt64 → Engine → Token → List Turn
  | 0, _, _, _ => []
  | count + 1, number, e, token =>
    let t := turn given script config payload number e token
    t :: match t.left.outcome with
      | .error _ => []
      | .ok _ => turns count (number + 1) t.left.engine t.left.token

/-- So many rounds amid others. -/
def roundsAmid (count : Nat) (number : UInt64) (e : Engine) (token : Token) : Rounds :=
  .of e token (turns given script config payload count number e token)

end Amid

section Turns
variable {given : UInt64 → Option Target} {script : UInt64 → Circumstances}
  {config : SessionConfig} {payload : List UInt8} {count : Nat} {number : UInt64} {e : Engine}
  {token : Token}

theorem turns_error {fault : Error}
    (refused : (turn given script config payload number e token).left.outcome = .error fault) :
    turns given script config payload (count + 1) number e token =
      [turn given script config payload number e token] := by
  simp only [turns, refused]

theorem turns_ok {o : RoundOutcome}
    (completed : (turn given script config payload number e token).left.outcome = .ok o) :
    turns given script config payload (count + 1) number e token =
      let t := turn given script config payload number e token
      t :: turns given script config payload count (number + 1) t.left.engine t.left.token := by
  simp only [turns, completed]

theorem Rounds.of_cons (e : Engine) (token : Token) {t : Turn} {o : RoundOutcome}
    (completed : t.left.outcome = .ok o) (rest : List Turn) :
    Rounds.of e token (t :: rest) =
      let later := Rounds.of t.left.engine t.left.token rest
      { later with outcomes := o :: later.outcomes } := by
  cases last : rest.getLast? <;>
    simp [of, List.getLast?_cons, last, completed, Except.toOption, Turn.fault?]

/-- What holds of every turn that begins well, if a turn that begins well and is completed lets the
next one begin well. -/
theorem turns_all (well : Engine → Prop) {holds : Turn → Prop}
    (here : ∀ number e token, well e → holds (turn given script config payload number e token))
    (next : ∀ number e token o, well e →
      (turn given script config payload number e token).left.outcome = .ok o →
        well (turn given script config payload number e token).left.engine)
    (begun : well e) : ∀ t ∈ turns given script config payload count number e token, holds t := by
  induction count generalizing number e token with
  | zero =>
      intro t member
      cases member
  | succ count ih =>
      intro t member
      cases outcome : (turn given script config payload number e token).left.outcome with
      | error fault =>
          rw [turns_error outcome] at member
          rw [List.mem_singleton.mp member]
          exact here number e token begun
      | ok o =>
          rw [turns_ok outcome] at member
          rcases List.mem_cons.mp member with rfl | later
          · exact here number e token begun
          · exact ih (next number e token o begun outcome) t later

end Turns

section Amid
variable (given : UInt64 → Option Target) {script : UInt64 → Circumstances}
  {config : SessionConfig} {payload : List UInt8} (count : Nat) {number : UInt64} (e : Engine)
  {token : Token}

theorem turn_refused {now : Engine} {fault : Error}
    (refused : (now.search (request config payload token number) (script number)).answer =
      .error fault) (begun : e.setTarget ((given number).getD e.target) = now) :
    turn given script config payload number e token =
      let searched := now.search (request config payload token number) (script number)
      ⟨number, now, token, ⟨.error fault, searched.engine, searched.token⟩⟩ := by
  simp only [turn, begun, roundOn_refused refused]

theorem turn_answered {now : Engine} {a : SearchOutcome}
    (answered : (now.search (request config payload token number) (script number)).answer = .ok a)
    (begun : e.setTarget ((given number).getD e.target) = now) :
    turn given script config payload number e token =
      let searched := now.search (request config payload token number) (script number)
      let o := outcome searched.engine payload number a
      ⟨number, now, token, ⟨.ok o, retarget config searched.engine o, searched.token⟩⟩ := by
  simp only [turn, begun, roundOn_answered answered]

theorem roundsAmid_refused {now : Engine} {fault : Error}
    (refused : (now.search (request config payload token number) (script number)).answer =
      .error fault) (begun : e.setTarget ((given number).getD e.target) = now) :
    roundsAmid given script config payload (count + 1) number e token =
      let searched := now.search (request config payload token number) (script number)
      ⟨[], some fault, searched.engine, searched.token⟩ := by
  have here := turn_refused given e refused begun
  rw [roundsAmid, turns_error (by rw [here]), here]
  rfl

theorem roundsAmid_answered {now : Engine} {a : SearchOutcome}
    (answered : (now.search (request config payload token number) (script number)).answer = .ok a)
    (begun : e.setTarget ((given number).getD e.target) = now) :
    roundsAmid given script config payload (count + 1) number e token =
      let searched := now.search (request config payload token number) (script number)
      let o := outcome searched.engine payload number a
      let rest := roundsAmid given script config payload count (number + 1)
        (retarget config searched.engine o) searched.token
      { rest with outcomes := o :: rest.outcomes } := by
  have here := turn_answered given e answered begun
  rw [roundsAmid, turns_ok (by rw [here]), Rounds.of_cons e token (by rw [here]), here]
  rfl

end Amid

/-- A session amid others. -/
def runAmid (given : UInt64 → Option Target) (config : SessionConfig) (e : Engine)
    (payload : List UInt8) (rounds : UInt64) (token : Token) (script : UInt64 → Circumstances)
    (elapsed : Duration) : SessionEnd :=
  if rounds = 0 then ⟨.error (.invalidInput .noRounds), e, token⟩
  else
    let rs := roundsAmid given script config payload rounds.toNat 0 e token
    ⟨rs.report rounds elapsed, rs.engine, rs.token⟩

/-- Where nobody gives targets between the rounds, the rounds are those of the session alone. -/
theorem roundsOn_eq (script : UInt64 → Circumstances) (config : SessionConfig)
    (payload : List UInt8) (count : Nat) (number : UInt64) (e : Engine) (token : Token) :
    Id.run (roundsOn (fun number => Host.scripted (script number)) config payload count number e
      token) = roundsAmid (fun _ => none) script config payload count number e token := by
  induction count generalizing number e token with
  | zero => rfl
  | succ count ih =>
      have here : Id.run (roundOn (Host.scripted (script number)) config payload number e token) =
          (turn (fun _ => none) script config payload number e token).left := rfl
      simp only [roundsOn, Id.run_bind, here]
      rw [roundsAmid]
      cases outcome : (turn (fun _ => none) script config payload number e token).left.outcome with
      | error fault =>
          rw [turns_error outcome]
          simp [Rounds.of, outcome, Except.toOption, Turn.fault?]
      | ok o =>
          rw [turns_ok outcome, Rounds.of_cons e token outcome]
          simp only [Id.run_bind, ih]
          rfl

theorem run_eq (config : SessionConfig) (e : Engine) (payload : List UInt8) (rounds : UInt64)
    (token : Token) (script : UInt64 → Circumstances) (elapsed : Duration) :
    run config e payload rounds token script elapsed =
      runAmid (fun _ => none) config e payload rounds token script elapsed := by
  simp only [run, runOn, runAmid]
  split
  · rfl
  · rw [← roundsOn_eq]
    rfl

end ProofOfWork.Session
