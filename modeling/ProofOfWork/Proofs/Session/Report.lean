import ProofOfWork.Proofs.Engine.Cancellation
import ProofOfWork.Proofs.Session.Chain
set_option autoImplicit false

namespace ProofOfWork

theorem Hasher.checkInput_length (h : Hasher) {a b : List UInt8} (same : a.length = b.length) :
    h.checkInput a = h.checkInput b := by
  simp only [checkInput, same]

@[simp] theorem length_salted (payload : List UInt8) (number : UInt64) :
    (salted payload number).length = payload.length + 8 := List.length_append

theorem salted_ne_nil (payload : List UInt8) (number : UInt64) : salted payload number ≠ [] := by
  intro empty
  have length := length_salted payload number
  rw [empty, List.length_nil] at length
  omega

theorem SessionConfig.maxAttempts_pos {config : SessionConfig} (valid : config.check = .ok ()) :
    1 ≤ config.maxAttempts.toNat := by
  refine one_le_toNat fun zero => ?_
  rw [check, if_pos zero] at valid
  cases valid

namespace Session
variable {config : SessionConfig} {payload : List UInt8} {e : Engine}

/-- The data of all rounds are equally long, so all are taken or none is. -/
theorem checkInput_salted (h : Hasher) (payload : List UInt8) (number : UInt64) :
    h.checkInput (salted payload number) = h.checkInput (salted payload 0) :=
  h.checkInput_length (by rw [length_salted, length_salted])

theorem request_admits (attempts : 1 ≤ config.maxAttempts.toNat)
    (taken : e.hasher.checkInput (salted payload 0) = .ok ()) (token : Token) (number : UInt64) :
    e.Admits (request config payload token number) :=
  ⟨salted_ne_nil payload number, attempts, (checkInput_salted _ _ _).trans taken⟩

/-- The solutions of a round: it searches from the nonce zero on. -/
theorem request_solves (e : Engine) (config : SessionConfig) (payload : List UInt8) (token : Token)
    (number : UInt64) :
    e.Solves (request config payload token number) = fun n =>
      n.value.toNat < min config.maxAttempts.toNat (2 ^ 64 - 1) ∧
        e.target.accepts (e.hasher.digest (payload ++ littleEndian number) n) = true := by
  funext n
  refine propext (and_congr_left fun _ => ?_)
  simp only [SearchRequest.Covers, request, UInt64.toNat_zero, Nat.zero_le, Nat.zero_add, true_and]

theorem roundsAmid_ended (given : UInt64 → Option Target) (script : UInt64 → Circumstances)
    (attempts : 1 ≤ config.maxAttempts.toNat) (count : Nat) (number : UInt64) {e : Engine}
    (token : Token) (taken : e.hasher.checkInput (salted payload 0) = .ok ()) :
    let rounds := roundsAmid given script config payload count number e token
    rounds.ended = none ∧ rounds.outcomes.length = count ∨
      rounds.ended = some (.cancelled "mining") ∧ rounds.outcomes.length < count ∧
        (1 ≤ e.workers → token = .fired ∨ ∃ number, .fire ∈ (script number).schedule) := by
  -- on the rounds that are left; the hasher and the workers are those of the first one
  induction count generalizing number e token with
  | zero => exact .inl ⟨rfl, rfl⟩
  | succ count ih =>
      let now := e.setTarget ((given number).getD e.target)
      have admits : now.Admits (request config payload token number) :=
        request_admits (e := now) attempts taken token number
      cases answer : (now.search (request config payload token number) (script number)).answer with
      | error fault =>
          rw [roundsAmid_refused given count e answer rfl, admits.error_eq answer]
          refine .inr ⟨rfl, Nat.succ_pos count, fun workers => ?_⟩
          exact (admits.error_fired workers answer).imp_right fun fires => ⟨number, fires⟩
      | ok a =>
          rw [roundsAmid_answered given count e answer rfl]
          dsimp only
          have frame := now.search_frame (request config payload token number) (script number)
          have burnt := Engine.token_fired (e := now) (r := request config payload token number)
            (c := script number)
          generalize now.search (request config payload token number) (script number) = searched
            at frame burnt
          obtain ⟨hasher, same⟩ : (retarget config searched.engine
              (outcome searched.engine payload number a)).hasher = e.hasher ∧
              (retarget config searched.engine
                (outcome searched.engine payload number a)).workers = e.workers := by
            rw [retarget_eq, frame]
            exact ⟨rfl, rfl⟩
          rcases ih (number + 1) searched.token (by rw [hasher]; exact taken) with
            ⟨whole, length⟩ | ⟨early, length, fired⟩
          · exact .inl ⟨whole, congrArg (· + 1) length⟩
          · refine .inr ⟨early, Nat.succ_lt_succ length, fun workers => ?_⟩
            rcases fired (by rw [same]; exact workers) with before | later
            · exact (burnt before).imp_right fun fires => ⟨number, fires⟩
            · exact .inr later

/-- Data that the hasher does not take ends a session in its first round and changes nothing. -/
theorem roundsAmid_untaken (script : UInt64 → Circumstances)
    (attempts : 1 ≤ config.maxAttempts.toNat) (count : Nat) (token : Token) {fault : Error}
    (refused : e.hasher.checkInput (salted payload 0) = .error fault) :
    let rounds := roundsAmid (fun _ => none) script config payload (count + 1) 0 e token
    rounds.ended = some fault ∧ rounds.engine = e := by
  obtain ⟨cause, rfl⟩ := Hasher.checkInput_error refused
  have prepared : e.prepare (request config payload token 0) = .error (.invalidInput cause) :=
    Engine.prepare_refused (salted_ne_nil payload 0) attempts refused
  have searched := Engine.search_refused (c := script 0) prepared
  have refused := congrArg Searched.answer searched
  rw [roundsAmid_refused (fun _ => none) count e refused rfl]
  exact ⟨rfl, congrArg Searched.engine searched⟩

/-- What the report says of the round with the number `i`, which was mined against the target `t`
and was followed by the target `next`. -/
structure Recorded (config : SessionConfig) (payload : List UInt8) (e : Engine)
    (script : UInt64 → Circumstances) (i : Nat) (t next : Target) (o : RoundOutcome) : Prop where
  number : o.round.toNat = i
  searched : ∃ token, ((e.setTarget t).search (request config payload token o.round)
    (script o.round)).answer = .ok ⟨o.result, t, o.attempts, o.elapsed⟩
  genuine : 1 ≤ e.workers → o.result.Genuine
    (fun n => n.value.toNat < min config.maxAttempts.toNat (2 ^ 64 - 1) ∧
      t.accepts (e.hasher.digest (payload ++ littleEndian o.round) n) = true)
    (e.hasher.digest (payload ++ littleEndian o.round))
  lowest : 1 ≤ e.workers → e.config.mode = .lowest → o.result.Lowest
    (fun n => n.value.toNat < min config.maxAttempts.toNat (2 ^ 64 - 1) ∧
      t.accepts (e.hasher.digest (payload ++ littleEndian o.round) n) = true)
    (e.hasher.digest (payload ++ littleEndian o.round))
  verdict : o.verdict = none ↔ o.result = .exhausted
  difficulty : o.difficulty = .of t
  rate : o.hashRate = .measured o.attempts.toNat o.elapsed
  moves : config.retarget = true → next =
    if (nextDifficulty config o).value != o.difficulty.value then (nextDifficulty config o).target
    else t
  fixed : config.retarget = false → next = t

theorem Mined.recorded {script : UInt64 → Circumstances} {number : UInt64} {t : Target}
    {o : RoundOutcome} (mined : Mined config payload e (script number) number t o) :
    Recorded config payload e script number.toNat t (moved config t o) o := by
  have same := mined.round_eq
  subst same
  refine ⟨rfl, mined.search_eq, ?_, ?_, mined.verdict_eq_none_iff, mined.difficulty_eq,
    mined.hashRate_eq, fun wanted => moved_wanted wanted t o, fun fixed => moved_fixed fixed t o⟩
  · intro workers
    have genuine := mined.genuine workers .absent
    rw [request_solves] at genuine
    exact genuine
  · intro workers mode
    have lowest := mined.lowest workers mode .absent
    rw [request_solves] at lowest
    exact lowest

/-- What the report on a session says, where `target i` is the target of the round `i`. -/
structure Reported (config : SessionConfig) (e : Engine) (payload : List UInt8) (rounds : UInt64)
    (token : Token) (script : UInt64 → Circumstances) (after : Engine) (report : SessionReport)
    (target : Nat → Target) : Prop where
  first : target 0 = e.target
  last : target report.rounds.length = report.finalTarget
  left : after.target = report.finalTarget
  count : report.rounds.length ≤ rounds.toNat
  cancelled : report.cancelled = true ↔ report.rounds.length < rounds.toNat
  fired : report.cancelled = true → 1 ≤ e.workers →
    token = .fired ∨ ∃ number, .fire ∈ (script number).schedule
  round : ∀ i o, report.rounds[i]? = some o →
    Recorded config payload e script i (target i) (target (i + 1)) o

theorem Rounds.report_ok {rs : Rounds} {requested : UInt64} {elapsed : Duration}
    {report : SessionReport} (reported : rs.report requested elapsed = .ok report) :
    report.rounds = rs.outcomes ∧ report.finalTarget = rs.engine.target := by
  unfold Rounds.report at reported
  dsimp only at reported
  split at reported
  · cases reported
    exact ⟨rfl, rfl⟩
  · cases reported
    exact ⟨rfl, rfl⟩
  · cases reported

theorem report_cases {rs : Rounds} {count : Nat} {early : Prop} (requested : UInt64)
    (elapsed : Duration) (ended : rs.ended = none ∧ rs.outcomes.length = count ∨
      rs.ended = some (.cancelled "mining") ∧ rs.outcomes.length < count ∧ early) :
    ∃ report, rs.report requested elapsed = .ok report ∧ report.rounds = rs.outcomes ∧
      report.finalTarget = rs.engine.target ∧ report.rounds.length ≤ count ∧
      (report.cancelled = true ↔ report.rounds.length < count) ∧
      (report.cancelled = true → early) := by
  rcases ended with ⟨whole, length⟩ | ⟨cut, length, reason⟩
  · simp only [Rounds.report, whole]
    have full := Nat.not_lt.mpr (Nat.le_of_eq length.symm)
    exact ⟨_, rfl, rfl, rfl, Nat.le_of_eq length, iff_of_false nofun full, nofun⟩
  · simp only [Rounds.report, cut]
    exact ⟨_, rfl, rfl, rfl, Nat.le_of_lt length, iff_of_true rfl length, fun _ => reason⟩

theorem runAmid_reports (given : UInt64 → Option Target) (config : SessionConfig) (e : Engine)
    (payload : List UInt8) (rounds : UInt64) (token : Token) (script : UInt64 → Circumstances)
    (elapsed : Duration) (attempts : 1 ≤ config.maxAttempts.toNat) (some_rounds : rounds ≠ 0)
    (taken : e.hasher.checkInput (salted payload 0) = .ok ()) :
    ∃ report, (runAmid given config e payload rounds token script elapsed).report = .ok report ∧
      report.rounds = (roundsAmid given script config payload rounds.toNat 0 e token).outcomes ∧
      report.finalTarget =
        (roundsAmid given script config payload rounds.toNat 0 e token).engine.target ∧
      report.rounds.length ≤ rounds.toNat ∧
      (report.cancelled = true ↔ report.rounds.length < rounds.toNat) ∧
      (report.cancelled = true → 1 ≤ e.workers →
        token = .fired ∨ ∃ number, .fire ∈ (script number).schedule) := by
  have ended := roundsAmid_ended given script attempts rounds.toNat 0 token taken
  rw [runAmid, if_neg some_rounds]
  exact report_cases rounds elapsed ended

/-- Without rounds, or with data that the hasher does not take, a session is refused, always for the
same reason, and the engine stays as it is. -/
theorem runAmid_refused (config : SessionConfig) (e : Engine) (payload : List UInt8)
    (rounds : UInt64) (attempts : 1 ≤ config.maxAttempts.toNat)
    (refused : rounds = 0 ∨ e.hasher.checkInput (salted payload 0) ≠ .ok ()) :
    ∃ cause, ∀ (token : Token) (script : UInt64 → Circumstances) (elapsed : Duration),
      let left := runAmid (fun _ => none) config e payload rounds token script elapsed
      left.report = .error (.invalidInput cause) ∧ left.engine = e := by
  by_cases none : rounds = 0
  · refine ⟨.noRounds, fun token script elapsed => ?_⟩
    rw [runAmid, if_pos none]
    exact ⟨rfl, rfl⟩
  · cases taken : e.hasher.checkInput (salted payload 0) with
    | ok => exact absurd taken (refused.resolve_left none)
    | error fault =>
        obtain ⟨cause, rfl⟩ := Hasher.checkInput_error taken
        obtain ⟨count, more⟩ := Nat.exists_eq_succ_of_ne_zero (Nat.ne_of_gt (one_le_toNat none))
        refine ⟨cause, fun token script elapsed => ?_⟩
        obtain ⟨ended, same⟩ := roundsAmid_untaken script attempts count token taken
        rw [runAmid, if_neg none]
        simp only [more, Nat.succ_eq_add_one, Rounds.report, ended]
        exact ⟨trivial, same⟩

/-- Whenever the token fires, a session with valid settings reports the rounds that were completed,
each with the target it was mined against. Without rounds or with data that the hasher does not
take, the input is refused and the engine is as before. -/
theorem run_reported (config : SessionConfig) (e : Engine) (payload : List UInt8) (rounds : UInt64)
    (token : Token) (script : UInt64 → Circumstances) (elapsed : Duration)
    (valid : config.check = .ok ()) (alone : ∀ number, (script number).replaced = none) :
    (rounds ≠ 0 ∧ e.hasher.checkInput (salted payload 0) = .ok () →
      ∃ report target, (run config e payload rounds token script elapsed).report = .ok report ∧
        Reported config e payload rounds token script
          (run config e payload rounds token script elapsed).engine report target) ∧
    (rounds = 0 ∨ e.hasher.checkInput (salted payload 0) ≠ .ok () →
      (∃ cause, (run config e payload rounds token script elapsed).report =
        .error (.invalidInput cause)) ∧
      (run config e payload rounds token script elapsed).engine = e) := by
  have attempts := SessionConfig.maxAttempts_pos valid
  rw [run_eq]
  constructor
  · rintro ⟨some_rounds, taken⟩
    obtain ⟨report, reported, outcomes, final, few, cancelled, fired⟩ :=
      runAmid_reports (fun _ => none) config e payload rounds token script elapsed attempts
        some_rounds taken
    obtain ⟨last, chain, live⟩ := roundsAmid_chain (fun _ => none) script config payload e
      rounds.toNat 0 e.target e.ledger token
    obtain ⟨target, first, at_end, links⟩ := chain.targets
    have left := live (fun _ => rfl) alone
    refine ⟨report, target, reported, first, ?_, ?_, few, cancelled, fired, ?_⟩
    · rw [outcomes, final]
      exact at_end.trans left.symm
    · rw [runAmid, if_neg some_rounds]
      exact final.symm
    · intro i o here
      have inside := (List.getElem?_eq_some_iff.mp here).1
      rw [outcomes] at here
      obtain ⟨mined, next⟩ := links i o here
      have number : ((0 : UInt64) + i.toUInt64).toNat = i := by
        have fits := rounds.toNat_lt
        rw [UInt64.zero_add]
        exact Nat.mod_eq_of_lt (by omega)
      have recorded := mined.recorded
      rw [number] at recorded
      rw [next, alone]
      exact recorded
  · intro refused
    obtain ⟨cause, always⟩ := runAmid_refused config e payload rounds attempts refused
    obtain ⟨report, same⟩ := always token script elapsed
    exact ⟨⟨cause, report⟩, same⟩

/-- Three rounds over the empty payload, in the second of which the token fires. The first one finds
the only solution. And a single round of one second, after which the target moves from zero to that
of the difficulty three, for three nonces were hashed in a second that should take a second. -/
theorem run_reported_of_empty :
    (∃ report, (run { maxAttempts := 9, retarget := false } (Engine.marking [2] .lowest 2) [] 3
        .idle (fun number => if number = 1 then { schedule := [.work 1 0, .fire] } else {})
        .zero).report = .ok report ∧
      (report.cancelled = true ↔ report.rounds.length < 3) ∧
      ∀ o, report.rounds[0]? = some o → o.result = .found ⟨2⟩ ⟨.zero⟩) ∧
    ∃ report o, (run { maxAttempts := 9 } (Engine.marking [2] .lowest 2) [] 1 .idle
        (fun _ => { elapsed := .ofSeconds 1 }) .zero).report = .ok report ∧
      report.rounds[0]? = some o ∧ (nextDifficulty { maxAttempts := 9 } o).target =
        report.finalTarget ∧ report.finalTarget = Difficulty.target ⟨3⟩ := by
  constructor
  · obtain ⟨reports, -⟩ := run_reported { maxAttempts := 9, retarget := false }
      (Engine.marking [2] .lowest 2) [] 3 .idle
      (fun number => if number = 1 then { schedule := [.work 1 0, .fire] } else {}) .zero rfl
      (by intro number; split <;> rfl)
    obtain ⟨report, target, reported, told⟩ := reports ⟨by decide, rfl⟩
    refine ⟨report, reported, told.cancelled, ?_⟩
    intro o first
    have genuine := (told.round 0 o first).genuine (by decide)
    rw [told.first] at genuine
    cases result : o.result with
    | found n digest =>
        rw [result] at genuine
        obtain ⟨⟨-, accepted⟩, rfl⟩ := genuine
        have marked := List.mem_singleton.mp ((Hasher.marking_accepts [2] _ n).mp accepted)
        obtain ⟨value⟩ := n
        subst marked
        rfl
    | exhausted =>
        rw [result] at genuine
        exact absurd
          ⟨by decide, (Hasher.marking_accepts [2] _ ⟨2⟩).mpr (List.mem_singleton.mpr rfl)⟩
          (genuine ⟨2⟩)
  · obtain ⟨reports, -⟩ := run_reported { maxAttempts := 9 } (Engine.marking [2] .lowest 2) [] 1
      .idle (fun _ => { elapsed := .ofSeconds 1 }) .zero rfl (fun _ => rfl)
    obtain ⟨report, target, reported, told⟩ := reports ⟨by decide, rfl⟩
    have seen : (run { maxAttempts := 9 } (Engine.marking [2] .lowest 2) [] 1 .idle
        (fun _ => { elapsed := .ofSeconds 1 }) .zero).report.toOption.map (fun report =>
          (report.rounds.length, report.finalTarget)) = some (1, Difficulty.target ⟨3⟩) := by
      decide +kernel
    rw [reported] at seen
    obtain ⟨length, final⟩ := Prod.mk.inj (Option.some.inj seen)
    obtain ⟨o, rounds⟩ := List.length_eq_one_iff.mp length
    have first : report.rounds[0]? = some o := by rw [rounds]; rfl
    have next := (told.round 0 o first).moves rfl
    have last : target 1 = report.finalTarget := by rw [← told.last, length]
    have away : Difficulty.target ⟨3⟩ ≠ .zero := by decide +kernel
    refine ⟨report, o, reported, first, ?_, final⟩
    -- a target that had stayed would be the one before the session
    split at next
    · exact next.symm.trans last
    · rw [last, final, told.first] at next
      exact absurd next away

end Session
end ProofOfWork
