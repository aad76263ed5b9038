import Mathlib.Data.List.Nodup
import ProofOfWork.Proofs.Session.Ledger
set_option autoImplicit false

namespace ProofOfWork

theorem littleEndian_injective {a b : UInt64} (same : littleEndian a = littleEndian b) : a = b := by
  have bytes := congrArg (List.map UInt8.toNat) same
  simp only [littleEndian, List.map_cons, List.map_nil, UInt64.toNat_toUInt8,
    UInt64.toNat_shiftRight, UInt64.reduceToNat, Nat.reduceMod, Nat.shiftRight_eq_div_pow,
    List.cons.injEq, and_true] at bytes
  have small := a.toNat_lt
  have small' := b.toNat_lt
  exact UInt64.toNat_inj.mp (by omega)

theorem candidate_injective {data other : List UInt8} {m n : Nonce}
    (same : candidate data m = candidate other n) : data = other ∧ m = n := by
  obtain ⟨front, back⟩ := List.append_inj' same rfl
  exact ⟨front, congrArg Nonce.mk (littleEndian_injective back)⟩

theorem salted_injective {p q : List UInt8} {i j : UInt64} (same : salted p i = salted q j) :
    p = q ∧ i = j := by
  obtain ⟨front, back⟩ := List.append_inj' same rfl
  exact ⟨front, littleEndian_injective back⟩

namespace Session

theorem request_injective {config other : SessionConfig} {p q : List UInt8} {token used : Token}
    {i j : UInt64} {m n : Nonce} (same : candidate (request config p token i).data m =
      candidate (request other q used j).data n) : p = q ∧ i = j ∧ m = n := by
  obtain ⟨data, nonce⟩ := candidate_injective same
  obtain ⟨payload, round⟩ := salted_injective data
  exact ⟨payload, round, nonce⟩

section Inputs
variable (given : UInt64 → Option Target) (script : UInt64 → Circumstances)
  (config : SessionConfig) (payload : List UInt8)

/-- What a turn hashes, in order: the data of its search with each nonce. -/
def Turn.inputs (t : Turn) : List (List UInt8) :=
  (t.hashed script config payload).map (candidate (t.request config payload).data)

/-- What rounds amid others hash, in order. -/
def inputsAmid (count : Nat) (number : UInt64) (e : Engine) (token : Token) : List (List UInt8) :=
  (turns given script config payload count number e token).flatMap
    (Turn.inputs script config payload)

theorem turn_result (number : UInt64) (e : Engine) (token : Token) :
    let t := turn given script config payload number e token
    t.left.outcome.map (·.result) =
      (t.engine.search (t.request config payload) (script t.number)).answer.map (·.result) := by
  intro t
  have begun : e.setTarget ((given number).getD e.target) = t.engine := rfl
  cases answer : (t.engine.search (t.request config payload) (script t.number)).answer with
  | error fault =>
      have here : t = _ := turn_refused given e answer begun
      rw [here]
      rfl
  | ok a =>
      have here : t = _ := turn_answered given e answer begun
      rw [here]
      rfl

theorem turn_workers (number : UInt64) (e : Engine) (token : Token) :
    (turn given script config payload number e token).left.engine.workers = e.workers := by
  let now := e.setTarget ((given number).getD e.target)
  have frame := now.search_frame (request config payload token number) (script number)
  cases answer : (now.search (request config payload token number) (script number)).answer with
  | error fault =>
      rw [turn_refused given e answer rfl]
      dsimp only
      rw [frame]
      rfl
  | ok a =>
      rw [turn_answered given e answer rfl]
      dsimp only
      rw [retarget_eq, frame]
      rfl

end Inputs

section Turns
variable {given : UInt64 → Option Target} {script : UInt64 → Circumstances}
  {config : SessionConfig} {payload : List UInt8} {count : Nat} {number : UInt64} {e : Engine}
  {token : Token}

theorem turns_workers : ∀ t ∈ turns given script config payload count number e token,
    t.engine.workers = e.workers :=
  turns_all (fun now => now.workers = e.workers) (fun _ _ _ same => same)
    (fun number now token _ same _ =>
      (turn_workers given script config payload number now token).trans same) rfl

/-- The turns are numbered upwards as long as their numbers do not wrap. -/
theorem turns_ascending (room : number.toNat + count < 2 ^ 64) :
    (∀ t ∈ turns given script config payload count number e token,
      number.toNat ≤ t.number.toNat) ∧
    (turns given script config payload count number e token).Pairwise
      fun s t => s.number.toNat < t.number.toNat := by
  induction count generalizing number e token with
  | zero => simp [turns]
  | succ count ih =>
      cases outcome : (turn given script config payload number e token).left.outcome with
      | error fault =>
          rw [turns_error outcome]
          simp [turn]
      | ok o =>
          have next : (number + 1).toNat = number.toNat + 1 := by
            rw [UInt64.toNat_add, UInt64.toNat_one]
            omega
          rw [turns_ok outcome]
          have room : (number + 1).toNat + count < 2 ^ 64 := by omega
          let left := (turn given script config payload number e token).left
          obtain ⟨above, ascending⟩ := @ih (number + 1) left.engine left.token room
          rw [next] at above
          refine ⟨?_, List.pairwise_cons.mpr ⟨above, ascending⟩⟩
          intro t member
          rcases List.mem_cons.mp member with rfl | later
          · exact Nat.le_refl _
          · exact Nat.le_of_succ_le (above t later)

/-- No nonce is tried twice in a turn, and no number stands for two turns. -/
theorem inputsAmid_nodup (workers : 1 ≤ e.workers) (room : number.toNat + count < 2 ^ 64) :
    (inputsAmid given script config payload count number e token).Nodup := by
  rw [inputsAmid, List.nodup_flatMap]
  constructor
  · intro t member
    have same := turns_workers t member
    refine (t.engine.hashedIn_nodup _ _ (by rw [same]; exact workers)).map ?_
    exact fun m n equal => (candidate_injective equal).2
  · refine (turns_ascending room).2.imp fun {s t} below bytes here there => ?_
    obtain ⟨m, -, rfl⟩ := List.mem_map.mp here
    obtain ⟨n, -, equal⟩ := List.mem_map.mp there
    have number := (request_injective equal).2.1
    rw [number] at below
    exact Nat.lt_irrefl _ below

theorem length_inputsAmid : (inputsAmid given script config payload count number e token).length =
    (hashedAmid given script config payload count number e token).length := by
  simp [inputsAmid, hashedAmid, List.length_flatMap, Turn.inputs]

theorem of_mem_inputsAmid {bytes : List UInt8}
    (member : bytes ∈ inputsAmid given script config payload count number e token) :
    ∃ token i n, candidate (request config payload token i).data n = bytes := by
  obtain ⟨t, -, here⟩ := List.mem_flatMap.mp member
  obtain ⟨n, -, same⟩ := List.mem_map.mp here
  exact ⟨t.token, t.number, n, same⟩

end Turns

/-- A named algorithm digests the data that a session asks the engine to search, with the nonce
behind them, and from these bytes the payload, the round and the nonce are known. The rounds of a
session are reported with the results of these searches. So a session hashes no input twice in all
its rounds, as many as it counts, and sessions over different payloads have none in common, whatever
engines they run on and whatever targets they are given. -/
theorem inputs_distinct :
    (∀ (a : HashAlgorithm) (e : Engine) (config : SessionConfig) (p : List UInt8) (token : Token)
      (i : UInt64) (plan : Search.Plan), e.hasher = .of a →
      e.prepare (request config p token i) = .ok plan → ∀ n,
        plan.task.digest n =
          a.digestBytes ⟨(candidate (request config p token i).data n).toArray⟩) ∧
    (∀ (config config' : SessionConfig) (p q : List UInt8) (token token' : Token) (i j : UInt64)
      (m n : Nonce), candidate (request config p token i).data m =
        candidate (request config' q token' j).data n → p = q ∧ i = j ∧ m = n) ∧
    (∀ (given : UInt64 → Option Target) (script : UInt64 → Circumstances) (config : SessionConfig)
      (payload : List UInt8) (rounds : UInt64) (e : Engine) (token : Token) (elapsed : Duration),
      let made := turns given script config payload rounds.toNat 0 e token
      (∀ t ∈ made, t.left.outcome.map (·.result) =
        (t.engine.search (request config payload t.token t.number)
          (script t.number)).answer.map (·.result)) ∧
      (∀ report,
        (runAmid given config e payload rounds token script elapsed).report = .ok report →
        report.rounds = made.filterMap fun t => t.left.outcome.toOption) ∧
      (1 ≤ e.workers → (inputsAmid given script config payload rounds.toNat 0 e token).Nodup ∧
        (inputsAmid given script config payload rounds.toNat 0 e token).length =
          (hashedAmid given script config payload rounds.toNat 0 e token).length)) ∧
    ∀ (given given' : UInt64 → Option Target) (script script' : UInt64 → Circumstances)
      (config config' : SessionConfig) (p q : List UInt8) (rounds rounds' : UInt64)
      (e e' : Engine) (token token' : Token), p ≠ q →
      ∀ bytes ∈ inputsAmid given script config p rounds.toNat 0 e token,
        bytes ∉ inputsAmid given' script' config' q rounds'.toNat 0 e' token' := by
  refine ⟨?_, fun _ _ _ _ _ _ _ _ _ _ => request_injective, ?_, ?_⟩
  · intro a e config p token i plan named prepared n
    obtain ⟨rfl, -⟩ := (Engine.admits_of_prepare prepared).prepare_eq prepared
    simp only [Engine.plan, named]
    rfl
  · intro given script config payload rounds e token elapsed made
    refine ⟨?_, ?_, fun workers => ⟨inputsAmid_nodup workers ?_, length_inputsAmid⟩⟩
    · exact turns_all (fun _ => True)
        (fun number e token _ => turn_result given script config payload number e token)
        (fun _ _ _ _ _ _ => trivial) trivial
    · intro report reported
      unfold runAmid at reported
      split at reported
      · cases reported
      · exact (Rounds.report_ok reported).1
    · rw [UInt64.toNat_zero, Nat.zero_add]
      exact rounds.toNat_lt
  · intro given given' script script' config config' p q rounds rounds' e e' token token' other
      bytes here there
    obtain ⟨_, i, m, rfl⟩ := of_mem_inputsAmid here
    obtain ⟨_, j, n, same⟩ := of_mem_inputsAmid there
    exact other (request_injective same).1.symm

/-- The bytes that are digested for a nonce in the second round over the byte seven; and three
rounds over this payload, apart from five over the same one with the bytes of a round behind it. -/
theorem inputs_distinct_of_salt :
    (∃ plan, (Engine.mk (.of .blake2s) .zero {} 2 {}).prepare (request {} [7] .absent 1) =
        .ok plan ∧
      plan.task.digest ⟨5⟩ = HashAlgorithm.blake2s.digestBytes
        ⟨#[7, 1, 0, 0, 0, 0, 0, 0, 0, 5, 0, 0, 0, 0, 0, 0, 0]⟩) ∧
    (∀ n, candidate (request {} [7] .absent 0).data ⟨n⟩ =
      candidate (request {} [7] .idle 0).data ⟨1⟩ → n = 1) ∧
    (inputsAmid (fun _ => none) (fun _ => {}) {} [7] 3 0 (Engine.marking [4] .lowest 2)
      .absent).Nodup ∧
    ∀ bytes ∈ inputsAmid (fun _ => none) (fun _ => {}) {} [7] 3 0 (Engine.marking [4] .lowest 2)
        .absent,
      bytes ∉ inputsAmid (fun _ => none) (fun _ => {}) {} (salted [7] 0) 5 0
        (Engine.marking [] .firstFound 1) .idle := by
  obtain ⟨digested, known, once, apart⟩ := inputs_distinct
  obtain ⟨-, -, distinct⟩ := once (fun _ => none) (fun _ => {}) {} [7] 3
    (Engine.marking [4] .lowest 2) .absent .zero
  refine ⟨⟨_, rfl, digested .blake2s (Engine.mk (.of .blake2s) .zero {} 2 {}) {} [7] .absent 1 _ rfl
    rfl ⟨5⟩⟩, ?_, (distinct (by decide)).1, apart (fun _ => none) (fun _ => none) (fun _ => {})
      (fun _ => {}) {} {} [7] (salted [7] 0) 3 5 (Engine.marking [4] .lowest 2)
      (Engine.marking [] .firstFound 1) .absent .idle (by decide)⟩
  intro n same
  exact congrArg Nonce.value (known {} {} [7] [7] .absent .idle 0 0 ⟨n⟩ ⟨1⟩ same).2.2

end Session
end ProofOfWork
