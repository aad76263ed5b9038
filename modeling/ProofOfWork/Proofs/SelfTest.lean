import ProofOfWork.Proofs.Document.Json.Results
import ProofOfWork.Proofs.Engine.Answer
set_option autoImplicit false

namespace ProofOfWork.SelfTest
open Document

variable {e : Engine} {data : List UInt8} {limit : UInt64} {c : Circumstances}

theorem mineOn_scripted (e : Engine) (data : List UInt8) (limit : UInt64) (c : Circumstances) :
    (Id.run (mineOn (Host.scripted c) e data limit)).1 =
      (e.search (request data limit) c).answer.map (record e.hasher.algorithm) := rfl

theorem mineOn_ok_iff : (∃ r, (Id.run (mineOn (Host.scripted c) e data limit)).1 = .ok r) ↔
    e.Admits (request data limit) := by
  rw [mineOn_scripted]
  constructor
  · rintro ⟨r, made⟩
    cases answer : (e.search (request data limit) c).answer with
    | ok o => exact Engine.admits_of_answer answer
    | error fault =>
        rw [answer] at made
        cases made
  · intro admits
    have uncancelled : (e.boardAfter (request data limit) c).cancelled = false := by
      refine Bool.eq_false_iff.mpr fun cancelled => ?_
      have sound := (e.plan_within (request data limit)).run_sound c.schedule
      have attended : false = true := (sound.cancelled cancelled).1
      cases attended
    rw [admits.search_uncancelled nofun uncancelled]
    exact ⟨_, rfl⟩

theorem exists_of_mineOn {r : MinerRecord}
    (made : (Id.run (mineOn (Host.scripted c) e data limit)).1 = .ok r) :
    ∃ o, (e.search (request data limit) c).answer = .ok o ∧ r = record e.hasher.algorithm o := by
  rw [mineOn_scripted] at made
  cases answer : (e.search (request data limit) c).answer with
  | ok o =>
      rw [answer] at made
      exact ⟨o, rfl, (Except.ok.inj made).symm⟩
  | error fault =>
      rw [answer] at made
      cases made

theorem target_of_answer {r : SearchRequest} {o : SearchOutcome}
    (answer : (e.search r c).answer = .ok o) : o.target = e.target := by
  obtain ⟨-, -, rfl⟩ := (Engine.admits_of_answer answer).answer_cases answer
  rfl

/-- The text of every record and of every result is read as what it was written for. A payload is
recorded exactly if its search is admitted, and the record tells the answer of this search: that
there is a solution exactly if there is one, with a nonce and a digest, which then are one for the
target that it names. -/
theorem records_reread :
    (∀ r : MinerRecord,
      (Json.read? (Json.compact r.toDocument)).bind MinerRecord.ofDocument? = some r) ∧
    (∀ r : SearchResult,
      (Json.read? (Json.compact r.toDocument)).bind (SearchResult.ofDocument? 0) = some r) ∧
    ∀ (e : Engine) (data : List UInt8) (limit : UInt64) (c : Circumstances),
      ((∃ r, (Id.run (mineOn (Host.scripted c) e data limit)).1 = .ok r) ↔
        e.Admits (request data limit)) ∧
      ∀ r, (Id.run (mineOn (Host.scripted c) e data limit)).1 = .ok r →
        (∃ o, (e.search (request data limit) c).answer = .ok o ∧ r.found = o.result.isFound ∧
          r.nonce = o.result.nonce? ∧ r.digest = o.result.digest? ∧ r.attempts = o.attempts ∧
          r.algorithm = e.hasher.algorithm ∧ r.target = o.target) ∧
        (1 ≤ e.workers → (r.found = true ↔ ∃ n, e.Solves (request data limit) n)) ∧
        (r.found = true ↔ r.nonce.isSome = true ∧ r.digest.isSome = true) ∧
        r.nonce.isSome = r.digest.isSome ∧
        ∀ n d, r.nonce = some n → r.digest = some d →
          d = e.hasher.digest data n ∧ r.target.accepts d = true := by
  refine ⟨?_, ?_, fun e data limit c => ⟨mineOn_ok_iff, ?_⟩⟩
  · intro r
    rw [Json.read_compact r.readable, Option.bind_some, r.ofDocument_toDocument]
  · intro r
    rw [Json.read_compact r.readable, Option.bind_some, r.ofDocument_toDocument]
  · intro r made
    obtain ⟨o, answer, rfl⟩ := exists_of_mineOn made
    have target := target_of_answer answer
    refine ⟨⟨o, answer, rfl, rfl, rfl, rfl, rfl, rfl⟩, fun workers => ?_, ?_⟩
    · exact ((Engine.admits_of_answer answer).answer_genuine workers answer).isFound_iff
    simp only [record]
    cases result : o.result with
    | found n d =>
        obtain ⟨accepted, digest⟩ := Engine.accepts_of_found answer result
        refine ⟨⟨fun _ => ⟨rfl, rfl⟩, fun _ => rfl⟩, rfl, ?_⟩
        rintro n d ⟨⟩ ⟨⟩
        exact ⟨digest, target ▸ accepted⟩
    | exhausted =>
        refine ⟨by decide, rfl, ?_⟩
        rintro n d ⟨⟩

/-- Two workers on five nonces, of which the fourth is a solution. -/
theorem records_reread_of_mark : ∃ r,
    (Id.run (mineOn (Host.scripted { schedule := [.work 1 0, .work 0 0] })
      (Engine.marking [3] .lowest 2) [7] 5)).1 = .ok r ∧
    (Json.read? (Json.compact r.toDocument)).bind MinerRecord.ofDocument? = some r ∧
    r.found = true ∧ r.nonce = some ⟨3⟩ ∧ r.digest = some ⟨.zero⟩ := by
  have admits : (Engine.marking [3] .lowest 2).Admits (request [7] 5) :=
    Engine.marking_admits _ _ _ (List.cons_ne_nil _ _) (by decide)
  obtain ⟨reread, -, mining⟩ := records_reread
  obtain ⟨recorded, described⟩ := mining (Engine.marking [3] .lowest 2) [7] 5
    { schedule := [.work 1 0, .work 0 0] }
  obtain ⟨r, made⟩ := recorded.mpr admits
  obtain ⟨⟨o, answer, -, -, -, -, -, searched⟩, solved, both, -, genuine⟩ := described r made
  have found : r.found = true := (solved (by decide)).mpr
    ⟨⟨3⟩, (Engine.marking_solves [3] .lowest 2 _ ⟨3⟩).mpr
      ⟨⟨by decide, by decide⟩, List.mem_cons_self⟩⟩
  obtain ⟨some_nonce, some_digest⟩ := both.mp found
  obtain ⟨n, nonce⟩ := Option.isSome_iff_exists.mp some_nonce
  obtain ⟨d, digest⟩ := Option.isSome_iff_exists.mp some_digest
  obtain ⟨rfl, accepted⟩ := genuine n d nonce digest
  rw [searched, target_of_answer answer] at accepted
  have marked := List.mem_singleton.mp ((Hasher.marking_accepts [3] [7] n).mp accepted)
  obtain ⟨value⟩ := n
  subst marked
  exact ⟨r, made, reread r, found, nonce, digest⟩

end ProofOfWork.SelfTest
