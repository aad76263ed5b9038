import ProofOfWork.Proofs.Document.Json.Results
set_option autoImplicit false

namespace ProofOfWork
open Document Document.Json

@[simp]
theorem Verdict.ofDocument_toDocument (v : Verdict) : ofDocument? (again v.toDocument) = some v := by
  have named : Text.named? Verdict.all Verdict.name v.name.toList = some v := by
    cases v <;> rfl
  exact faithful.oneOf named

@[simp] theorem Document.Json.word_again (n : UInt64) : (again (.natural n.toNat)).word? = some n :=
  faithful.word n

@[simp] theorem Duration.ofDocument_again (d : Duration) :
    ofDocument? Json.access (again (.word d.text)) = some d := ofDocument_text faithful d

namespace SearchOutcome

theorem readable (o : SearchOutcome) : Readable o.toDocument := by
  refine .record ?_
  simp only [List.forall_mem_cons]
  exact ⟨o.result.readable, .text _, .word64 _, .text _, nofun⟩

@[simp] theorem ofDocument_toDocument (o : SearchOutcome) :
    ofDocument? (again o.toDocument) = some o := by
  have result := o.result.ofDocument_toDocument_at (show 1 < nestingLimit by decide)
  rw [ofDocument?, toDocument, Json.record?, faithful.record (by rfl) (by decide)]
  simp [result]

end SearchOutcome

namespace Ledger

theorem readable (l : Ledger) : Readable l.toDocument := by
  refine .record ?_
  simp only [List.forall_mem_cons]
  exact ⟨.word64 _, .word64 _, .word64 _, .word64 _, .text _, nofun⟩

@[simp] theorem ofDocument_toDocument (l : Ledger) : ofDocument? (again l.toDocument) = some l := by
  rw [ofDocument?, toDocument, Json.record?, faithful.record (by rfl) (by decide)]
  simp

end Ledger

namespace RoundOutcome
variable {o : RoundOutcome}

structure Finite (o : RoundOutcome) : Prop where
  difficulty : o.difficulty.value.isFinite = true
  hashRate : o.hashRate.value.isFinite = true

def asReread (o : RoundOutcome) : RoundOutcome :=
  { o with difficulty := ⟨reread o.difficulty.value⟩, hashRate := ⟨reread o.hashRate.value⟩ }

theorem Finite.readable (finite : o.Finite) : Readable o.toDocument := by
  refine .record ?_
  simp only [List.forall_mem_cons]
  refine ⟨.word64 _, o.result.readable, ?_, .real finite.difficulty, .word64 _, .text _,
    .real finite.hashRate, nofun⟩
  cases o.verdict with
  | none => exact .null
  | some v => exact .text _

@[simp] theorem ofDocument_toDocument {depth : Nat} (shallow : depth + 1 < nestingLimit)
    (o : RoundOutcome) : ofDocument? depth (again o.toDocument) = some o.asReread := by
  have result := o.result.ofDocument_toDocument_at shallow
  have verdict := Value.orNone_optional (o := o.verdict) Verdict.ofDocument_toDocument fun _ => nofun
  have difficulty : Difficulty.ofDocument? (again (.real o.difficulty.value)) =
      some ⟨reread o.difficulty.value⟩ := rfl
  have hashRate : HashRate.ofDocument? (again (.real o.hashRate.value)) =
      some ⟨reread o.hashRate.value⟩ := rfl
  rw [ofDocument?, toDocument, Json.record?, faithful.record (by rfl) (by decide)]
  simp [result, verdict, difficulty, hashRate, asReread]

theorem mapM_ofDocument {depth : Nat} (shallow : depth + 1 < nestingLimit)
    (rounds : List RoundOutcome) : (rounds.map fun o => again o.toDocument).mapM
      (ofDocument? depth) = some (rounds.map asReread) := by
  induction rounds with
  | nil => rfl
  | cons o rounds ih =>
      rw [List.map_cons, List.mapM_cons, ih, ofDocument_toDocument shallow]
      rfl

end RoundOutcome

namespace SessionReport
variable {r : SessionReport}

def Finite (r : SessionReport) : Prop := ∀ o ∈ r.rounds, o.Finite

def asReread (r : SessionReport) : SessionReport :=
  { r with rounds := r.rounds.map RoundOutcome.asReread }

theorem Finite.readable (finite : r.Finite) : Readable r.toDocument := by
  refine .record ?_
  simp only [List.forall_mem_cons]
  refine ⟨.text _, .word64 _, .sequence ?_, .boolean _, .text _, .text _, nofun⟩
  intro v member
  obtain ⟨o, among, rfl⟩ := List.mem_map.mp member
  exact (finite o among).readable

@[simp] theorem ofDocument_toDocument (r : SessionReport) :
    ofDocument? (again r.toDocument) = some r.asReread := by
  have rounds := RoundOutcome.mapM_ofDocument (show 2 + 1 < nestingLimit by decide) r.rounds
  have items : (again (.sequence (r.rounds.map RoundOutcome.toDocument))).items? =
      some (r.rounds.map fun o => again o.toDocument) := by
    rw [again, againItems_eq_map, List.map_map]
    rfl
  have cancelled : (again (.boolean r.cancelled)).boolean? = some r.cancelled := rfl
  rw [ofDocument?, toDocument, Json.record?, faithful.record (by rfl) (by decide)]
  simp [items, rounds, cancelled, HashAlgorithm.ofDocument_name faithful, asReread]

end SessionReport
end ProofOfWork
