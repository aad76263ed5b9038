import ProofOfWork.Document.Results
import ProofOfWork.Proofs.Document.Json.Settings
set_option autoImplicit false

namespace ProofOfWork
open Document Document.Json

namespace Document

/-- A value that may be missing is not taken for null, so it is read as present. -/
theorem Value.orNone_optional {β : Type} {read : Value → Option β} {write : β → Value} {o : Option β}
    (reads : ∀ b, read (again (write b)) = some b) (written : ∀ b, again (write b) ≠ .null) :
    orNone read (some (again (optional write o))) = some o := by
  cases o with
  | none => rfl
  | some b =>
      have present : orNone read (some (again (write b))) = (read (again (write b))).map some := by
        unfold orNone
        split
        · rename_i same
          cases same
        · rename_i same
          exact absurd (Option.some.inj same) (written b)
        · rename_i same
          rw [Option.some.inj same]
      exact present.trans (congrArg (Option.map some) (reads b))

end Document

@[simp]
theorem Nonce.ofDocument_toDocument (n : Nonce) : ofDocument? (again n.toDocument) = some n := by
  have read : Value.word? (again n.toDocument) = some n.value := faithful.word n.value
  rw [ofDocument?, read]
  rfl

@[simp]
theorem Digest.ofDocument_toDocument (d : Digest) : ofDocument? (again d.toDocument) = some d := by
  change (Digest.ofHex d.hex).toOption = some d
  rw [d.ofHex_hex]
  rfl

@[simp]
theorem Target.ofDocument_toDocument (t : Target) : ofDocument? (again t.toDocument) = some t := by
  change (Target.ofHex t.hex).toOption = some t
  rw [t.ofHex_hex]
  rfl

namespace SearchResult

theorem readable (r : SearchResult) : Readable r.toDocument := by
  cases r with
  | found nonce digest =>
      refine .record ?_
      simp only [List.forall_mem_cons]
      exact ⟨.text _, .word64 _, .text _, nofun⟩
  | exhausted =>
      refine .record ?_
      simp only [List.forall_mem_cons]
      exact ⟨.text _, nofun⟩

/-- A result is read at any depth at which values may still be nested. -/
theorem ofDocument_toDocument_at {depth : Nat} (shallow : depth < nestingLimit) (r : SearchResult) :
    ofDocument? depth (again r.toDocument) = some r := by
  have whole : (again r.toDocument).readable depth = true := by
    cases r with
    | found nonce digest => exact (Bool.and_true _).trans (decide_eq_true shallow)
    | exhausted => exact (Bool.and_true _).trans (decide_eq_true shallow)
  unfold ofDocument?
  rw [whole]
  cases r with
  | found nonce digest =>
      have parts : ofParts? (some (again nonce.toDocument)) (some (again digest.toDocument)) =
          some (.found nonce digest) := by
        simp only [ofParts?, Option.bind_some, Nonce.ofDocument_toDocument,
          Digest.ofDocument_toDocument, Option.bind_eq_bind, Option.pure_def]
      exact parts
  | exhausted => rfl

@[simp] theorem ofDocument_toDocument (r : SearchResult) :
    ofDocument? 0 (again r.toDocument) = some r :=
  r.ofDocument_toDocument_at (by decide)

end SearchResult

namespace MinerRecord

theorem readable (r : MinerRecord) : Readable r.toDocument := by
  refine .record ?_
  simp only [List.forall_mem_cons]
  refine ⟨.boolean _, ?_, ?_, .word64 _, .text _, .text _, nofun⟩
  · cases r.nonce with
    | none => exact .null
    | some n => exact .word64 _
  · cases r.digest with
    | none => exact .null
    | some d => exact .text _

@[simp]
theorem ofDocument_toDocument (r : MinerRecord) : ofDocument? (again r.toDocument) = some r := by
  have found : (again (.boolean r.found)).boolean? = some r.found := faithful.boolean r.found
  have attempts : (again (.natural r.attempts.toNat)).word? = some r.attempts :=
    faithful.word r.attempts
  have nonce := Value.orNone_optional (o := r.nonce) Nonce.ofDocument_toDocument fun _ => nofun
  have digest := Value.orNone_optional (o := r.digest) Digest.ofDocument_toDocument fun _ => nofun
  rw [ofDocument?, toDocument, Json.record?, faithful.record (by rfl) (by decide)]
  simp [found, nonce, digest, attempts, HashAlgorithm.ofDocument_name faithful]

end MinerRecord
end ProofOfWork
