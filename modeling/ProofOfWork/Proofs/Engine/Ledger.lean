import ProofOfWork.Proofs.Engine.Accounting
set_option autoImplicit false

namespace ProofOfWork

inductive Exit where
  | found
  | exhausted
  | cancelled
  /-- The request did not pass the checks. -/
  | refused
  deriving DecidableEq, Repr

namespace Exit

def ofResult : SearchResult → Exit
  | .found .. => .found
  | .exhausted => .exhausted

def ofError : Error → Exit
  | .cancelled _ => .cancelled
  | _ => .refused

/-- The end that an answer tells of. -/
def ofAnswer : Except Error SearchOutcome → Exit
  | .ok o => ofResult o.result
  | .error fault => ofError fault

end Exit

/-- A counter went on from one word to another by so many, modulo `2 ^ 64`. -/
def Advanced (before after : UInt64) (count : Nat) : Prop :=
  after.toNat = (before.toNat + count) % 2 ^ 64

namespace Advanced
variable {a b c : UInt64} {m n : Nat}

theorem refl (a : UInt64) : Advanced a a 0 := (Nat.mod_eq_of_lt a.toNat_lt).symm

theorem trans (first : Advanced a b m) (second : Advanced b c n) : Advanced a c (m + n) := by
  rw [Advanced] at *
  rw [second, first, Nat.mod_add_mod, Nat.add_assoc]

theorem add (a n : UInt64) : Advanced a (a + n) n.toNat := UInt64.toNat_add a n

end Advanced

/-- What a ledger has counted since an earlier one: searches that ended in these ways, and so many
hashes. -/
structure Ledger.Counted (before after : Ledger) (exits : List Exit) (hashes : Nat) : Prop where
  solutions : Advanced before.solutions after.solutions (exits.count .found)
  exhausted : Advanced before.exhausted after.exhausted (exits.count .exhausted)
  cancelled : Advanced before.cancelled after.cancelled (exits.count .cancelled)
  hashes : Advanced before.hashes after.hashes hashes

namespace Ledger.Counted
variable {a b c : Ledger} {exits more : List Exit} {m n : Nat}

theorem refl (l : Ledger) : l.Counted l [] 0 := ⟨.refl _, .refl _, .refl _, .refl _⟩

theorem trans (first : a.Counted b exits m) (second : b.Counted c more n) :
    a.Counted c (exits ++ more) (m + n) := by
  constructor
  · rw [List.count_append]
    exact first.solutions.trans second.solutions
  · rw [List.count_append]
    exact first.exhausted.trans second.exhausted
  · rw [List.count_append]
    exact first.cancelled.trans second.cancelled
  · exact first.hashes.trans second.hashes

/-- Only how often the searches ended in each way is counted, not in which order. -/
theorem reorder (counted : a.Counted b exits n) (same : ∀ x, more.count x = exits.count x) :
    a.Counted b more n := by
  constructor
  · rw [same]
    exact counted.solutions
  · rw [same]
    exact counted.exhausted
  · rw [same]
    exact counted.cancelled
  · exact counted.hashes

end Ledger.Counted

theorem Engine.counting_counted (e : Engine) (hashes : UInt64) :
    e.ledger.Counted (e.counting (e.ledger.hashes + hashes)).ledger [] hashes.toNat :=
  ⟨.refl _, .refl _, .refl _, .add _ _⟩

namespace Engine
variable {e : Engine} {r : SearchRequest} {c : Circumstances}

/-- A request that does not pass the checks is refused before anybody looks at its token. -/
theorem prepare_unadmitted (unfit : ¬ e.Admits r) :
    ∃ cause, e.prepare r = .error (.invalidInput cause) := by
  by_cases data : r.data = []
  · refine ⟨.emptyData, ?_⟩
    simp only [prepare, data]
    rfl
  · obtain ⟨byte, rest, bytes⟩ := List.exists_cons_of_ne_nil data
    by_cases attempts : r.maxAttempts = 0
    · refine ⟨.noAttempts, ?_⟩
      simp only [prepare, bytes, attempts]
      rfl
    · have positive := one_le_toNat attempts
      cases taken : e.hasher.checkInput r.data with
      | ok => exact absurd ⟨data, positive, taken⟩ unfit
      | error fault =>
          obtain ⟨cause, rfl⟩ := Hasher.checkInput_error taken
          exact ⟨cause, prepare_refused data positive taken⟩

theorem refused_counted (e : Engine) (fault : Error) :
    e.ledger.Counted (e.refused fault).ledger [.ofError fault] 0 := by
  cases fault with
  | cancelled task => exact ⟨.refl _, .refl _, .add _ 1, .refl _⟩
  | _ => exact ⟨.refl _, .refl _, .refl _, .refl _⟩

/-- A search that is over is entered once, by its answer. Its hashes are counted already. -/
theorem conclude_counted (e : Engine) (plan : Search.Plan) (course : Search.Course) :
    e.ledger.Counted (e.conclude plan course).2.ledger [.ofAnswer (e.conclude plan course).1] 0 := by
  cases cancelled : course.board.cancelled with
  | true =>
      simp only [conclude, cancelled, if_true]
      exact ⟨.refl _, .refl _, .add _ 1, .refl _⟩
  | false =>
      simp only [conclude, cancelled, Bool.false_eq_true, if_false]
      cases SearchResult.ofSlot course.board.slot with
      | found nonce digest => exact ⟨.add _ 1, .refl _, .refl _, .refl _⟩
      | exhausted => exact ⟨.refl _, .add _ 1, .refl _, .refl _⟩

/-- Whatever becomes of a request, it is entered once by its answer. -/
theorem search_counted (e : Engine) (r : SearchRequest) (c : Circumstances)
    (workers : 1 ≤ e.workers) :
    e.ledger.Counted (e.search r c).engine.ledger [.ofAnswer (e.search r c).answer]
      (e.hashedIn r c).length := by
  cases prepared : e.prepare r with
  | error fault =>
      rw [search_refused prepared, hashedIn_refused prepared]
      exact e.refused_counted fault
  | ok plan =>
      have same : (plan.run c.schedule).attempts.toNat = (e.hashedIn r c).length := by
        obtain ⟨rfl, -⟩ := (admits_of_prepare prepared).prepare_eq prepared
        rw [hashedIn_prepared prepared]
        exact Search.Plan.run_attempts (plan_whole r workers) c.schedule
      rw [search_prepared prepared, ← same]
      exact (e.counting_counted _).trans (conclude_counted _ plan _)

theorem search_unadmitted (unfit : ¬ e.Admits r) (c : Circumstances) :
    (e.search r c).engine = e ∧ ∃ cause, (e.search r c).answer = .error (.invalidInput cause) := by
  obtain ⟨cause, refused⟩ := prepare_unadmitted unfit
  rw [search_refused refused]
  exact ⟨rfl, cause, rfl⟩

end Engine
end ProofOfWork
