import ProofOfWork.Proofs.Search.Range
import ProofOfWork.Search.Schedule
set_option autoImplicit false

namespace ProofOfWork.Search

def Task.accepts (task : Task) (n : Nonce) : Bool := task.target.accepts (task.digest n)

namespace Board

section Fields
variable (task : Task) (board : Board) (mode : SearchMode) (n : Nonce) (digest : Digest)
  (pending hashes : UInt64)

@[simp] theorem flush_attempts : (board.flush pending).attempts = board.attempts + pending := rfl

@[simp] theorem flush_slot : (board.flush pending).slot = board.slot := rfl

@[simp] theorem flush_fired : (board.flush pending).fired = board.fired := rfl

@[simp] theorem poll_attempts : (board.poll task).attempts = board.attempts := by
  unfold poll
  split <;> rfl

@[simp] theorem poll_slot : (board.poll task).slot = board.slot := by
  unfold poll
  split <;> rfl

@[simp] theorem poll_fired : (board.poll task).fired = board.fired := by
  unfold poll
  split <;> rfl

@[simp] theorem report_attempts : (board.report mode n digest).attempts = board.attempts := by
  cases mode <;> rfl

@[simp] theorem report_fired : (board.report mode n digest).fired = board.fired := by
  cases mode <;> rfl

end Fields

/-- What the board says at every moment of a search of the range. -/
structure Sound (task : Task) (range : NonceRange) (board : Board) : Prop where
  descending : board.lowered.Pairwise (· ≤ ·)
  stopped : board.stopped = true →
    board.cancelled = true ∨ task.mode = .firstFound ∧ board.slot ≠ none
  cancelled : board.cancelled = true → task.cancellable = true ∧ board.fired = true
  genuine : ∀ n digest, board.slot = some (n, digest) →
    n ∈ range ∧ digest = task.digest n ∧ task.accepts n = true
  best : task.mode = .lowest →
    board.bound 0 = (board.slot.map fun kept => kept.1.value).getD unbounded

/-- A worker that has scanned all nonces below a number may end there: it was told to stop, or a
smaller solution is known. -/
def Excuses (task : Task) (board : Board) (number : Nat) : Prop :=
  board.stopped = true ∨ task.mode = .lowest ∧ (board.bound 0).toNat < number

/-- What every step of every worker leaves in force. -/
structure Later (old new : Board) : Prop where
  stopped : old.stopped = true → new.stopped = true
  cancelled : old.cancelled = true → new.cancelled = true
  fired : old.fired = true → new.fired = true
  bound : (new.bound 0).toNat ≤ (old.bound 0).toNat

theorem Later.refl (board : Board) : Later board board := ⟨id, id, id, Nat.le_refl _⟩

theorem Later.trans {first second third : Board} (earlier : Later first second)
    (later : Later second third) : Later first third :=
  ⟨later.stopped ∘ earlier.stopped, later.cancelled ∘ earlier.cancelled,
    later.fired ∘ earlier.fired, Nat.le_trans later.bound earlier.bound⟩

theorem Excuses.mono {task : Task} {old new : Board} {number larger : Nat}
    (excused : old.Excuses task number) (later : Later old new) (less : number ≤ larger) :
    new.Excuses task larger := by
  rcases excused with stopped | ⟨lowest, smaller⟩
  · exact .inl (later.stopped stopped)
  · have bound := later.bound
    exact .inr ⟨lowest, by omega⟩

theorem bound_le_of_mem {board : Board} (descending : board.lowered.Pairwise (· ≤ ·))
    {value : UInt64} (member : value ∈ board.lowered) : board.bound 0 ≤ value := by
  unfold bound
  cases values : board.lowered with
  | nil =>
      rw [values] at member
      cases member
  | cons newest older =>
      rw [values] at descending member
      rw [List.getD_cons_zero]
      rcases List.mem_cons.mp member with rfl | earlier
      · exact UInt64.le_refl _
      · exact (List.pairwise_cons.mp descending).1 value earlier

/-- An older bound is never the smaller one, so a worker that sees it does not stop too soon. -/
theorem bound_le {board : Board} (descending : board.lowered.Pairwise (· ≤ ·)) (age : Nat) :
    board.bound 0 ≤ board.bound age := by
  by_cases inside : age < board.lowered.length
  · have seen : board.bound age = board.lowered[age] := by
      simp only [bound, List.getD_eq_getElem?_getD, List.getElem?_eq_getElem inside,
        Option.getD_some]
    rw [seen]
    exact bound_le_of_mem descending (List.getElem_mem inside)
  · have seen : board.bound age = unbounded := by
      simp only [bound, List.getD_eq_getElem?_getD, List.getElem?_eq_none (Nat.le_of_not_lt inside),
        Option.getD_none]
    have most := (board.bound 0).toNat_lt
    rw [seen, UInt64.le_iff_toNat_le]
    change _ ≤ 18446744073709551615
    omega

section Steps
variable {task : Task} {range : NonceRange} {board : Board}

theorem start_sound (task : Task) (range : NonceRange) (fired : Bool) (hashes : UInt64) :
    ({ fired, hashes } : Board).Sound task range :=
  ⟨.nil, nofun, nofun, nofun, fun _ => rfl⟩

theorem Sound.fire (sound : board.Sound task range) :
    ({ board with fired := true } : Board).Sound task range :=
  ⟨sound.descending, sound.stopped, fun told => ⟨(sound.cancelled told).1, rfl⟩, sound.genuine,
    sound.best⟩

theorem fire_later (board : Board) : Later board { board with fired := true } :=
  ⟨id, id, fun _ => rfl, Nat.le_refl _⟩

theorem Sound.flush (sound : board.Sound task range) (pending : UInt64) :
    (board.flush pending).Sound task range :=
  ⟨sound.descending, sound.stopped, sound.cancelled, sound.genuine, sound.best⟩

theorem flush_later (board : Board) (pending : UInt64) : Later board (board.flush pending) :=
  ⟨id, id, id, Nat.le_refl _⟩

theorem Sound.poll (sound : board.Sound task range) : (board.poll task).Sound task range := by
  unfold Board.poll
  split
  · rename_i told
    rw [Bool.and_eq_true] at told
    exact ⟨sound.descending, fun _ => .inl rfl, fun _ => told, sound.genuine, sound.best⟩
  · exact sound

theorem poll_later (task : Task) (board : Board) : Later board (board.poll task) := by
  unfold Board.poll
  split
  · exact ⟨fun _ => rfl, fun _ => rfl, id, Nat.le_refl _⟩
  · exact .refl board

private theorem toNat_min (a b : UInt64) : (min a b).toNat = min a.toNat b.toNat := by
  change (if a ≤ b then a else b).toNat = _
  split
  · rename_i le
    rw [UInt64.le_iff_toNat_le] at le
    omega
  · rename_i gt
    rw [UInt64.le_iff_toNat_le] at gt
    omega

theorem report_lowered (board : Board) (n : Nonce) (digest : Digest) :
    ((board.report .lowest n digest).bound 0).toNat =
      min (board.bound 0).toNat n.value.toNat := by
  simp only [Board.report, Board.bound, List.getD_cons_zero]
  exact toNat_min ..

theorem report_later (board : Board) (mode : SearchMode) (n : Nonce) (digest : Digest) :
    Later board (board.report mode n digest) := by
  cases mode with
  | lowest => exact ⟨id, id, id, by rw [report_lowered]; exact Nat.min_le_left _ _⟩
  | firstFound => exact ⟨fun _ => rfl, id, id, Nat.le_refl _⟩

theorem report_excuses (task : Task) (board : Board) (n : Nonce) (digest : Digest) :
    (board.report task.mode n digest).Excuses task (n.value.toNat + 1) := by
  cases mode : task.mode with
  | lowest =>
      refine .inr ⟨mode, ?_⟩
      rw [report_lowered]
      omega
  | firstFound => exact .inl rfl

theorem report_slot {board : Board} {mode : SearchMode} {n m : Nonce} {digest kept : Digest}
    (held : (board.report mode n digest).slot = some (m, kept)) :
    n = m ∧ digest = kept ∨ board.slot = some (m, kept) := by
  cases slot : board.slot with
  | none =>
      cases mode <;> simp only [Board.report, slot, Option.none_or, Option.some.injEq,
        Prod.mk.injEq] at held <;> exact .inl held
  | some solution =>
      cases mode with
      | lowest =>
          simp only [Board.report, slot] at held
          split at held
          · simp only [Option.some.injEq, Prod.mk.injEq] at held
            exact .inl held
          · exact .inr held
      | firstFound =>
          simp only [Board.report, slot, Option.some_or] at held
          exact .inr held

/-- The bound follows the slot: both take the new nonce, or neither does. -/
theorem report_best {board : Board} (n : Nonce) (digest : Digest)
    (best : board.bound 0 = (board.slot.map fun kept => kept.1.value).getD unbounded) :
    (board.report .lowest n digest).bound 0 =
      ((board.report .lowest n digest).slot.map fun kept => kept.1.value).getD unbounded := by
  have bound := report_lowered board n digest
  apply UInt64.toNat_inj.mp
  rw [bound, best]
  simp only [Board.report]
  cases slot : board.slot with
  | none =>
      have most := n.value.toNat_lt
      change min 18446744073709551615 n.value.toNat = n.value.toNat
      omega
  | some kept =>
      change min kept.1.value.toNat n.value.toNat = _
      simp only
      split
      · rename_i less
        rw [UInt64.lt_iff_toNat_lt] at less
        change _ = n.value.toNat
        omega
      · rename_i greater
        rw [UInt64.lt_iff_toNat_lt] at greater
        change _ = kept.1.value.toNat
        omega

theorem report_descending {board : Board} (descending : board.lowered.Pairwise (· ≤ ·))
    (mode : SearchMode) (n : Nonce) (digest : Digest) :
    (board.report mode n digest).lowered.Pairwise (· ≤ ·) := by
  cases mode with
  | lowest =>
      refine List.pairwise_cons.mpr ⟨?_, descending⟩
      intro value member
      have le := UInt64.le_iff_toNat_le.mp (bound_le_of_mem descending member)
      rw [UInt64.le_iff_toNat_le, toNat_min]
      omega
  | firstFound => exact descending

theorem Sound.report (sound : board.Sound task range) {n : Nonce} {digest : Digest}
    (inside : n ∈ range) (same : digest = task.digest n) (accepted : task.accepts n = true) :
    (board.report task.mode n digest).Sound task range := by
  have genuine : ∀ m kept, (board.report task.mode n digest).slot = some (m, kept) →
      m ∈ range ∧ kept = task.digest m ∧ task.accepts m = true := by
    intro m kept held
    rcases report_slot held with ⟨rfl, rfl⟩ | slot
    · exact ⟨inside, same, accepted⟩
    · exact sound.genuine m kept slot
  have descending := report_descending sound.descending task.mode n digest
  cases mode : task.mode with
  | lowest =>
      rw [mode] at genuine descending
      refine ⟨descending, ?_, sound.cancelled, genuine, ?_⟩
      · intro told
        rcases sound.stopped told with cancelled | ⟨first, -⟩
        · exact .inl cancelled
        · rw [mode] at first
          cases first
      · intro _
        exact report_best n digest (sound.best mode)
  | firstFound =>
      rw [mode] at genuine descending
      refine ⟨descending, ?_, sound.cancelled, genuine, ?_⟩
      · intro _
        refine .inr ⟨mode, ?_⟩
        simp only [Board.report]
        cases board.slot <;> simp
      · intro lowest
        rw [mode] at lowest
        cases lowest

theorem Sound.not_excuses (sound : board.Sound task range) (uncancelled : board.cancelled = false)
    (empty : board.slot = none) {number : Nat} (small : number ≤ 2 ^ 64 - 1) :
    ¬ board.Excuses task number := by
  rintro (stopped | ⟨lowest, smaller⟩)
  · rcases sound.stopped stopped with cancelled | ⟨-, filled⟩
    · rw [uncancelled] at cancelled
      cases cancelled
    · exact filled empty
  · have best := sound.best lowest
    rw [empty] at best
    rw [best] at smaller
    change 18446744073709551615 < number at smaller
    omega

/-- A search for the smallest solution excuses nobody from a nonce below the known one. -/
theorem Sound.least_of_excuses (sound : board.Sound task range)
    (uncancelled : board.cancelled = false) (lowest : task.mode = .lowest) {best : Nonce}
    {digest : Digest} (kept : board.slot = some (best, digest)) {number : Nat}
    (excused : board.Excuses task number) : best.value.toNat < number := by
  rcases excused with stopped | ⟨-, smaller⟩
  · rcases sound.stopped stopped with cancelled | ⟨first, -⟩
    · rw [uncancelled] at cancelled
      cases cancelled
    · rw [lowest] at first
      cases first
  · have bound := sound.best lowest
    rw [kept] at bound
    rw [bound] at smaller
    exact smaller

end Steps
end Board
end ProofOfWork.Search
