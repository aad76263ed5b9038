import ProofOfWork.Proofs.Search.Step
set_option autoImplicit false

namespace ProofOfWork.Search

/-- Where a worker stands when it has hashed so many nonces of its range. -/
def Worker.Place (task : Task) (r : NonceRange) (board : Board) (scanned : Nat) (w : Worker) :
    Prop :=
  match w.phase with
  | .check => w.nonce.toNat = r.first.toNat + scanned
  | .hash => w.nonce.toNat = r.first.toNat + scanned ∧ w.nonce.toNat < r.stop.toNat
  | .report digest =>
    r.first.toNat ≤ w.nonce.toNat ∧ w.nonce.toNat + 1 = r.first.toNat + scanned ∧
      digest = task.digest ⟨w.nonce⟩ ∧ task.accepts ⟨w.nonce⟩ = true
  | .flush | .poll | .advance => w.nonce.toNat + 1 = r.first.toNat + scanned
  | .lastFlush true | .lastPoll => r.first.toNat + scanned = r.stop.toNat
  | .lastFlush false | .done =>
    r.first.toNat + scanned = r.stop.toNat ∨ board.Excuses task (r.first.toNat + scanned)

/-- What holds of a worker that has hashed so many nonces of its range. -/
structure Worker.Sound (task : Task) (r : NonceRange) (board : Board) (scanned : Nat)
    (w : Worker) : Prop where
  stop : w.stop = r.stop
  within : r.first.toNat + scanned ≤ r.stop.toNat
  place : w.Place task r board scanned
  past : ∀ n ∈ r, n.value.toNat < r.first.toNat + scanned → task.accepts n = true →
    (n, task.digest n) ∈ w.reporting ∨ board.Excuses task (n.value.toNat + 1)

section
variable {task : Task} {r : NonceRange} {board : Board} {scanned : Nat} {w : Worker} {age : Nat}
  {next : Board × Worker}

theorem Worker.at_sound (task : Task) (board : Board) {r : NonceRange}
    (ordered : r.first.toNat ≤ r.stop.toNat) : (Worker.at r).Sound task r board 0 := by
  refine ⟨rfl, ordered, rfl, ?_⟩
  intro n inside before
  rw [NonceRange.mem_iff] at inside
  omega

/-- Steps of other workers take nothing away: they only move the board on. -/
theorem Worker.Sound.later {old new : Board} (sound : w.Sound task r old scanned)
    (later : Board.Later old new) : w.Sound task r new scanned := by
  refine ⟨sound.stop, sound.within, ?_, ?_⟩
  · have place := sound.place
    unfold Worker.Place at place ⊢
    cases phase : w.phase with
    | done =>
        rw [phase] at place
        exact place.imp_right fun excused => excused.mono later (Nat.le_refl _)
    | lastFlush ranOut =>
        rw [phase] at place
        cases ranOut with
        | true => exact place
        | false => exact place.imp_right fun excused => excused.mono later (Nat.le_refl _)
    | _ => simpa only [phase] using place
  · intro n inside before accepted
    exact (sound.past n inside before accepted).imp_right
      fun excused => excused.mono later (Nat.le_refl _)

theorem Worker.Sound.moved (sound : w.Sound task r board scanned) {new : Board} {v : Worker}
    (later : Board.Later board new) (quiet : w.phase.Quiet) (stop : v.stop = w.stop)
    (place : v.Place task r new scanned) : v.Sound task r new (scanned + w.hashing.length) := by
  rw [Worker.hashing_of_quiet quiet, List.length_nil, Nat.add_zero]
  refine ⟨stop.trans sound.stop, sound.within, place, ?_⟩
  intro n inside before accepted
  rcases sound.past n inside before accepted with reporting | excused
  · rw [Worker.reporting_of_quiet quiet] at reporting
    cases reporting
  · exact .inr (excused.mono later (Nat.le_refl _))

theorem Worker.Sound.at_check (sound : w.Sound task r board scanned) (phase : w.phase = .check) :
    w.nonce.toNat = r.first.toNat + scanned := by
  simpa only [Worker.Place, phase] using sound.place

theorem Worker.Sound.at_hash (sound : w.Sound task r board scanned) (phase : w.phase = .hash) :
    w.nonce.toNat = r.first.toNat + scanned ∧ w.nonce.toNat < r.stop.toNat := by
  simpa only [Worker.Place, phase] using sound.place

theorem Worker.Sound.at_report (sound : w.Sound task r board scanned) {digest : Digest}
    (phase : w.phase = .report digest) :
    r.first.toNat ≤ w.nonce.toNat ∧ w.nonce.toNat + 1 = r.first.toNat + scanned ∧
      digest = task.digest ⟨w.nonce⟩ ∧ task.accepts ⟨w.nonce⟩ = true := by
  simpa only [Worker.Place, phase] using sound.place

theorem Worker.Sound.at_advance (sound : w.Sound task r board scanned)
    (phase : w.phase = .advance) : w.nonce.toNat + 1 = r.first.toNat + scanned := by
  simpa only [Worker.Place, phase] using sound.place

/-- A worker that sees an old bound sees one that is no smaller, so it does not end too soon. -/
theorem Worker.Sound.excused (sound : w.Sound task r board scanned) (phase : w.phase = .check)
    (descending : board.lowered.Pairwise (· ≤ ·))
    (useless : board.stopped = true ∨ task.mode = .lowest ∧ board.bound age < w.nonce) :
    board.Excuses task (r.first.toNat + scanned) := by
  have here := sound.at_check phase
  refine useless.imp_right fun ⟨lowest, smaller⟩ => ⟨lowest, ?_⟩
  have seen := UInt64.le_iff_toNat_le.mp (Board.bound_le descending age)
  rw [UInt64.lt_iff_toNat_lt] at smaller
  omega

theorem Worker.Sound.past_hash (sound : w.Sound task r board scanned) (phase : w.phase = .hash) :
    ∀ n ∈ r, n.value.toNat < r.first.toNat + (scanned + 1) → task.accepts n = true →
      n = ⟨w.nonce⟩ ∨ board.Excuses task (n.value.toNat + 1) := by
  obtain ⟨here, -⟩ := sound.at_hash phase
  intro n inside below accepted
  by_cases last : n.value.toNat = w.nonce.toNat
  · refine .inl ?_
    rw [← UInt64.toNat_inj.mp last]
  · rcases sound.past n inside (by omega) accepted with reporting | excused
    · simp only [Worker.reporting, phase, List.not_mem_nil] at reporting
    · exact .inr excused

/-- An accepted nonce is reported in the worker's next step. -/
theorem Worker.Sound.hit (sound : w.Sound task r board scanned) (phase : w.phase = .hash)
    (accepted : task.accepts ⟨w.nonce⟩ = true) (pending : UInt64) :
    Worker.Sound task r board (scanned + 1)
      { w with pending, phase := .report (task.digest ⟨w.nonce⟩) } := by
  obtain ⟨here, before⟩ := sound.at_hash phase
  have low : r.first.toNat ≤ w.nonce.toNat := by omega
  have counted : w.nonce.toNat + 1 = r.first.toNat + (scanned + 1) := by omega
  refine ⟨sound.stop, by omega, ⟨low, counted, rfl, accepted⟩, ?_⟩
  intro n inside below solves
  refine (sound.past_hash phase n inside below solves).imp_left ?_
  rintro rfl
  exact List.mem_singleton.mpr rfl

theorem Worker.Sound.missed (sound : w.Sound task r board scanned) (phase : w.phase = .hash)
    (rejected : task.accepts ⟨w.nonce⟩ = false) {v : Worker} (stop : v.stop = w.stop)
    (place : v.Place task r board (scanned + 1)) : v.Sound task r board (scanned + 1) := by
  obtain ⟨here, before⟩ := sound.at_hash phase
  refine ⟨stop.trans sound.stop, by omega, place, ?_⟩
  intro n inside below solves
  rcases sound.past_hash phase n inside below solves with rfl | excused
  · rw [rejected] at solves
    cases solves
  · exact .inr excused

theorem Worker.Sound.report (sound : w.Sound task r board scanned) {digest : Digest}
    (phase : w.phase = .report digest) :
    Worker.Sound task r (board.report task.mode ⟨w.nonce⟩ digest) scanned
      { w with phase := .lastFlush false } := by
  obtain ⟨low, here, same, -⟩ := sound.at_report phase
  have excused := board.report_excuses task ⟨w.nonce⟩ digest
  have later := board.report_later task.mode ⟨w.nonce⟩ digest
  refine ⟨sound.stop, sound.within, ?_, ?_⟩
  · change _ ∨ Board.Excuses _ _ _
    rw [← here]
    exact .inr excused
  · intro n inside below solves
    refine .inr ?_
    rcases sound.past n inside below solves with reporting | known
    · simp only [Worker.reporting, phase, List.mem_singleton, Prod.mk.injEq] at reporting
      rw [reporting.1]
      exact excused
    · exact known.mono later (Nat.le_refl _)

theorem Worker.Sound.takes (sound : w.Sound task r board scanned)
    (descending : board.lowered.Pairwise (· ≤ ·)) (takes : w.Takes task age board next) :
    next.2.Sound task r next.1 (scanned + w.hashing.length) := by
  have later := takes.later
  have within := sound.within
  have place := sound.place
  have most := r.stop.toNat_lt
  unfold Worker.Place at place
  -- a hash moves the count on; every other step leaves it and shows the new place
  cases takes with
  | beyond phase passed =>
      have here := sound.at_check phase
      rw [sound.stop, UInt64.le_iff_toNat_le] at passed
      refine sound.moved later (phase ▸ trivial) rfl ?_
      change r.first.toNat + scanned = r.stop.toNat
      omega
  | told phase before useless =>
      exact sound.moved later (phase ▸ trivial) rfl (.inr (sound.excused phase descending useless))
  | onward phase before =>
      rw [sound.stop, UInt64.lt_iff_toNat_lt] at before
      exact sound.moved later (phase ▸ trivial) rfl ⟨sound.at_check phase, before⟩
  | hit phase accepted =>
      rw [Worker.hashing_of_hash phase]
      exact sound.hit phase accepted _
  | fill phase rejected | miss phase rejected =>
      obtain ⟨here, -⟩ := sound.at_hash phase
      rw [Worker.hashing_of_hash phase]
      refine sound.missed phase rejected rfl ?_
      change w.nonce.toNat + 1 = r.first.toNat + (scanned + 1)
      omega
  | report digest phase =>
      rw [Worker.hashing_of_report phase]
      exact sound.report phase
  | flush phase | poll phase =>
      rw [phase] at place
      exact sound.moved later (phase ▸ trivial) rfl place
  | greatest phase last =>
      -- the range ends before the greatest number
      have here := sound.at_advance phase
      rw [last] at here
      simp only [UInt64.reduceToNat] at here
      omega
  | advance phase =>
      have here := sound.at_advance phase
      have succ : (w.nonce + 1).toNat = w.nonce.toNat + 1 :=
        add_toNat (by rw [UInt64.toNat_one]; omega)
      refine sound.moved later (phase ▸ trivial) rfl ?_
      change (w.nonce + 1).toNat = _
      omega
  | lastFlush ranOut phase =>
      rw [phase] at place
      refine sound.moved later (phase ▸ trivial) rfl ?_
      cases ranOut with
      | true => exact place
      | false => exact place.imp_right fun excused => excused.mono later (Nat.le_refl _)
  | lastPoll phase =>
      rw [phase] at place
      exact sound.moved later (phase ▸ trivial) rfl (.inl place)
  | done phase =>
      rw [Worker.hashing_of_quiet (phase ▸ trivial)]
      exact sound

/-- What is reported lies in the range, is accepted, and comes with its own digest. -/
theorem Worker.Sound.reported (sound : w.Sound task r board scanned) {digest : Digest}
    (phase : w.phase = .report digest) :
    ⟨w.nonce⟩ ∈ r ∧ digest = task.digest ⟨w.nonce⟩ ∧ task.accepts ⟨w.nonce⟩ = true := by
  obtain ⟨low, here, same, accepted⟩ := sound.at_report phase
  have within := sound.within
  refine ⟨?_, same, accepted⟩
  rw [NonceRange.mem_iff]
  dsimp only
  omega

theorem Worker.Sound.takes_board (sound : w.Sound task r board scanned) {range : NonceRange}
    (inside : ∀ n ∈ r, n ∈ range) (valid : board.Sound task range)
    (takes : w.Takes task age board next) : next.1.Sound task range := by
  cases takes with
  | report digest phase =>
      obtain ⟨member, same, accepted⟩ := sound.reported phase
      exact valid.report (inside _ member) same accepted
  | flush | lastFlush => exact valid.flush _
  | poll | lastPoll => exact valid.poll
  | _ => exact valid

theorem Worker.Sound.leading (sound : w.Sound task r board scanned) :
    r.leading scanned ++ w.hashing = r.leading (scanned + w.hashing.length) := by
  by_cases phase : w.phase = .hash
  · obtain ⟨here, before⟩ := sound.at_hash phase
    have most := w.nonce.toNat_lt
    have same : w.nonce = r.first + scanned.toUInt64 := by
      apply UInt64.toNat_inj.mp
      rw [NonceRange.first_add_toNat (by omega)]
      exact here
    simp only [Worker.hashing, phase, if_true, List.length_singleton,
      NonceRange.leading_succ, same]
  · simp only [Worker.hashing, phase, if_false, List.append_nil, List.length_nil, Nat.add_zero]

end
end ProofOfWork.Search
