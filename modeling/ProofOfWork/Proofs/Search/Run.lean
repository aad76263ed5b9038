import ProofOfWork.Engine.Basic
import ProofOfWork.Proofs.Search.Scan
set_option autoImplicit false

namespace ProofOfWork.Search

/-- What holds of the board and all workers after the moves so far. -/
structure Crew.Sound (task : Task) (range : NonceRange) (parts : List NonceRange)
    (moves : List Move) (crew : Crew) : Prop where
  board : crew.board.Sound task range
  length : crew.workers.length = parts.length
  workers : ∀ place r w, parts[place]? = some r → crew.workers[place]? = some w →
    ∃ scanned, hashedBy place moves = r.leading scanned ∧ w.Sound task r crew.board scanned

section
variable {task : Task} {range : NonceRange} {parts : List NonceRange} {moves : List Move}
  {crew : Crew}

theorem Crew.start_sound (task : Task) (range : NonceRange) (fired : Bool) (hashes : UInt64)
    {parts : List NonceRange} (ordered : ∀ r ∈ parts, r.first.toNat ≤ r.stop.toNat) :
    (Crew.start fired parts hashes).Sound task range parts [] := by
  refine ⟨Board.start_sound task range fired hashes, List.length_map _, ?_⟩
  intro place r w part found
  have same : w = Worker.at r := by
    simpa [Crew.start, part] using found.symm
  subst same
  exact ⟨0, rfl, Worker.at_sound task _ (ordered r (List.mem_of_getElem? part))⟩

theorem Crew.Sound.fire (sound : crew.Sound task range parts moves) :
    ({ crew with board := { crew.board with fired := true } } : Crew).Sound task range parts
      moves := by
  refine ⟨sound.board.fire, sound.length, ?_⟩
  intro place r w part found
  obtain ⟨scanned, record, valid⟩ := sound.workers place r w part found
  exact ⟨scanned, record, valid.later crew.board.fire_later⟩

/-- The worker that moves keeps its own account, and the others keep theirs on the new board. -/
theorem Crew.Sound.work (sound : crew.Sound task range parts moves)
    (inside : ∀ r ∈ parts, ∀ n ∈ r, n ∈ range) {place : Nat} (age : Nat) {w : Worker}
    (found : crew.workers[place]? = some w) :
    (⟨(w.step task age crew.board).1, crew.workers.set place (w.step task age crew.board).2⟩ :
      Crew).Sound task range parts (moves ++ [(place, w)]) := by
  have below : place < crew.workers.length := (List.getElem?_eq_some_iff.mp found).1
  obtain ⟨part, at_part⟩ : ∃ part, parts[place]? = some part :=
    ⟨_, List.getElem?_eq_getElem (by rw [← sound.length]; exact below)⟩
  obtain ⟨scanned, record, valid⟩ := sound.workers place part w at_part found
  have member := List.mem_of_getElem? at_part
  have takes := w.step_takes task age crew.board
  refine ⟨valid.takes_board (inside part member) sound.board takes, ?_, ?_⟩
  · rw [List.length_set]
    exact sound.length
  · intro other r v otherPart otherFound
    -- the others have not moved, but they see the new board
    by_cases same : place = other
    · subst same
      rw [at_part] at otherPart
      rw [List.getElem?_set_self below] at otherFound
      cases otherPart
      cases otherFound
      refine ⟨scanned + w.hashing.length, ?_, valid.takes sound.board.descending takes⟩
      simp [record, valid.leading]
    · rw [List.getElem?_set_ne same] at otherFound
      obtain ⟨count, kept, still⟩ := sound.workers other r v otherPart otherFound
      refine ⟨count, ?_, still.later takes.later⟩
      rw [hashedBy_append, hashedBy_other same, List.append_nil, kept]

theorem Crew.Sound.follow (sound : crew.Sound task range parts moves)
    (inside : ∀ r ∈ parts, ∀ n ∈ r, n ∈ range) (choice : Choice) :
    (crew.follow task choice).Sound task range parts (moves ++ crew.move choice) := by
  refine Crew.follow_cases
    (motive := fun _ made next => next.Sound task range parts (moves ++ made)) ?_ ?_ ?_ choice
  · rw [List.append_nil]
    exact sound.fire
  · intro _ _
    rw [List.append_nil]
    exact sound
  · intro place age w found
    exact sound.work inside age found

/-- How the worker of a part has ended: after a whole scan, or with an excuse for the rest. -/
theorem Crew.Sound.part_ended (sound : crew.Sound task range parts moves)
    (ended : ∀ w ∈ crew.workers, w.phase = .done) {r : NonceRange} (part : r ∈ parts) :
    ∃ place scanned, hashedBy place moves = r.leading scanned ∧
      r.first.toNat + scanned ≤ r.stop.toNat ∧
      (r.first.toNat + scanned = r.stop.toNat ∨
        crew.board.Excuses task (r.first.toNat + scanned)) ∧
      ∀ n ∈ r, n.value.toNat < r.first.toNat + scanned → task.accepts n = true →
        crew.board.Excuses task (n.value.toNat + 1) := by
  obtain ⟨place, below, at_part⟩ := List.getElem_of_mem part
  obtain ⟨w, found⟩ : ∃ w, crew.workers[place]? = some w :=
    ⟨_, List.getElem?_eq_getElem (by rw [sound.length]; exact below)⟩
  obtain ⟨scanned, record, valid⟩ :=
    sound.workers place r w (List.getElem?_eq_some_iff.mpr ⟨below, at_part⟩) found
  have done := ended w (List.mem_of_getElem? found)
  refine ⟨place, scanned, record, valid.within, ?_, ?_⟩
  · simpa only [Worker.Place, done] using valid.place
  · intro n member seen accepted
    rcases valid.past n member seen accepted with reporting | excused
    · simp only [Worker.reporting, done, List.not_mem_nil] at reporting
    · exact excused

/-- When all workers have ended, each accepted nonce of the range has been dealt with. -/
theorem Crew.Sound.settled (sound : crew.Sound task range parts moves)
    (ended : ∀ w ∈ crew.workers, w.phase = .done) {r : NonceRange} (part : r ∈ parts) {n : Nonce}
    (member : n ∈ r) (accepted : task.accepts n = true) :
    crew.board.Excuses task (n.value.toNat + 1) := by
  obtain ⟨place, scanned, -, -, whole | excused, past⟩ := sound.part_ended ended part
  · have high := (NonceRange.mem_iff.mp member).2
    exact past n member (by omega) accepted
  · by_cases seen : n.value.toNat < r.first.toNat + scanned
    · exact past n member seen accepted
    · exact excused.mono (.refl _) (by omega)

/-- When all workers have ended, each nonce of the range was hashed, or its worker was excused. -/
theorem Crew.Sound.hashed (sound : crew.Sound task range parts moves)
    (ended : ∀ w ∈ crew.workers, w.phase = .done) {r : NonceRange} (part : r ∈ parts) {n : Nonce}
    (member : n ∈ r) : n ∈ hashed moves ∨ crew.board.Excuses task n.value.toNat := by
  obtain ⟨place, scanned, record, within, done, -⟩ := sound.part_ended ended part
  obtain ⟨low, high⟩ := NonceRange.mem_iff.mp member
  by_cases seen : n.value.toNat < r.first.toNat + scanned
  · refine .inl (mem_hashed_of_hashedBy place ?_)
    rw [record, NonceRange.mem_leading within]
    exact ⟨low, seen⟩
  · rcases done with whole | excused
    · omega
    · exact .inr (excused.mono (.refl _) (by omega))

end

theorem Worker.Takes.slot {task : Task} {age : Nat} {board : Board} {w : Worker}
    {next : Board × Worker} (takes : w.Takes task age board next)
    (first : task.mode = .firstFound) : next.1.slot = board.slot.or w.reporting.head? := by
  cases takes with
  | report digest phase => simp only [Worker.reporting, phase, first, Board.report, List.head?_cons]
  | hit phase | fill phase | miss phase =>
      simp only [Worker.reporting, phase, List.head?_nil, Option.or_none]
  | beyond phase | told phase | onward phase | flush phase | poll phase | greatest phase
  | advance phase | lastFlush _ phase | lastPoll phase | done phase =>
      rw [Worker.reporting_of_quiet (phase ▸ trivial)]
      simp

theorem Crew.follow_slot {task : Task} (first : task.mode = .firstFound) {moves : List Move}
    {crew : Crew} (choice : Choice) (kept : crew.board.slot = (reports moves).head?) :
    (crew.follow task choice).board.slot = (reports (moves ++ crew.move choice)).head? := by
  refine Crew.follow_cases
    (motive := fun _ made next => next.board.slot = (reports (moves ++ made)).head?) ?_ ?_ ?_ choice
  · rw [List.append_nil]
    exact kept
  · intro _ _
    rw [List.append_nil]
    exact kept
  · intro place age w _
    rw [reports_append, reports_single, List.head?_append, ← kept]
    exact (w.step_takes task age crew.board).slot first

namespace Plan

/-- The parts of the plan follow each other through its range. -/
def Whole (p : Plan) : Prop := NonceRange.Adjoin p.range.first p.parts p.range.stop

/-- The schedule of a search, up to the end of all its workers. -/
def course (p : Plan) (schedule : Schedule) : Schedule :=
  completed p.task p.start schedule

def last (p : Plan) (schedule : Schedule) : Crew :=
  p.start.after p.task (p.course schedule)

def moves (p : Plan) (schedule : Schedule) : List Move :=
  p.start.moves p.task (p.course schedule)

section
variable {p : Plan}

@[simp] theorem last_board (p : Plan) (schedule : Schedule) :
    (p.last schedule).board = p.run schedule :=
  (after_completed p.task p.start schedule).2

theorem last_done (p : Plan) (schedule : Schedule) :
    ∀ w ∈ (p.last schedule).workers, w.phase = .done :=
  (after_completed p.task p.start schedule).1

theorem Whole.mem (whole : p.Whole) (n : Nonce) :
    (∃ part ∈ p.parts, n ∈ part) ↔ n ∈ p.range := NonceRange.Adjoin.mem whole n

/-- The parts lie in the range; they need not make it up. -/
structure Within (p : Plan) : Prop where
  inside : ∀ part ∈ p.parts, ∀ n ∈ part, n ∈ p.range
  ordered : ∀ part ∈ p.parts, part.first ≤ part.stop

theorem Whole.within (whole : p.Whole) : p.Within where
  inside part member n here := (whole.mem n).mp ⟨part, member, here⟩
  ordered part member := Nat.le_of_lt (NonceRange.Adjoin.filled whole part member)

theorem Within.after_sound (within : p.Within) (schedule : Schedule) :
    (p.start.after p.task schedule).Sound p.task p.range p.parts (p.start.moves p.task schedule) :=
  Crew.after_induction p.task (fun moves crew => crew.Sound p.task p.range p.parts moves)
    (fun _ _ _ sound => sound.follow within.inside _) schedule
    (Crew.start_sound p.task p.range p.fired p.hashes within.ordered)

theorem Within.last_sound (within : p.Within) (schedule : Schedule) :
    (p.last schedule).Sound p.task p.range p.parts (p.moves schedule) :=
  within.after_sound (p.course schedule)

theorem Within.run_sound (within : p.Within) (schedule : Schedule) :
    (p.run schedule).Sound p.task p.range := by
  rw [← last_board]
  exact (within.last_sound schedule).board

theorem last_sound (whole : p.Whole) (schedule : Schedule) :
    (p.last schedule).Sound p.task p.range p.parts (p.moves schedule) :=
  whole.within.last_sound schedule

theorem run_sound (whole : p.Whole) (schedule : Schedule) :
    (p.run schedule).Sound p.task p.range := whole.within.run_sound schedule

/-- No solution is missed, and none of the nonces is left out. -/
theorem run_exhausted (whole : p.Whole) (schedule : Schedule)
    (uncancelled : (p.run schedule).cancelled = false) (empty : (p.run schedule).slot = none)
    {n : Nonce} (member : n ∈ p.range) :
    n ∈ hashed (p.moves schedule) ∧ p.task.accepts n = false := by
  obtain ⟨part, listed, inside⟩ := (whole.mem n).mpr member
  have high := (NonceRange.mem_iff.mp member).2
  have most := p.range.stop.toNat_lt
  have useful : ∀ number ≤ 2 ^ 64 - 1, ¬ (p.last schedule).board.Excuses p.task number := by
    intro number small
    simpa using (run_sound whole schedule).not_excuses uncancelled empty small
  have sound := last_sound whole schedule
  have ended := last_done p schedule
  constructor
  · exact (sound.hashed ended listed inside).resolve_right (useful _ (by omega))
  · refine Bool.eq_false_iff.mpr fun accepted => ?_
    exact useful _ (by omega) (sound.settled ended listed inside accepted)

theorem run_least (whole : p.Whole) (schedule : Schedule)
    (uncancelled : (p.run schedule).cancelled = false) (lowest : p.task.mode = .lowest)
    {best : Nonce} {digest : Digest} (kept : (p.run schedule).slot = some (best, digest))
    {n : Nonce} (member : n ∈ p.range) (accepted : p.task.accepts n = true) :
    best.value.toNat ≤ n.value.toNat := by
  obtain ⟨part, listed, inside⟩ := (whole.mem n).mpr member
  have excused := (last_sound whole schedule).settled (last_done p schedule) listed inside accepted
  rw [last_board] at excused
  have below := (run_sound whole schedule).least_of_excuses uncancelled lowest kept excused
  omega

/-- At every moment of a search for any solution, the slot holds the first one reported so far. -/
theorem slot_first (first : p.task.mode = .firstFound) (schedule : Schedule) :
    (p.start.after p.task schedule).board.slot =
      (reports (p.start.moves p.task schedule)).head? := by
  have start : p.start.board.slot = (reports []).head? := rfl
  exact Crew.after_induction p.task (fun moves crew => crew.board.slot = (reports moves).head?)
    (fun moves crew choice kept => Crew.follow_slot first choice kept) schedule start

theorem run_first (first : p.task.mode = .firstFound) (schedule : Schedule) :
    (p.run schedule).slot = (reports (p.moves schedule)).head? := by
  rw [← last_board]
  exact slot_first first (p.course schedule)

end
end Plan
end ProofOfWork.Search
