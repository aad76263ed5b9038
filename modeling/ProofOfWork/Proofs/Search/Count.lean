import Mathlib.Algebra.GroupWithZero.Nat
import ProofOfWork.Proofs.Search.Run
set_option autoImplicit false

/-!
How many nonces a search hashes. Each is hashed once, since the parts of the range are apart and
every worker only moves forward; and each hash is written down once, since what a worker has hashed
is on the board or still pending, whichever way its scan ends.
-/
namespace ProofOfWork.Search

theorem mem_hashedBy_of_hashed {moves : List Move} {n : Nonce} (member : n ∈ hashed moves) :
    ∃ move ∈ moves, n ∈ hashedBy move.1 moves := by
  obtain ⟨move, made, shows⟩ := List.mem_flatMap.mp member
  refine ⟨move, made, ?_⟩
  simp only [hashedBy, hashed, List.mem_flatMap, List.mem_filter, decide_eq_true_eq]
  exact ⟨move, ⟨made, rfl⟩, shows⟩

theorem hashedBy_alone {place : Nat} {moves : List Move} (alone : ∀ move ∈ moves, move.1 = place) :
    hashedBy place moves = hashed moves := by
  unfold hashedBy
  rw [List.filter_eq_self.mpr fun move made => decide_eq_true (alone move made)]

/-- The hashes of workers that are not written down yet. -/
def unwritten : List Worker → Nat
  | [] => 0
  | w :: rest => w.pending.toNat + unwritten rest

theorem unwritten_eq_zero {workers : List Worker} (still : ∀ w ∈ workers, w.pending = 0) :
    unwritten workers = 0 := by
  induction workers with
  | nil => rfl
  | cons w rest ih =>
      have head := still w List.mem_cons_self
      have tail := ih fun v later => still v (List.mem_cons_of_mem w later)
      rw [unwritten, head, tail]
      rfl

/-- A sum over a list with one item replaced: the new item is paid for with the old one. -/
theorem sum_set {α : Type} (f : α → Nat) {items : List α} {place : Nat} {old : α}
    (found : items[place]? = some old) (new : α) :
    ((items.set place new).map f).sum + f old = (items.map f).sum + f new := by
  induction items generalizing place with
  | nil => cases found
  | cons item rest ih =>
      cases place with
      | zero =>
          simp only [List.getElem?_cons_zero, Option.some.injEq] at found
          subst found
          simp only [List.set_cons_zero, List.map_cons, List.sum_cons]
          omega
      | succ place =>
          have rest := ih found
          simp only [List.set_cons_succ, List.map_cons, List.sum_cons]
          omega

theorem unwritten_eq_sum (workers : List Worker) :
    unwritten workers = (workers.map fun w => w.pending.toNat).sum := by
  induction workers with
  | nil => rfl
  | cons w rest ih => rw [unwritten, ih, List.map_cons, List.sum_cons]

theorem unwritten_set {workers : List Worker} {place : Nat} {old : Worker}
    (found : workers[place]? = some old) (new : Worker) :
    unwritten (workers.set place new) + old.pending.toNat =
      unwritten workers + new.pending.toNat := by
  rw [unwritten_eq_sum, unwritten_eq_sum]
  exact sum_set (fun w => w.pending.toNat) found new

theorem pending_le_unwritten {workers : List Worker} {place : Nat} {w : Worker}
    (found : workers[place]? = some w) : w.pending.toNat ≤ unwritten workers := by
  have rest := unwritten_set found (Worker.at ⟨0, 0⟩)
  change _ = unwritten workers + 0 at rest
  omega

/-- The account of the hashes made in the moves so far. -/
structure Crew.Counted (moves : List Move) (crew : Crew) : Prop where
  places : ∀ move ∈ moves, move.1 < crew.workers.length
  distinct : (hashed moves).Nodup
  balance : crew.board.attempts.toNat + unwritten crew.workers = (hashed moves).length
  /-- The last flush comes before the last look at the token. -/
  flushed : ∀ w ∈ crew.workers, w.phase = .lastPoll ∨ w.phase = .done → w.pending = 0

section
variable {task : Task} {age : Nat} {board : Board} {w : Worker} {next : Board × Worker}

/-- What a worker has hashed it writes down or keeps for later. -/
theorem Worker.Takes.pays (takes : w.Takes task age board next)
    (room : w.pending.toNat + w.hashing.length < 2 ^ 64) :
    w.writing.toNat + next.2.pending.toNat = w.pending.toNat + w.hashing.length := by
  cases takes with
  | hit phase | fill phase | miss phase =>
      rw [Worker.hashing_of_hash phase, List.length_singleton] at room ⊢
      have one : (w.pending + 1).toNat = w.pending.toNat + 1 :=
        add_toNat (by rw [UInt64.toNat_one]; omega)
      simp [Worker.writing, phase, one]
  | report _ phase =>
      rw [Worker.hashing_of_report phase]
      simp [Worker.writing, phase]
  | beyond phase | told phase | onward phase | flush phase | poll phase | greatest phase
  | advance phase | lastFlush _ phase | lastPoll phase | done phase =>
      rw [Worker.hashing_of_quiet (phase ▸ trivial)]
      simp [Worker.writing, phase]

theorem Worker.Takes.attempts (takes : w.Takes task age board next) :
    next.1.attempts = board.attempts + w.writing := by
  cases takes with
  | beyond phase | told phase | onward phase | hit phase | fill phase | miss phase
  | report _ phase | flush phase | poll phase | greatest phase | advance phase
  | lastFlush _ phase | lastPoll phase | done phase => simp [Worker.writing, phase]

/-- A step moves hashes from a worker to the board or makes a new one; none gets lost. -/
theorem Worker.Takes.balance (takes : w.Takes task age board next)
    (room : board.attempts.toNat + w.pending.toNat + w.hashing.length < 2 ^ 64) :
    next.1.attempts.toNat + next.2.pending.toNat =
      board.attempts.toNat + w.pending.toNat + w.hashing.length := by
  have paid := takes.pays (by omega)
  rw [takes.attempts, add_toNat (by omega)]
  omega

/-- Every way out of the scan leads through the last flush. -/
theorem Worker.Takes.flushed (takes : w.Takes task age board next)
    (flushed : w.phase = .lastPoll ∨ w.phase = .done → w.pending = 0)
    (late : next.2.phase = .lastPoll ∨ next.2.phase = .done) : next.2.pending = 0 := by
  cases takes with
  | flush | lastFlush => rfl
  | lastPoll phase => exact flushed (.inl phase)
  | done phase => exact flushed (.inr phase)
  | _ => simp at late

end

section
variable {task : Task} {range : NonceRange} {parts : List NonceRange} {moves : List Move}
  {crew : Crew}

private theorem Crew.start_pending (fired : Bool) (parts : List NonceRange) (hashes : UInt64) :
    ∀ w ∈ (Crew.start fired parts hashes).workers, w.pending = 0 := by
  intro w member
  obtain ⟨r, -, rfl⟩ := List.mem_map.mp member
  rfl

theorem Crew.start_counted (fired : Bool) (parts : List NonceRange) (hashes : UInt64) :
    (Crew.start fired parts hashes).Counted [] := by
  refine ⟨nofun, List.nodup_nil, ?_, ?_⟩
  · have idle : unwritten (Crew.start fired parts hashes).workers = 0 :=
      unwritten_eq_zero (start_pending fired parts hashes)
    rw [idle]
    rfl
  · exact fun w member _ => start_pending fired parts hashes w member

theorem Crew.Sound.hashed_part (sound : crew.Sound task range parts moves)
    (places : ∀ move ∈ moves, move.1 < crew.workers.length) {n : Nonce}
    (member : n ∈ Search.hashed moves) :
    ∃ place r, parts[place]? = some r ∧ n ∈ r ∧ n ∈ hashedBy place moves := by
  obtain ⟨move, made, mine⟩ := mem_hashedBy_of_hashed member
  have below := places move made
  obtain ⟨w, found⟩ : ∃ w, crew.workers[move.1]? = some w :=
    ⟨_, List.getElem?_eq_getElem below⟩
  obtain ⟨r, part⟩ : ∃ r, parts[move.1]? = some r :=
    ⟨_, List.getElem?_eq_getElem (by rw [← sound.length]; exact below)⟩
  obtain ⟨scanned, record, valid⟩ := sound.workers move.1 r w part found
  refine ⟨move.1, r, part, ?_, mine⟩
  rw [record, NonceRange.mem_leading valid.within] at mine
  have within := valid.within
  rw [NonceRange.mem_iff]
  omega

/-- The nonce that is hashed next was hashed by nobody before. -/
theorem Crew.Sound.hashing_fresh (sound : crew.Sound task range parts moves)
    (places : ∀ move ∈ moves, move.1 < crew.workers.length)
    (whole : NonceRange.Adjoin range.first parts range.stop) {place : Nat} {w : Worker}
    (found : crew.workers[place]? = some w) (phase : w.phase = .hash) :
    ⟨w.nonce⟩ ∉ Search.hashed moves := by
  obtain ⟨below, -⟩ := List.getElem?_eq_some_iff.mp found
  obtain ⟨r, part⟩ : ∃ r, parts[place]? = some r :=
    ⟨_, List.getElem?_eq_getElem (by rw [← sound.length]; exact below)⟩
  obtain ⟨scanned, record, valid⟩ := sound.workers place r w part found
  obtain ⟨here, before⟩ := valid.at_hash phase
  have inside : ⟨w.nonce⟩ ∈ r := by
    rw [NonceRange.mem_iff]
    dsimp only
    omega
  intro again
  obtain ⟨other, s, shared, elsewhere, mine⟩ := sound.hashed_part places again
  have same := whole.place_unique part shared inside elsewhere
  subst same
  rw [record, NonceRange.mem_leading valid.within] at mine
  dsimp only at mine
  omega

/-- Hashed nonces are nonces of the range, so there are at most as many as the range has. -/
theorem Crew.Sound.length_le (sound : crew.Sound task range parts moves)
    (places : ∀ move ∈ moves, move.1 < crew.workers.length)
    (whole : NonceRange.Adjoin range.first parts range.stop)
    (distinct : (Search.hashed moves).Nodup) :
    (Search.hashed moves).length ≤ range.stop.toNat - range.first.toNat := by
  have ordered := whole.ordered
  have within : Search.hashed moves ⊆ range.leading (range.stop.toNat - range.first.toNat) := by
    intro n member
    obtain ⟨place, r, part, inside, -⟩ := sound.hashed_part places member
    have covered := (whole.mem n).mp ⟨r, List.mem_of_getElem? part, inside⟩
    rw [NonceRange.mem_iff] at covered
    rw [NonceRange.mem_leading (by omega)]
    have low : range.first.toNat ≤ n.value.toNat := covered.1
    have high : n.value.toNat < range.stop.toNat := covered.2
    omega
  have most := distinct.length_le_of_subset within
  rwa [NonceRange.length_leading] at most

theorem Crew.Counted.fire (counted : crew.Counted moves) :
    ({ crew with board := { crew.board with fired := true } } : Crew).Counted moves :=
  ⟨counted.places, counted.distinct, counted.balance, counted.flushed⟩

theorem Crew.Counted.work (counted : crew.Counted moves)
    (sound : crew.Sound task range parts moves)
    (whole : NonceRange.Adjoin range.first parts range.stop) {place : Nat} (age : Nat) {w : Worker}
    (found : crew.workers[place]? = some w)
    (next : (⟨(w.step task age crew.board).1,
      crew.workers.set place (w.step task age crew.board).2⟩ : Crew).Sound task range parts
        (moves ++ [(place, w)])) :
    (⟨(w.step task age crew.board).1, crew.workers.set place (w.step task age crew.board).2⟩ :
      Crew).Counted (moves ++ [(place, w)]) := by
  have places : ∀ move ∈ moves ++ [(place, w)],
      move.1 < (crew.workers.set place (w.step task age crew.board).2).length := by
    intro move made
    rw [List.length_set]
    rcases List.mem_append.mp made with before | now
    · exact counted.places move before
    · rw [List.mem_singleton.mp now]
      exact (List.getElem?_eq_some_iff.mp found).1
  have distinct : (hashed (moves ++ [(place, w)])).Nodup := by
    rw [hashed_append, hashed_single]
    by_cases phase : w.phase = .hash
    · simp only [Worker.hashing, phase, if_true, List.nodup_append]
      refine ⟨counted.distinct, List.pairwise_singleton _ _, ?_⟩
      intro n before m now same
      rw [List.mem_singleton] at now
      subst now
      subst same
      exact sound.hashing_fresh counted.places whole found phase before
    · simpa only [Worker.hashing, phase, if_false, List.append_nil] using counted.distinct
  refine ⟨places, distinct, ?_, ?_⟩
  · -- the range has room for every hash, so the counter does not wrap
    have length := next.length_le places whole distinct
    have most := range.stop.toNat_lt
    have balance := counted.balance
    have others := unwritten_set found (w.step task age crew.board).2
    have part := pending_le_unwritten found
    rw [hashed_append, hashed_single, List.length_append] at length ⊢
    dsimp only at length ⊢
    have moved := (w.step_takes task age crew.board).balance (by omega)
    omega
  · intro v member
    rcases List.mem_or_eq_of_mem_set member with other | rfl
    · exact counted.flushed v other
    · exact (w.step_takes task age crew.board).flushed
        (counted.flushed w (List.mem_of_getElem? found))

theorem Crew.Counted.written (counted : crew.Counted moves)
    (ended : ∀ w ∈ crew.workers, w.phase = .done) :
    crew.board.attempts.toNat = (hashed moves).length := by
  have nothing : unwritten crew.workers = 0 :=
    unwritten_eq_zero fun w member => counted.flushed w member (.inr (ended w member))
  have balance := counted.balance
  omega

end

/-- Whether a worker may still come to another nonce. -/
def Phase.Scanning : Phase → Prop
  | .check | .hash | .flush | .poll | .advance => True
  | .report _ | .lastFlush _ | .lastPoll | .done => False

/-- A worker that has hashed these nonces has not gone beyond an accepted one. -/
structure Worker.Halts (task : Task) (scanned : List Nonce) (w : Worker) : Prop where
  earlier : ∀ n ∈ scanned.dropLast, task.accepts n = false
  onward : w.phase.Scanning → ∀ n ∈ scanned, task.accepts n = false

theorem Worker.at_halts (task : Task) (r : NonceRange) : (Worker.at r).Halts task [] :=
  ⟨nofun, fun _ => nofun⟩

section
variable {task : Task} {age : Nat} {board : Board} {w : Worker} {next : Board × Worker}

theorem Worker.Takes.scanning (takes : w.Takes task age board next)
    (scanning : next.2.phase.Scanning) : w.phase.Scanning := by
  cases takes with
  | report | lastPoll => exact scanning.elim
  | lastFlush ranOut => cases ranOut <;> exact scanning.elim
  | done => exact scanning
  | beyond phase | told phase | onward phase | hit phase | fill phase | miss phase | flush phase
  | poll phase | greatest phase | advance phase =>
      rw [phase]
      trivial

theorem Worker.Takes.rejected (takes : w.Takes task age board next) (phase : w.phase = .hash)
    (scanning : next.2.phase.Scanning) : task.accepts ⟨w.nonce⟩ = false := by
  cases takes with
  | hit => exact scanning.elim
  | fill _ rejected | miss _ rejected => exact rejected
  | beyond other | told other | onward other | report _ other | flush other | poll other
  | greatest other | advance other | lastFlush _ other | lastPoll other | done other =>
      rw [phase] at other
      cases other

theorem Worker.Halts.takes {scanned : List Nonce} (halts : w.Halts task scanned)
    (takes : w.Takes task age board next) : next.2.Halts task (scanned ++ w.hashing) := by
  by_cases phase : w.phase = .hash
  · have rejected := halts.onward (phase ▸ trivial)
    rw [Worker.hashing_of_hash phase]
    refine ⟨?_, ?_⟩
    · rw [List.dropLast_concat]
      exact rejected
    · intro scanning n member
      rcases List.mem_append.mp member with before | last
      · exact rejected n before
      · rw [List.mem_singleton.mp last]
        exact takes.rejected phase scanning
  · have still : w.hashing = [] := if_neg phase
    rw [still, List.append_nil]
    exact ⟨halts.earlier, fun scanning => halts.onward (takes.scanning scanning)⟩

end

/-- No worker has gone beyond a nonce that it found accepted. -/
def Crew.Halting (task : Task) (moves : List Move) (crew : Crew) : Prop :=
  ∀ (place : Nat) (w : Worker), crew.workers[place]? = some w →
    w.Halts task (hashedBy place moves)

theorem Crew.Halting.follow {task : Task} {moves : List Move} {crew : Crew}
    (halting : crew.Halting task moves) (choice : Choice) :
    (crew.follow task choice).Halting task (moves ++ crew.move choice) := by
  refine Crew.follow_cases
    (motive := fun _ made next => next.Halting task (moves ++ made)) ?_ ?_ ?_ choice
  · rw [List.append_nil]
    exact halting
  · intro _ _
    rw [List.append_nil]
    exact halting
  · intro place age w found other v there
    rw [hashedBy_append]
    by_cases same : place = other
    · subst same
      rw [List.getElem?_set_self (List.getElem?_eq_some_iff.mp found).1] at there
      cases there
      simpa using (halting place w found).takes (w.step_takes task age crew.board)
    · rw [List.getElem?_set_ne same] at there
      rw [hashedBy_other same, List.append_nil]
      exact halting other v there

namespace Plan
variable {p : Plan}

/-- At every moment of a search the hashes made so far are accounted for. -/
theorem after_counted (whole : p.Whole) (schedule : Schedule) :
    (p.start.after p.task schedule).Counted (p.start.moves p.task schedule) := by
  have inside : ∀ r ∈ p.parts, ∀ n ∈ r, n ∈ p.range :=
    fun r part n member => (whole.mem n).mp ⟨r, part, member⟩
  have start := Crew.start_sound p.task p.range p.fired p.hashes
    (fun r part => Nat.le_of_lt (NonceRange.Adjoin.filled whole r part))
  refine (Crew.after_induction p.task
    (fun moves crew => crew.Sound p.task p.range p.parts moves ∧ crew.Counted moves) ?_
    schedule ⟨start, Crew.start_counted p.fired p.parts p.hashes⟩).2
  rintro moves crew choice ⟨sound, counted⟩
  refine Crew.follow_cases (motive := fun _ made next =>
    next.Sound p.task p.range p.parts (moves ++ made) ∧ next.Counted (moves ++ made)) ?_ ?_ ?_ choice
  · rw [List.append_nil]
    exact ⟨sound.fire, counted.fire⟩
  · intro _ _
    rw [List.append_nil]
    exact ⟨sound, counted⟩
  · intro place age w found
    have next := sound.work inside age found
    exact ⟨next, counted.work sound whole age found next⟩

theorem last_counted (whole : p.Whole) (schedule : Schedule) :
    (p.last schedule).Counted (p.moves schedule) := after_counted whole (p.course schedule)

theorem moves_distinct (whole : p.Whole) (schedule : Schedule) :
    (hashed (p.moves schedule)).Nodup := (last_counted whole schedule).distinct

theorem mem_range_of_hashed (whole : p.Whole) (schedule : Schedule) {n : Nonce}
    (member : n ∈ hashed (p.moves schedule)) : n ∈ p.range := by
  obtain ⟨place, r, part, inside, -⟩ :=
    (last_sound whole schedule).hashed_part (last_counted whole schedule).places member
  exact (whole.mem n).mp ⟨r, List.mem_of_getElem? part, inside⟩

/-- The board says how many nonces were hashed, whether the search was cancelled or not. -/
theorem run_attempts (whole : p.Whole) (schedule : Schedule) :
    (p.run schedule).attempts.toNat = (hashed (p.moves schedule)).length := by
  rw [← last_board]
  exact (last_counted whole schedule).written (last_done p schedule)

theorem run_exhausted_length (whole : p.Whole) (schedule : Schedule)
    (uncancelled : (p.run schedule).cancelled = false) (empty : (p.run schedule).slot = none) :
    (hashed (p.moves schedule)).length = p.range.stop.toNat - p.range.first.toNat := by
  have ordered := NonceRange.Adjoin.ordered whole
  have most := (last_sound whole schedule).length_le (last_counted whole schedule).places whole
    (moves_distinct whole schedule)
  have all : p.range.leading (p.range.stop.toNat - p.range.first.toNat) ⊆
      hashed (p.moves schedule) := by
    intro n member
    rw [NonceRange.mem_leading (by omega)] at member
    have covered : n ∈ p.range := NonceRange.mem_iff.mpr ⟨member.1, by omega⟩
    exact (run_exhausted whole schedule uncancelled empty covered).1
  have least := (NonceRange.leading_nodup (by omega)).length_le_of_subset all
  rw [NonceRange.length_leading] at least
  omega

theorem run_lowest_hashed (whole : p.Whole) (schedule : Schedule)
    (uncancelled : (p.run schedule).cancelled = false) (lowest : p.task.mode = .lowest)
    {best : Nonce} {digest : Digest} (kept : (p.run schedule).slot = some (best, digest))
    {n : Nonce} (member : n ∈ p.range) (upTo : n.value.toNat ≤ best.value.toNat) :
    n ∈ hashed (p.moves schedule) := by
  obtain ⟨part, listed, inside⟩ := (whole.mem n).mpr member
  refine ((last_sound whole schedule).hashed (last_done p schedule) listed inside).resolve_right ?_
  intro excused
  rw [last_board] at excused
  have below := (run_sound whole schedule).least_of_excuses uncancelled lowest kept excused
  omega

theorem run_lowest_length (whole : p.Whole) (schedule : Schedule)
    (uncancelled : (p.run schedule).cancelled = false) (lowest : p.task.mode = .lowest)
    {best : Nonce} {digest : Digest} (kept : (p.run schedule).slot = some (best, digest)) :
    best.value.toNat - p.range.first.toNat + 1 ≤ (hashed (p.moves schedule)).length := by
  have covered := ((run_sound whole schedule).genuine best digest kept).1
  rw [NonceRange.mem_iff] at covered
  have within : p.range.first.toNat + (best.value.toNat - p.range.first.toNat + 1) ≤
      p.range.stop.toNat := by omega
  have all : p.range.leading (best.value.toNat - p.range.first.toNat + 1) ⊆
      hashed (p.moves schedule) := by
    intro n member
    rw [NonceRange.mem_leading within] at member
    exact run_lowest_hashed whole schedule uncancelled lowest kept
      (NonceRange.mem_iff.mpr ⟨member.1, by omega⟩) (by omega)
  have least := (NonceRange.leading_nodup within).length_le_of_subset all
  rwa [NonceRange.length_leading] at least

theorem last_halting (p : Plan) (schedule : Schedule) :
    (p.last schedule).Halting p.task (p.moves schedule) := by
  have start : p.start.Halting p.task [] := by
    intro place w found
    obtain ⟨r, -, rfl⟩ := List.mem_map.mp (List.mem_of_getElem? found)
    exact Worker.at_halts p.task r
  exact Crew.after_induction p.task (fun moves crew => crew.Halting p.task moves)
    (fun moves crew choice halting => halting.follow choice) (p.course schedule) start

/-- A single worker hashes nothing beyond the solution that it finds. -/
theorem run_single_length (whole : p.Whole) (schedule : Schedule)
    (uncancelled : (p.run schedule).cancelled = false) (lowest : p.task.mode = .lowest)
    {best : Nonce} {digest : Digest} (kept : (p.run schedule).slot = some (best, digest))
    (single : p.parts.length ≤ 1) :
    (hashed (p.moves schedule)).length = best.value.toNat - p.range.first.toNat + 1 := by
  have sound := last_sound whole schedule
  have counted := last_counted whole schedule
  obtain ⟨covered, -, accepted⟩ := (run_sound whole schedule).genuine best digest kept
  have reached := run_lowest_hashed whole schedule uncancelled lowest kept covered (Nat.le_refl _)
  obtain ⟨place, r, part, inside, mine⟩ := sound.hashed_part counted.places reached
  obtain ⟨below, -⟩ := List.getElem?_eq_some_iff.mp part
  obtain ⟨w, found⟩ : ∃ w, (p.last schedule).workers[place]? = some w :=
    ⟨_, List.getElem?_eq_getElem (by rw [sound.length]; exact below)⟩
  obtain ⟨scanned, record, valid⟩ := sound.workers place r w part found
  have halts := last_halting p schedule place w found
  have alone : ∀ move ∈ p.moves schedule, move.1 = place := by
    intro move made
    have at_part := counted.places move made
    rw [sound.length] at at_part
    omega
  have first : r.first = p.range.first := NonceRange.Adjoin.first_of_single whole single part
  rw [← hashedBy_alone alone, record, NonceRange.length_leading]
  rw [record] at mine halts
  have within := valid.within
  obtain ⟨low, high⟩ := (NonceRange.mem_leading within).mp mine
  -- the solution is accepted, so it is the last nonce that was hashed
  cases scanned with
  | zero => omega
  | succ scanned =>
      have last : ¬ best.value.toNat < r.first.toNat + scanned := by
        intro earlier
        have rejected := halts.earlier best (by
          rw [NonceRange.leading_succ, List.dropLast_concat,
            NonceRange.mem_leading (by omega)]
          exact ⟨low, earlier⟩)
        rw [accepted] at rejected
        cases rejected
      rw [first] at low high last
      omega

end Plan
end ProofOfWork.Search
