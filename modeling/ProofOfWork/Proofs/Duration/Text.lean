import ProofOfWork.Duration.Text
import ProofOfWork.Proofs.Decimal.Text
set_option autoImplicit false

namespace ProofOfWork.Duration
open Text

theorem eq_of_nanos {d e : Duration} (same : d.nanos = e.nanos) : d = e := by
  obtain ⟨n, limit⟩ := d
  obtain rfl := same
  rfl

theorem seconds_lt (d : Duration) : d.seconds < 2 ^ 64 :=
  Nat.div_lt_of_lt_mul (Nat.mul_comm _ _ ▸ d.nanos_lt)

theorem subsecond_lt (d : Duration) : d.subsecond < nanosPerSecond := Nat.mod_lt _ (by decide)

def TimeUnit.nanos (u : TimeUnit) : Nat := if u.subsecond then u.size else u.size * nanosPerSecond

/-- A name of a unit that is told apart from the number before it. -/
structure Names (name : String) (u : TimeUnit) : Prop where
  letters : ∀ c ∈ name.toList, c.isAlpha = true
  first : ∃ c ∈ name.toList.head?, isDigitOrBlank c = false ∧ c ≠ '.'
  unit : timeUnit? name.toList = some u

/-- So many of a unit, under one of its names. -/
structure Term where
  count : Nat
  name : String
  unit : TimeUnit

namespace Term

def nanos (t : Term) : Nat := t.count * t.unit.nanos

def text (t : Term) : List Char := decimal t.count ++ t.name.toList

structure Sound (t : Term) : Prop where
  names : Names t.name t.unit
  fits : t.count * t.unit.size < 2 ^ 64
  part : t.unit.subsecond = true → t.count * t.unit.size < nanosPerSecond

variable {t : Term} {sum : Nat}

theorem Sound.add (sound : t.Sound) (within : sum + t.nanos < durationLimit) :
    addWhole? sum t.count t.unit = some (sum + t.nanos) := by
  have fits := sound.fits
  have rest : sum % nanosPerSecond < nanosPerSecond := Nat.mod_lt _ (by decide)
  have second : nanosPerSecond + nanosPerSecond < 2 ^ 64 := by decide
  rw [addWhole?, word?, if_pos sound.fits, Option.bind_eq_bind, Option.bind_some]
  unfold nanos TimeUnit.nanos at *
  cases parts : t.unit.subsecond with
  | true =>
    have part := sound.part parts
    simp only [parts, if_true] at within ⊢
    have word : sum % nanosPerSecond + t.count * t.unit.size < 2 ^ 64 := by omega
    simp [extend?, word?, word, within]
  | false =>
    simp only [parts, Bool.false_eq_true, if_false, ← Nat.mul_assoc] at within ⊢
    have word : sum % nanosPerSecond < 2 ^ 64 := by omega
    simp [extend?, word?, word, within]

theorem Sound.count_lt (sound : t.Sound) : t.count < 2 ^ 64 := by
  have sized : ∀ u ∈ timeUnits, 0 < u.size := by decide
  have pos := sized t.unit (List.mem_of_find?_eq_some sound.names.unit)
  exact Nat.lt_of_le_of_lt (Nat.le_mul_of_pos_right _ pos) sound.fits

theorem Sound.read (sound : t.Sound) {rest : List Char} (ends : ∀ c ∈ rest.head?, c = ' ')
    (within : sum + t.nanos < durationLimit) :
    term? sum (t.text ++ rest) = some (sum + t.nanos, rest) := by
  have digits (c : Char) (member : c ∈ decimal t.count) : isDigitOrBlank c = true := by
    rw [isDigitOrBlank, Decimal.isDigit_of_mem_decimal member, Bool.true_or]
  have only : (decimal t.count).filter Char.isDigit = decimal t.count :=
    List.filter_eq_self.mpr fun _ => Decimal.isDigit_of_mem_decimal
  obtain ⟨c, first, other, point⟩ := sound.names.first
  obtain ⟨name, named⟩ := List.head?_eq_some_iff.mp first
  have letter : ∀ c ∈ (t.name.toList ++ rest).head?, isDigitOrBlank c = false := by
    rw [named]
    rintro _ ⟨⟩
    exact other
  have blank : ∀ c ∈ rest.head?, isUnitLetter c = false := by
    intro c first
    rw [ends c first]
    rfl
  have number := span_append digits letter
  have inside (c : Char) (member : c ∈ t.name.toList) : isUnitLetter c = true := by
    rw [isUnitLetter, sound.names.letters c member]
    rfl
  have letters := span_append inside blank
  have unit := sound.names.unit
  rw [term?, text, List.append_assoc, number.1, number.2, only, Decimal.digitsValue_decimal, word?,
    if_pos sound.count_lt]
  rw [named, List.cons_append] at letters ⊢
  rw [named] at unit
  simp [point, letters, unit, sound.add within]

theorem text_head (t : Term) : ∃ c cs, t.text = c :: cs ∧ c.isDigit = true := by
  obtain ⟨c, cs, front, digit⟩ := Decimal.decimal_cons t.count
  exact ⟨c, cs ++ t.name.toList, by rw [text, front, List.cons_append], digit⟩

theorem Sound.two_le_length (sound : t.Sound) : 2 ≤ t.text.length := by
  obtain ⟨c, first, -⟩ := sound.names.first
  obtain ⟨name, named⟩ := List.head?_eq_some_iff.mp first
  have number := Decimal.length_decimal_pos t.count
  rw [text, List.length_append, named, List.length_cons]
  omega

end Term

theorem length_le_terms (ts : List Term) :
    ts.length ≤ (ts.flatMap fun t => ' ' :: t.text).length := by
  induction ts with
  | nil => exact Nat.le_refl 0
  | cons t ts ih =>
      rw [List.flatMap_cons, List.length_append, List.length_cons, List.length_cons]
      omega

@[simp] theorem terms_blank (sum fuel : Nat) (text : List Char) :
    terms? sum fuel (' ' :: text) = terms? sum fuel text := by
  cases fuel with
  | zero => rfl
  | succ fuel => rfl

theorem terms_digit {c : Char} (digit : c.isDigit = true) (sum fuel : Nat) (cs : List Char) :
    terms? sum (fuel + 1) (c :: cs) =
      (term? sum (c :: cs)).bind fun left => terms? left.1 fuel left.2 := by
  rw [terms?, List.dropWhile_cons, not_blank_of_plain (plain_of_isDigit digit)]
  simp only [Bool.false_eq_true, if_false, digit, if_true]
  rfl

def total (ts : List Term) : Nat := (ts.map Term.nanos).sum

/-- Terms are added up, if their sum is a duration. -/
theorem terms_read {ts : List Term} (sound : ∀ t ∈ ts, t.Sound) {sum fuel : Nat}
    (enough : ts.length < fuel) (within : sum + total ts < durationLimit) :
    terms? sum fuel (ts.flatMap fun t => ' ' :: t.text) = some (sum + total ts) := by
  -- on the terms that are left, each with its space in front
  induction ts generalizing sum fuel with
  | nil =>
      obtain ⟨fuel, rfl⟩ := Nat.exists_eq_add_of_lt enough
      rfl
  | cons t ts ih =>
      obtain ⟨fuel, rfl⟩ : ∃ more, fuel = more + 1 := ⟨fuel - 1, by omega⟩
      have later : total (t :: ts) = t.nanos + total ts := by
        rw [total, List.map_cons, List.sum_cons, total]
      have ends : ∀ c ∈ (ts.flatMap fun t => ' ' :: t.text).head?, c = ' ' := by
        cases ts with
        | nil => exact nofun
        | cons t ts => rintro c ⟨⟩; rfl
      have part : sum + t.nanos < durationLimit := by omega
      have first := (sound t List.mem_cons_self).read ends part
      obtain ⟨c, cs, front, digit⟩ := t.text_head
      rw [List.length_cons] at enough
      rw [List.flatMap_cons, List.cons_append, terms_blank]
      rw [front, List.cons_append] at first ⊢
      rw [terms_digit digit, first, Option.bind_some,
        ih (fun t member => sound t (List.mem_cons_of_mem _ member)) (by omega) (by omega), later,
        Nat.add_assoc]

/-- A count with its unit, if there is anything to count. -/
def termOf (count : Nat) (unit : String) (plural : Bool) (u : TimeUnit) : List Term :=
  if count = 0 then [] else [⟨count, unit ++ (if plural && count > 1 then "s" else ""), u⟩]

theorem part_eq (count : Nat) (unit : String) (plural : Bool) (u : TimeUnit) :
    (part count unit plural).map String.toList = (termOf count unit plural u).map Term.text := by
  rw [part, termOf]
  split
  · rfl
  · simp [Term.text]

@[simp] theorem total_termOf (count : Nat) (unit : String) (plural : Bool) (u : TimeUnit) :
    total (termOf count unit plural u) = count * u.nanos := by
  rw [termOf]
  split
  · rename_i none
    rw [none, Nat.zero_mul]
    rfl
  · exact Nat.add_zero _

theorem sound_termOf {count : Nat} {unit : String} {plural : Bool} {u : TimeUnit}
    (single : Names unit u) (several : plural = true → Names (unit ++ "s") u)
    (fits : count * u.size < 2 ^ 64) (part : u.subsecond = true → count * u.size < nanosPerSecond) :
    ∀ t ∈ termOf count unit plural u, t.Sound := by
  have bare : unit ++ "" = unit := String.append_empty
  intro t member
  rw [termOf] at member
  split at member
  · cases member
  · rw [List.mem_singleton.mp member]
    refine ⟨?_, fits, part⟩
    dsimp only
    split
    · rename_i many
      exact several (Bool.and_eq_true_iff.mp many).1
    · rw [bare]
      exact single

/-- The names that are written, each with the place of its unit. -/
def writtenNames : List (String × Fin 10) := [
  ("year", 9), ("years", 9), ("month", 8), ("months", 8), ("day", 6), ("days", 6), ("h", 5),
  ("m", 4), ("s", 3), ("ms", 2), ("us", 1), ("ns", 0)]

theorem names_written : ∀ p ∈ writtenNames, Names p.1 (timeUnits.get p.2) := by
  simp only [writtenNames, List.forall_mem_cons]
  refine ⟨?_, ?_, ?_, ?_, ?_, ?_, ?_, ?_, ?_, ?_, ?_, ?_, nofun⟩ <;>
    exact ⟨List.all_eq_true.mp (by decide), ⟨_, rfl, by decide⟩, rfl⟩

def terms (d : Duration) : List Term :=
  let u (i : Fin 10) : TimeUnit := timeUnits.get i
  let s := d.seconds
  let inYear := s % 31557600
  let inMonth := inYear % 2630016
  let inDay := inMonth % 86400
  let n := d.subsecond
  termOf (s / 31557600) "year" true (u 9) ++ termOf (inYear / 2630016) "month" true (u 8) ++
    termOf (inMonth / 86400) "day" true (u 6) ++ termOf (inDay / 3600) "h" false (u 5) ++
    termOf (inDay % 3600 / 60) "m" false (u 4) ++ termOf (inDay % 60) "s" false (u 3) ++
    termOf (n / 1000000) "ms" false (u 2) ++ termOf (n / 1000 % 1000) "us" false (u 1) ++
    termOf (n % 1000) "ns" false (u 0)

@[simp] theorem total_append (ts us : List Term) : total (ts ++ us) = total ts + total us := by
  rw [total, List.map_append, List.sum_append, total, total]

theorem seconds_parts (s : Nat) :
    s / 31557600 * 31557600 + s % 31557600 / 2630016 * 2630016 +
      s % 31557600 % 2630016 / 86400 * 86400 + s % 31557600 % 2630016 % 86400 / 3600 * 3600 +
      s % 31557600 % 2630016 % 86400 % 3600 / 60 * 60 + s % 31557600 % 2630016 % 86400 % 60 = s := by
  have minute (n : Nat) : n % 3600 % 60 = n % 60 := Nat.mod_mod_of_dvd n (by decide)
  rw [← minute, Nat.add_assoc, Nat.div_add_mod', Nat.add_assoc, Nat.div_add_mod', Nat.add_assoc,
    Nat.div_add_mod', Nat.add_assoc, Nat.div_add_mod', Nat.div_add_mod']

theorem nanos_parts (n : Nat) :
    n / 1000000 * 1000000 + (n / 1000 % 1000 * 1000 + n % 1000) = n := by
  omega

theorem nanos_parts_lt {n : Nat} (fine : n < nanosPerSecond) :
    n / 1000000 * 1000000 < nanosPerSecond ∧ n / 1000 % 1000 * 1000 < nanosPerSecond ∧
      n % 1000 * 1 < nanosPerSecond := by
  have second : nanosPerSecond = 1000000000 := rfl
  omega

@[simp] theorem total_terms (d : Duration) : total d.terms = d.nanos := by
  have whole : d.seconds * nanosPerSecond + d.subsecond = d.nanos := Nat.div_add_mod' _ _
  unfold terms
  simp only [total_append, total_termOf, timeUnits, List.get, TimeUnit.nanos, Bool.false_eq_true,
    if_false, if_true, ← Nat.mul_assoc, Nat.mul_one]
  simp only [← Nat.add_mul, Nat.add_assoc _ _ (d.subsecond % 1000)]
  rw [seconds_parts, Nat.add_assoc, nanos_parts]
  exact whole

theorem text_terms {d : Duration} (some : d.nanos ≠ 0) :
    d.text.toList = [' '].intercalate (d.terms.map Term.text) := by
  rw [Duration.text, if_neg some, String.toList_intercalate]
  refine congrArg (List.intercalate [' ']) ?_
  simp only [List.map_append, terms, ← part_eq]

theorem sound_terms (d : Duration) : ∀ t ∈ d.terms, t.Sound := by
  have short := d.seconds_lt
  have long (n size : Nat) (le : n ≤ d.seconds) : n / size * size < 2 ^ 64 :=
    Nat.lt_of_le_of_lt (Nat.div_mul_le_self n size) (Nat.lt_of_le_of_lt le short)
  have year := Nat.mod_le d.seconds 31557600
  have month := Nat.le_trans (Nat.mod_le (d.seconds % 31557600) 2630016) year
  have day := Nat.le_trans (Nat.mod_le (d.seconds % 31557600 % 2630016) 86400) month
  have hour := Nat.le_trans (Nat.mod_le (d.seconds % 31557600 % 2630016 % 86400) 3600) day
  have second : d.seconds % 31557600 % 2630016 % 86400 % 60 * 1 < 2 ^ 64 := by
    rw [Nat.mul_one]
    exact Nat.lt_of_le_of_lt (Nat.le_trans (Nat.mod_le _ 60) day) short
  have unsplit (i : Fin 10) {n : Nat} (whole : (timeUnits.get i).subsecond = false) :
      (timeUnits.get i).subsecond = true → n * (timeUnits.get i).size < nanosPerSecond := by
    rw [whole]
    exact nofun
  obtain ⟨milli, micro, nano⟩ := nanos_parts_lt d.subsecond_lt
  have small (n : Nat) (less : n < nanosPerSecond) : n < 2 ^ 64 := Nat.lt_trans less (by decide)
  intro t member
  simp only [terms, List.mem_append] at member
  -- from the longest unit down to the shortest
  rcases member with (((((((member | member) | member) | member) | member) | member) | member) |
    member) | member
  · exact sound_termOf (names_written ("year", 9) (by decide))
      (fun _ => names_written ("years", 9) (by decide)) (long _ _ (Nat.le_refl _)) (unsplit 9 rfl)
      t member
  · exact sound_termOf (names_written ("month", 8) (by decide))
      (fun _ => names_written ("months", 8) (by decide)) (long _ _ year) (unsplit 8 rfl) t member
  · exact sound_termOf (names_written ("day", 6) (by decide))
      (fun _ => names_written ("days", 6) (by decide)) (long _ _ month) (unsplit 6 rfl) t member
  · exact sound_termOf (names_written ("h", 5) (by decide)) (by nofun) (long _ _ day) (unsplit 5 rfl)
      t member
  · exact sound_termOf (names_written ("m", 4) (by decide)) (by nofun) (long _ _ hour) (unsplit 4 rfl)
      t member
  · exact sound_termOf (names_written ("s", 3) (by decide)) (by nofun) second (unsplit 3 rfl) t member
  · exact sound_termOf (names_written ("ms", 2) (by decide)) (by nofun) (small _ milli) (fun _ => milli)
      t member
  · exact sound_termOf (names_written ("us", 1) (by decide)) (by nofun) (small _ micro) (fun _ => micro)
      t member
  · exact sound_termOf (names_written ("ns", 0) (by decide)) (by nofun) (small _ nano) (fun _ => nano)
      t member

theorem intercalate_terms (t : Term) (ts : List Term) :
    [' '].intercalate ((t :: ts).map Term.text) = t.text ++ ts.flatMap fun t => ' ' :: t.text := by
  induction ts generalizing t with
  | nil => simp [List.intercalate]
  | cons u ts ih =>
      rw [List.map_cons, List.map_cons, List.intercalate_cons_cons, ← List.map_cons, ih,
        List.flatMap_cons]
      simp

theorem terms_eq_cons {d : Duration} (some : d.nanos ≠ 0) : ∃ t ts, d.terms = t :: ts := by
  have sum := total_terms d
  cases terms : d.terms with
  | nil =>
      rw [terms] at sum
      exact absurd sum.symm some
  | cons t ts => exact ⟨t, ts, rfl⟩

/-- The text is one of terms, also where nothing is left of the duration. -/
theorem exists_terms (d : Duration) : ∃ t ts,
    d.text.toList = Term.text t ++ ts.flatMap (fun t => ' ' :: t.text) ∧
      ∀ u ∈ t :: ts, Names u.name u.unit := by
  by_cases none : d.nanos = 0
  · have second := names_written ("s", 3) (by decide)
    refine ⟨⟨0, "s", timeUnits.get (3 : Fin 10)⟩, [], ?_, List.forall_mem_cons.mpr ⟨second, nofun⟩⟩
    rw [Duration.text, if_pos none]
    rfl
  · have sound := sound_terms d
    obtain ⟨t, ts, terms⟩ := terms_eq_cons none
    rw [terms] at sound
    refine ⟨t, ts, ?_, fun u member => (sound u member).names⟩
    rw [text_terms none, terms, intercalate_terms]

theorem Names.alphanum {t : Term} (names : Names t.name t.unit) :
    ∀ c ∈ t.text, c.isAlphanum = true := by
  intro c member
  rcases List.mem_append.mp member with number | name
  · exact alphanum_of_isDigit (Decimal.isDigit_of_mem_decimal number)
  · rw [Char.isAlphanum, names.letters c name, Bool.true_or]

/-- Terms with spaces between them are read as the duration of their sum. -/
theorem read_terms {t : Term} {ts : List Term} (sound : ∀ u ∈ t :: ts, u.Sound)
    (limit : total (t :: ts) < durationLimit) :
    read? (t.text ++ ts.flatMap fun t => ' ' :: t.text) = some ⟨total (t :: ts), limit⟩ := by
  have two := (sound t List.mem_cons_self).two_le_length
  have single : t.text ++ (ts.flatMap fun t => ' ' :: t.text) ≠ ['0'] := by
    intro same
    have length := congrArg List.length same
    rw [List.length_append, List.length_singleton] at length
    omega
  have solid : (t.text ++ (ts.flatMap fun t => ' ' :: t.text)).all isBlank = false := by
    obtain ⟨c, cs, front, digit⟩ := t.text_head
    rw [front, List.cons_append, List.all_cons, not_blank_of_plain (plain_of_isDigit digit)]
    rfl
  have enough : (t :: ts).length < (t.text ++ ts.flatMap fun t => ' ' :: t.text).length + 1 := by
    have rest := length_le_terms ts
    rw [List.length_append, List.length_cons]
    omega
  have within : 0 + total (t :: ts) < durationLimit := by omega
  have read := terms_read sound enough within
  rw [List.flatMap_cons, List.cons_append, terms_blank, Nat.zero_add] at read
  rw [read?, if_neg single, solid, if_neg Bool.false_ne_true, read, Option.bind_some, ofNanos?,
    dif_pos limit]

/-- A duration is read back from its text. -/
@[simp] theorem read_text (d : Duration) : read? d.text.toList = some d := by
  by_cases none : d.nanos = 0
  · obtain rfl : d = zero := eq_of_nanos none
    decide +kernel
  · have sum := total_terms d
    have sound := sound_terms d
    obtain ⟨t, ts, terms⟩ := terms_eq_cons none
    rw [terms] at sum sound
    rw [text_terms none, terms, intercalate_terms, read_terms sound (sum ▸ d.nanos_lt)]
    exact congrArg some (eq_of_nanos sum)

end ProofOfWork.Duration
