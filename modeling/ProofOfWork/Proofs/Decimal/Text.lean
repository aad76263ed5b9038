import ProofOfWork.Decimal.Literal
import ProofOfWork.Proofs.Decimal.Shortest
import ProofOfWork.Proofs.Text.Digits
set_option autoImplicit false

namespace ProofOfWork.Decimal

/-! Digits and their value. -/

section Digits
variable {ds : List Char} {n : Nat}

theorem digitsValue_eq (ds : List Char) : digitsValue ds = Nat.ofDigitChars 10 ds 0 := rfl

@[simp] theorem digitsValue_decimal (n : Nat) : digitsValue (Text.decimal n) = n :=
  Nat.ofDigitChars_ten_toDigits

@[simp] theorem digitsValue_append_zeros (ds : List Char) (k : Nat) :
    digitsValue (ds ++ List.replicate k '0') = digitsValue ds * 10 ^ k := by
  induction k with
  | zero => rw [List.replicate_zero, List.append_nil, Nat.pow_zero, Nat.mul_one]
  | succ k ih =>
      rw [List.replicate_succ', ← List.append_assoc, digitsValue_eq, Nat.ofDigitChars_append,
        ← digitsValue_eq, ih, Nat.pow_succ, ← Nat.mul_assoc]
      exact Nat.mul_comm 10 _

theorem digitsValue_zeros_append (k : Nat) (ds : List Char) :
    digitsValue (List.replicate k '0' ++ ds) = digitsValue ds := by
  have nothing : digitsValue (List.replicate k '0') = 0 := by
    have zeros := digitsValue_append_zeros [] k
    rw [List.nil_append] at zeros
    rw [zeros]
    exact Nat.zero_mul _
  rw [digitsValue_eq, Nat.ofDigitChars_append, ← digitsValue_eq, nothing, ← digitsValue_eq]

theorem isDigit_of_mem_decimal {c : Char} (member : c ∈ Text.decimal n) : c.isDigit = true :=
  Nat.isDigit_of_mem_toDigits (by decide) (by decide) member

theorem isDigit_of_mem_zeros {c : Char} {k : Nat} (member : c ∈ List.replicate k '0') :
    c.isDigit = true := by
  rw [List.eq_of_mem_replicate member]
  rfl

theorem decimal_head (pos : 0 < n) : (Text.decimal n).head? ≠ some '0' := by
  induction n using Nat.strongRecOn with
  | _ n ih =>
    rw [Text.decimal, Nat.toDigits_eq_if (by decide)]
    by_cases single : n < 10
    · have few : ∀ n : Fin 10, 0 < n.val → [n.val.digitChar].head? ≠ some '0' := by decide
      rw [if_pos single]
      exact few ⟨n, single⟩ pos
    · rw [if_neg single, List.head?_append_of_ne_nil _ Nat.toDigits_ne_nil]
      exact ih (n / 10) (by omega) (by omega)

theorem spanDigits_append {rest : List Char} (digits : ∀ c ∈ ds, c.isDigit = true)
    (ends : ∀ c ∈ rest.head?, c.isDigit = false) : spanDigits (ds ++ rest) = (ds, rest) := by
  obtain ⟨front, back⟩ := Text.span_append digits ends
  rw [spanDigits, front, back]

end Digits

/-! The parts of a number's text. -/

/-- A number without a sign: its whole digits, its decimals and its exponent. -/
structure Spelling where
  whole : List Char
  fraction : Option (List Char) := none
  power : Option Int := none

def powerText (plus : Bool) : Int → List Char
  | .ofNat k => 'e' :: ((if plus then ['+'] else []) ++ Text.decimal k)
  | .negSucc k => 'e' :: '-' :: Text.decimal (k + 1)

namespace Spelling

def tail (plus : Bool) (p : Spelling) : List Char :=
  p.fraction.elim [] ('.' :: ·) ++ p.power.elim [] (powerText plus)

def text (plus : Bool) (p : Spelling) : List Char := p.whole ++ p.tail plus

def scaled (p : Spelling) : Scaled :=
  ⟨digitsValue (p.whole ++ p.fraction.getD []), p.power.getD 0 - (p.fraction.getD []).length⟩

structure Sound (p : Spelling) : Prop where
  whole : p.whole ≠ []
  digits : ∀ c ∈ p.whole ++ p.fraction.getD [], c.isDigit = true
  leading : p.whole.head? = some '0' → p.whole = ['0']
  fraction : p.fraction ≠ some []

end Spelling

/-- A spelling of a decimal by the conventions of a layout. -/
structure Spelling.Spells (p : Spelling) (l : Layout) (s : Scaled) : Prop where
  sound : p.Sound
  scaled : p.scaled = s
  point : l.keepsPoint = true → p.fraction.isSome = true ∨ p.power.isSome = true
  power : ∀ k ∈ p.power, k = s.exponent + (Text.decimal s.digits).length - 1

namespace Layout

/-- Whether a number with its point there is written without an exponent. -/
def inside (l : Layout) (point : Int) : Bool :=
  match l.positional with
  | none => true
  | some (first, last) => first ≤ point && point ≤ last

/-- The decimal that is spelled out: zeros up to the point are digits, and so is one after it. -/
def written (l : Layout) (s : Scaled) : Scaled :=
  if l.inside (s.exponent + (Text.decimal s.digits).length) ∧ 0 ≤ s.exponent then
    if l.keepsPoint then ⟨s.digits * 10 ^ (s.exponent.toNat + 1), -1⟩
    else ⟨s.digits * 10 ^ s.exponent.toNat, 0⟩
  else s

end Layout

section Layouts
variable {n : Nat} {ds : List Char}

theorem length_decimal_pos (n : Nat) : 0 < (Text.decimal n).length :=
  List.length_pos_iff.mpr Nat.toDigits_ne_nil

theorem decimal_cons (n : Nat) : ∃ c cs, Text.decimal n = c :: cs ∧ c.isDigit = true := by
  obtain ⟨c, cs, front⟩ := List.exists_cons_of_length_pos (length_decimal_pos n)
  exact ⟨c, cs, front, isDigit_of_mem_decimal (front ▸ List.mem_cons_self)⟩

theorem positionalText_small (keeps : Bool) (ds : List Char) {point : Int} (small : point ≤ 0) :
    positionalText keeps ds point = '0' :: '.' :: (List.replicate (-point).toNat '0' ++ ds) := by
  match point, small with
  | .negSucc k, _ => exact List.append_assoc ['0', '.'] _ _
  | .ofNat 0, _ => rfl

theorem positionalText_large (keeps : Bool) (ds : List Char) {point : Int} (large : 0 < point) :
    positionalText keeps ds point =
      if ds.length ≤ point.toNat then
        ds ++ List.replicate (point.toNat - ds.length) '0' ++ (if keeps then ['.', '0'] else [])
      else ds.take point.toNat ++ '.' :: ds.drop point.toNat := by
  match point, large with
  | .ofNat (k + 1), _ =>
      have same : (Int.ofNat (k + 1)).toNat = k + 1 := rfl
      simp only [positionalText, same, List.append_assoc, List.singleton_append]

theorem exponentText_single (plus : Bool) (d : Char) (power : Int) :
    exponentText plus [d] power = d :: powerText plus power := by
  cases power <;> rfl

theorem exponentText_many (plus : Bool) (d d' : Char) (ds : List Char) (power : Int) :
    exponentText plus (d :: d' :: ds) power = [d] ++ ('.' :: d' :: ds ++ powerText plus power) := by
  cases power <;> simp [exponentText, powerText]

structure Numeral (ds : List Char) : Prop where
  filled : ds ≠ []
  digits : ∀ c ∈ ds, c.isDigit = true
  leading : ds.head? ≠ some '0'

theorem numeral_decimal (pos : 0 < n) : Numeral (Text.decimal n) :=
  ⟨Nat.toDigits_ne_nil, fun _ => isDigit_of_mem_decimal, decimal_head pos⟩

/-- A number below one: zeros between the point and the digits. -/
theorem Numeral.sound_small (numeral : Numeral ds) (k : Nat) :
    Spelling.Sound ⟨['0'], some (List.replicate k '0' ++ ds), none⟩ := by
  refine ⟨nofun, ?_, fun _ => rfl, ?_⟩
  · intro c member
    rcases List.mem_append.mp member with zero | member
    · rw [List.mem_singleton.mp zero]
      rfl
    · exact (List.mem_append.mp member).elim isDigit_of_mem_zeros (numeral.digits c)
  · intro none
    exact numeral.filled (List.append_eq_nil_iff.mp (Option.some.inj none)).2

/-- A whole number: zeros after the digits, and decimals only where the point is kept. -/
theorem Numeral.sound_large (numeral : Numeral ds) (k : Nat) (keeps : Bool) :
    Spelling.Sound ⟨ds ++ List.replicate k '0', if keeps then some ['0'] else none, none⟩ := by
  refine ⟨?_, ?_, ?_, ?_⟩
  · intro none
    exact numeral.filled (List.append_eq_nil_iff.mp none).1
  · intro c member
    rcases List.mem_append.mp member with whole | fraction
    · exact (List.mem_append.mp whole).elim (numeral.digits c) isDigit_of_mem_zeros
    · cases keeps with
      | true =>
          rw [List.mem_singleton.mp fraction]
          rfl
      | false => cases fraction
  · rw [List.head?_append_of_ne_nil _ numeral.filled]
    exact fun zero => absurd zero numeral.leading
  · cases keeps <;> exact nofun

theorem Numeral.sound_split (numeral : Numeral ds) {k : Nat} (some_whole : 0 < k)
    (few : k < ds.length) : Spelling.Sound ⟨ds.take k, some (ds.drop k), none⟩ := by
  refine ⟨?_, ?_, ?_, ?_⟩
  · apply List.ne_nil_of_length_pos
    rw [List.length_take]
    omega
  · rw [Option.getD_some, List.take_append_drop]
    exact numeral.digits
  · rw [List.head?_take, if_neg (Nat.ne_of_gt some_whole)]
    exact fun zero => absurd zero numeral.leading
  · intro none
    have short := congrArg List.length (Option.some.inj none)
    rw [List.length_drop, List.length_nil] at short
    omega

theorem scaled_small (ds : List Char) (k : Nat) :
    Spelling.scaled ⟨['0'], some (List.replicate k '0' ++ ds), none⟩ =
      ⟨digitsValue ds, -(k + ds.length : Nat)⟩ := by
  have zeros := digitsValue_zeros_append (k + 1) ds
  rw [List.replicate_succ] at zeros
  rw [Spelling.scaled, Option.getD_some, List.singleton_append, ← List.cons_append, zeros]
  simp

theorem scaled_large (ds : List Char) (k : Nat) (keeps : Bool) :
    Spelling.scaled ⟨ds ++ List.replicate k '0', if keeps then some ['0'] else none, none⟩ =
      if keeps then ⟨digitsValue ds * 10 ^ (k + 1), -1⟩ else ⟨digitsValue ds * 10 ^ k, 0⟩ := by
  cases keeps with
  | true =>
      have shown := digitsValue_append_zeros ds (k + 1)
      rw [List.replicate_succ', ← List.append_assoc] at shown
      simp only [Spelling.scaled, if_true, Option.getD_some, shown]
      rfl
  | false =>
      have shown := digitsValue_append_zeros ds k
      simp [Spelling.scaled, shown]

theorem scaled_split (ds : List Char) (k : Nat) :
    Spelling.scaled ⟨ds.take k, some (ds.drop k), none⟩ =
      ⟨digitsValue ds, -(ds.length - k : Nat)⟩ := by
  rw [Spelling.scaled, Option.getD_some, List.take_append_drop, List.length_drop]
  simp

/-- The three places of a point: before all digits, behind all of them, and between two. -/
theorem positionalText_spelled (keeps plus : Bool) (pos : 0 < n) (e : Int) :
    ∃ p : Spelling, p.Sound ∧
      positionalText keeps (Text.decimal n) (e + (Text.decimal n).length) = p.text plus ∧
      p.scaled = (if 0 ≤ e then
        if keeps then ⟨n * 10 ^ (e.toNat + 1), -1⟩ else ⟨n * 10 ^ e.toNat, 0⟩ else ⟨n, e⟩) ∧
      (keeps = true → p.fraction.isSome = true) ∧ p.power = none := by
  have numeral := numeral_decimal pos
  have value := digitsValue_decimal n
  generalize Text.decimal n = ds at *
  obtain ⟨point, known⟩ : ∃ point : Int, e + ds.length = point := ⟨_, rfl⟩
  rw [known]
  rcases le_or_gt point 0 with small | large
  · have lower : ¬0 ≤ e := by
      have filled := List.length_pos_iff.mpr numeral.filled
      omega
    have exponent : -((-point).toNat + ds.length : Nat) = e := by omega
    refine ⟨_, numeral.sound_small (-point).toNat, ?_, ?_, fun _ => rfl, rfl⟩
    · rw [positionalText_small keeps ds small]
      simp [Spelling.text, Spelling.tail]
    · rw [scaled_small, value, exponent, if_neg lower]
  rw [positionalText_large keeps ds large]
  by_cases whole : ds.length ≤ point.toNat
  · have zeros : point.toNat - ds.length = e.toNat := by omega
    have higher : 0 ≤ e := by omega
    refine ⟨_, numeral.sound_large e.toNat keeps, ?_, ?_, ?_, rfl⟩
    · rw [if_pos whole, zeros]
      cases keeps <;> simp [Spelling.text, Spelling.tail]
    · rw [scaled_large, value, if_pos higher]
    · rintro rfl
      rfl
  · have lower : ¬0 ≤ e := by omega
    have exponent : -(ds.length - point.toNat : Nat) = e := by omega
    refine ⟨_, numeral.sound_split (k := point.toNat) (by omega) (by omega), ?_, ?_,
      fun _ => rfl, rfl⟩
    · rw [if_neg whole]
      simp [Spelling.text, Spelling.tail]
    · rw [scaled_split, value, exponent, if_neg lower]

theorem exponentText_spelled (plus : Bool) (pos : 0 < n) (e : Int) :
    ∃ p : Spelling, p.Sound ∧
      exponentText plus (Text.decimal n) (e + (Text.decimal n).length - 1) = p.text plus ∧
      p.scaled = ⟨n, e⟩ ∧ p.power = some (e + (Text.decimal n).length - 1) := by
  have numeral := numeral_decimal pos
  have value := digitsValue_decimal n
  generalize Text.decimal n = ds at *
  obtain ⟨filled, digits, leading⟩ := numeral
  match ds, filled with
  | [d], _ =>
      refine ⟨⟨[d], none, .some e⟩, ⟨nofun, ?_, fun zero => absurd zero leading, nofun⟩, ?_, ?_, ?_⟩
      · rw [Option.getD_none, List.append_nil]
        exact digits
      · rw [exponentText_single, List.length_singleton, Int.natCast_one, Int.add_sub_cancel]
        rfl
      · rw [Spelling.scaled, Option.getD_none, List.append_nil, value]
        simp
      · simp
  | d :: d' :: ds, _ =>
      refine ⟨⟨[d], .some (d' :: ds), .some (e + (d :: d' :: ds).length - 1)⟩,
        ⟨nofun, digits, fun zero => absurd zero leading, nofun⟩, exponentText_many plus d d' ds _, ?_,
        rfl⟩
      have same : [d] ++ (d' :: ds) = d :: d' :: ds := rfl
      rw [Spelling.scaled, Option.getD_some, same, value]
      simp
      omega

theorem magnitude_spelled (l : Layout) {s : Scaled} (pos : 0 < s.digits) :
    ∃ p : Spelling, p.Spells l (l.written s) ∧ l.magnitude s = p.text l.signsExponent := by
  have split : l.magnitude s =
      if l.inside (s.exponent + (Text.decimal s.digits).length) then
        positionalText l.keepsPoint (Text.decimal s.digits)
          (s.exponent + (Text.decimal s.digits).length)
      else exponentText l.signsExponent (Text.decimal s.digits)
        (s.exponent + (Text.decimal s.digits).length - 1) := rfl
  rw [split, Layout.written]
  cases l.inside (s.exponent + (Text.decimal s.digits).length) with
  | true =>
    obtain ⟨p, sound, text, scaled, point, power⟩ :=
      positionalText_spelled l.keepsPoint l.signsExponent pos s.exponent
    simp only [if_true, true_and]
    refine ⟨p, ⟨sound, scaled, fun keeps => .inl (point keeps), ?_⟩, text⟩
    rw [power]
    exact nofun
  | false =>
    obtain ⟨p, sound, text, scaled, power⟩ :=
      exponentText_spelled l.signsExponent pos s.exponent
    simp only [Bool.false_eq_true, if_false, false_and]
    refine ⟨p, ⟨sound, scaled, fun _ => .inr (power ▸ rfl), ?_⟩, text⟩
    rw [power]
    exact fun k same => (Option.some.inj same).symm

end Layouts

/-! Reading a spelling. -/

theorem exponent_powerText (plus : Bool) (power : Int) :
    exponent? (powerText plus power) = some power := by
  have all (n : Nat) : Text.decimal n ≠ [] ∧ (Text.decimal n).all Char.isDigit = true :=
    ⟨Nat.toDigits_ne_nil, List.all_eq_true.mpr fun _ => isDigit_of_mem_decimal⟩
  cases power with
  | negSucc k =>
      simp only [powerText, exponent?, true_or, if_true]
      rw [if_pos (all (k + 1)), digitsValue_decimal]
      simp [Int.negSucc_eq]
  | ofNat k =>
      have value := digitsValue_decimal k
      have sound := all k
      cases plus with
      | true =>
        simp only [powerText, exponent?, if_true, List.singleton_append, true_or]
        rw [if_pos sound, value]
        simp
      | false =>
        obtain ⟨c, cs, split, digit⟩ := decimal_cons k
        simp only [powerText, exponent?, Bool.false_eq_true, if_false, List.nil_append, true_or,
          if_true]
        split
        · rename_i plus
          rw [split] at plus
          cases plus
          cases digit
        · rename_i minus
          rw [split] at minus
          cases minus
          cases digit
        · rw [if_pos sound, value]
          simp

namespace Spelling
variable {p : Spelling}

theorem power_head (plus : Bool) (power : Option Int) :
    ∀ c ∈ (power.elim [] (powerText plus)).head?, c.isDigit = false := by
  match power with
  | none => exact nofun
  | some (.ofNat k) => rintro c ⟨⟩; rfl
  | some (.negSucc k) => rintro c ⟨⟩; rfl

theorem tail_head (plus : Bool) (p : Spelling) : ∀ c ∈ (p.tail plus).head?, c.isDigit = false := by
  obtain ⟨whole, fraction, power⟩ := p
  cases fraction with
  | none => exact power_head plus power
  | some ds => rintro c ⟨⟩; rfl

/-- The decimals at the front of a text, and the rest. -/
def spanFraction : List Char → List Char × List Char
  | '.' :: rest => spanDigits rest
  | rest => ([], rest)

theorem Sound.spanFraction_tail (sound : p.Sound) (plus : Bool) :
    spanFraction (p.tail plus) = (p.fraction.getD [], p.power.elim [] (powerText plus)) := by
  have digits (c : Char) (member : c ∈ p.fraction.getD []) : c.isDigit = true :=
    sound.digits c (List.mem_append_right _ member)
  obtain ⟨whole, fraction, power⟩ := p
  cases fraction with
  | none =>
    match power with
    | none | some (.ofNat k) | some (.negSucc k) => rfl
  | some ds => exact spanDigits_append digits (power_head plus power)

theorem Sound.head (sound : p.Sound) (plus : Bool) :
    ∃ c cs, p.text plus = c :: cs ∧ c.isDigit = true := by
  obtain ⟨c, cs, front⟩ := List.exists_cons_of_ne_nil sound.whole
  refine ⟨c, cs ++ p.tail plus, by rw [text, front, List.cons_append], ?_⟩
  exact sound.digits c (List.mem_append_left _ (front ▸ List.mem_cons_self))

theorem Sound.plain (sound : p.Sound) (plus : Bool) :
    ∀ c ∈ p.text plus, Text.isPlain c = true := by
  have digit {c : Char} (digit : c.isDigit = true) := Text.plain_of_isDigit digit
  have fraction : ∀ c ∈ p.fraction.elim [] ('.' :: ·), Text.isPlain c = true := by
    have digits (c : Char) (member : c ∈ p.fraction.getD []) : c.isDigit = true :=
      sound.digits c (List.mem_append_right _ member)
    cases parts : p.fraction with
    | none => exact nofun
    | some ds =>
      rw [parts] at digits
      exact List.forall_mem_cons.mpr ⟨rfl, fun c member => digit (digits c member)⟩
  have power : ∀ c ∈ p.power.elim [] (powerText plus), Text.isPlain c = true := by
    have number (n : Nat) : ∀ c ∈ Text.decimal n, Text.isPlain c = true :=
      fun _ member => digit (isDigit_of_mem_decimal member)
    match p.power, plus with
    | none, _ => exact nofun
    | some (.ofNat k), false => exact List.forall_mem_cons.mpr ⟨rfl, number k⟩
    | some (.ofNat k), true =>
      exact List.forall_mem_cons.mpr ⟨rfl, List.forall_mem_cons.mpr ⟨rfl, number k⟩⟩
    | some (.negSucc k), _ =>
      exact List.forall_mem_cons.mpr ⟨rfl, List.forall_mem_cons.mpr ⟨rfl, number (k + 1)⟩⟩
  intro c member
  rcases List.mem_append.mp member with whole | later
  · exact digit (sound.digits c (List.mem_append_left _ whole))
  · exact (List.mem_append.mp later).elim (fraction c) (power c)

theorem Sound.lowerWord_ne (sound : p.Sound) (plus : Bool) {word : String}
    (letter : ∃ c ∈ word.toList.head?, c.isDigit = false) :
    String.ofList (magnitude?.lowerWord (p.text plus)) ≠ word := by
  rintro rfl
  obtain ⟨c, first, letter⟩ := letter
  obtain ⟨d, ds, front, digit⟩ := sound.head plus
  rw [String.toList_ofList, magnitude?.lowerWord] at first
  split at first
  · rw [front] at first
    have same : d.toLower = d := by
      have bounds := Text.toNat_of_isDigit digit
      rw [Char.toLower, dif_neg]
      rintro ⟨capital, -⟩
      have above : 65 ≤ d.toNat := UInt32.le_iff_toNat_le.mp capital
      omega
    obtain rfl : d.toLower = c := Option.some.inj first
    rw [same, digit] at letter
    cases letter
  · cases first

theorem Sound.read (sound : p.Sound) (plus : Bool) :
    magnitude? (p.text plus) = some (nearest p.scaled.digits p.scaled.exponent) := by
  have whole := spanDigits_append
    (fun c member => sound.digits c (List.mem_append_left _ member)) (p.tail_head plus)
  unfold magnitude?
  split
  · rename_i word
    exact absurd word (sound.lowerWord_ne plus ⟨'i', rfl, rfl⟩)
  · rename_i word
    exact absurd word (sound.lowerWord_ne plus ⟨'i', rfl, rfl⟩)
  · rename_i word
    exact absurd word (sound.lowerWord_ne plus ⟨'n', rfl, rfl⟩)
  · have filled : ¬(p.whole = [] ∧ p.fraction.getD [] = []) := fun none => sound.whole none.1
    have power : exponent? (p.power.elim [] (powerText plus)) = some (p.power.getD 0) := by
      cases p.power with
      | none => rfl
      | some power => exact exponent_powerText plus power
    rw [text, whole]
    change (if p.whole = [] ∧ (spanFraction (p.tail plus)).1 = [] then none
      else (exponent? (spanFraction (p.tail plus)).2).map fun power =>
        nearest (digitsValue (p.whole ++ (spanFraction (p.tail plus)).1))
          (power - (spanFraction (p.tail plus)).1.length)) = _
    rw [sound.spanFraction_tail plus, if_neg filled, power]
    rfl

end Spelling

/-! Numbers read back. -/

namespace Layout

theorem written_rounded (l : Layout) (s : Scaled) : (l.written s).rounded = s.rounded := by
  unfold written
  split
  · rename_i whole
    have units : ((s.exponent.toNat : Nat) : Int) = s.exponent := Int.toNat_of_nonneg whole.2
    split
    · have exponent : -1 + ((s.exponent.toNat + 1 : Nat) : Int) = s.exponent := by omega
      rw [rounded_tens, exponent]
    · rw [rounded_tens, units, Int.zero_add]
  · rfl

/-- The decimal that stands for a number of magnitude `mantissa * 2 ^ exponent`. -/
def decimal (l : Layout) (mantissa : Nat) (exponent : Int) : Scaled :=
  if mantissa = 0 then ⟨0, if l.keepsPoint then -1 else 0⟩
  else l.written (shortest l.tie mantissa exponent)

variable {x : Float} {negative : Bool} {m : Nat} {e : Int}

theorem text_spelled (l : Layout) (shown : shape x = .finite negative m e) :
    ∃ p : Spelling, p.Spells l (l.decimal m e) ∧
      l.text x = (if negative then ['-'] else []) ++ p.text l.signsExponent := by
  have canonical := canonical_of_shape shown
  rw [Layout.text, shown, Layout.decimal]
  rcases Nat.eq_zero_or_pos m with rfl | pos
  · dsimp only
    rw [if_pos rfl, if_pos rfl]
    cases keeps : l.keepsPoint with
    | true =>
      have digits (c : Char) (member : c ∈ List.replicate 2 '0') := isDigit_of_mem_zeros member
      refine ⟨⟨['0'], some ['0'], none⟩, ⟨⟨nofun, digits, fun _ => rfl, nofun⟩, rfl,
        fun _ => .inl rfl, nofun⟩, ?_⟩
      rw [List.append_assoc]
      rfl
    | false =>
      have digits (c : Char) (member : c ∈ List.replicate 1 '0') := isDigit_of_mem_zeros member
      refine ⟨⟨['0'], none, none⟩, ⟨⟨nofun, digits, fun _ => rfl, nofun⟩, rfl, ?_, nofun⟩, ?_⟩
      · rw [keeps]
        exact nofun
      · rw [List.append_assoc]
        rfl
  · have nonzero := Nat.ne_of_gt pos
    obtain ⟨p, spells, text⟩ := magnitude_spelled l (shortest_spec l.tie canonical pos).1
    dsimp only
    rw [if_neg nonzero, if_neg nonzero, text]
    exact ⟨p, spells, rfl⟩

/-- The number nearest to the decimal is the number itself, apart from its sign. -/
theorem nearest_decimal (l : Layout) (shown : shape x = .finite negative m e) :
    nearest (l.decimal m e).digits (l.decimal m e).exponent = if negative then -x else x := by
  have canonical := canonical_of_shape shown
  have positive : shape (if negative then -x else x) = .finite false m e := by
    cases negative with
    | true => exact shape_neg shown
    | false => exact shown
  apply nearest_eq positive
  change (l.decimal m e).rounded = _
  rw [Layout.decimal]
  rcases Nat.eq_zero_or_pos m with rfl | pos
  · rw [if_pos rfl, magnitude_zero_mantissa, Scaled.rounded, Nat.zero_mul, Nat.zero_mul, rounded_zero]
  · rw [if_neg (Nat.ne_of_gt pos), written_rounded]
    exact (shortest_spec l.tie canonical pos).2.2

/-- A finite number is read back from its text in any layout. -/
theorem readReal_text (l : Layout) (shown : shape x = .finite negative m e) :
    readReal (l.text x) = .ok x := by
  obtain ⟨p, ⟨sound, scaled, -, -⟩, text⟩ := l.text_spelled shown
  have reads := sound.read l.signsExponent
  rw [scaled, l.nearest_decimal shown] at reads
  obtain ⟨c, cs, front, digit⟩ := sound.head l.signsExponent
  rw [text]
  cases negative with
  | true =>
    rw [if_pos rfl] at reads ⊢
    simp only [List.singleton_append, readReal, reads, Option.map_some, neg_neg shown]
  | false =>
    have minus : c ≠ '-' := by
      rintro rfl
      cases digit
    have plus : c ≠ '+' := by
      rintro rfl
      cases digit
    simp only [Bool.false_eq_true, if_false, List.nil_append] at reads ⊢
    rw [front] at reads ⊢
    simp [readReal, reads, minus, plus]

theorem text_head (l : Layout) (shown : shape x = .finite negative m e) :
    ∃ c cs, l.text x = (if negative then ['-'] else []) ++ c :: cs ∧ c.isDigit = true := by
  obtain ⟨p, ⟨sound, -, -, -⟩, text⟩ := l.text_spelled shown
  obtain ⟨c, cs, front, digit⟩ := sound.head l.signsExponent
  exact ⟨c, cs, front ▸ text, digit⟩

theorem text_plain (l : Layout) (shown : shape x = .finite negative m e) :
    ∀ c ∈ l.text x, Text.isPlain c = true := by
  obtain ⟨p, ⟨sound, -, -, -⟩, text⟩ := l.text_spelled shown
  rw [text]
  intro c member
  rcases List.mem_append.mp member with sign | later
  · cases negative with
    | true =>
      rw [List.mem_singleton.mp sign]
      rfl
    | false => cases sign
  · exact sound.plain l.signsExponent c later

end Layout
end ProofOfWork.Decimal
