import ProofOfWork.Text.Basic
import ProofOfWork.Text.Hex
import ProofOfWork.Text.Unsigned
set_option autoImplicit false

namespace ProofOfWork

theorem ok_of_bind {ε α β : Type} {x : Except ε α} {next : α → Except ε β} {b : β}
    (done : x >>= next = .ok b) : ∃ a, x = .ok a ∧ next a = .ok b := by
  cases x with
  | error fault => cases done
  | ok a => exact ⟨a, rfl, done⟩

theorem error_of_bind {ε α β : Type} {x : Except ε α} {next : α → Except ε β} {fault : ε}
    (failed : x >>= next = .error fault) :
    x = .error fault ∨ ∃ a, x = .ok a ∧ next a = .error fault := by
  cases x with
  | error early => exact .inl (congrArg Except.error (Except.error.inj failed))
  | ok a => exact .inr ⟨a, rfl, failed⟩

theorem ok_of_map {ε α β : Type} {x : Except ε α} {f : α → β} {b : β}
    (done : x.map f = .ok b) : ∃ a, x = .ok a ∧ f a = b := by
  cases x with
  | error fault => cases done
  | ok a => exact ⟨a, rfl, Except.ok.inj done⟩

namespace Text

section Numbers
variable {radix limit : Nat}

theorem digitOf_digitChar {n : Nat} (small : n < radix) (few : radix ≤ 16) :
    digitOf? radix n.digitChar = some n := by
  have value : n.digitChar.toNat = if n < 10 then 48 + n else 87 + n := by
    have below : n < 16 := by omega
    clear small few
    revert n
    decide
  rw [digitOf?, value]
  by_cases decimal : n < 10
  · have shown : 48 + n - 48 = n := Nat.add_sub_cancel_left 48 n
    have range : 48 ≤ 48 + n ∧ 48 + n ≤ 57 := by omega
    simp only [decimal, if_true, range, and_self, shown, Option.filter_some, small, decide_true]
  · have shown : 87 + n - 87 = n := Nat.add_sub_cancel_left 87 n
    have range : 97 ≤ 87 + n ∧ 87 + n ≤ 122 := by omega
    have apart : ¬(48 ≤ 87 + n ∧ 87 + n ≤ 57) := by omega
    simp only [decimal, if_false, range, and_self, if_true, apart, shown, Option.filter_some,
      small, decide_true]

/-- Digits after others go on from the number that those stand for. -/
theorem readDigits_append {value next : Nat} {digits : List Char} (rest : List Char)
    (first : readDigits radix limit value digits = .ok next) :
    readDigits radix limit value (digits ++ rest) = readDigits radix limit next rest := by
  induction digits generalizing value with
  | nil =>
      rw [readDigits, Except.ok.injEq] at first
      rw [first]
      rfl
  | cons c digits ih =>
      rw [List.cons_append, readDigits]
      rw [readDigits] at first
      cases digit : digitOf? radix c with
      | none =>
          rw [digit] at first
          cases first
      | some d =>
          rw [digit] at first
          dsimp only at first ⊢
          split at first
          · rename_i below
            rw [if_pos below]
            exact ih first
          · cases first

theorem readDigits_toDigits (radix_pos : 1 < radix) (few : radix ≤ 16) {n : Nat}
    (below : n < limit) : readDigits radix limit 0 (Nat.toDigits radix n) = .ok n := by
  induction n using Nat.strongRecOn with
  | _ n ih =>
    rw [Nat.toDigits_eq_if radix_pos]
    by_cases single : n < radix
    · rw [if_pos single, readDigits, digitOf_digitChar single few]
      dsimp only
      rw [Nat.zero_mul, Nat.zero_add, if_pos below, readDigits]
    · have fewer : n / radix < n := Nat.div_lt_self (by omega) radix_pos
      have last : n % radix < radix := Nat.mod_lt _ (by omega)
      have whole : n / radix * radix + n % radix = n := Nat.div_add_mod' n radix
      rw [if_neg single, readDigits_append _ (ih _ fewer (by omega)), readDigits,
        digitOf_digitChar last few]
      dsimp only
      rw [whole, if_pos below, readDigits]

theorem mem_toDigits (radix_pos : 1 < radix) {n : Nat} {c : Char} (member : c ∈ Nat.toDigits radix n) :
    ∃ d < radix, c = d.digitChar := by
  induction n using Nat.strongRecOn with
  | _ n ih =>
    rw [Nat.toDigits_eq_if radix_pos] at member
    split at member
    · exact ⟨n, ‹_›, List.mem_singleton.mp member⟩
    · rcases List.mem_append.mp member with front | last
      · exact ih (n / radix) (Nat.div_lt_self (by omega) radix_pos) front
      · exact ⟨n % radix, Nat.mod_lt _ (by omega), List.mem_singleton.mp last⟩

theorem all_toDigits {p : Char → Bool} (kind : ∀ d : Fin 16, p d.val.digitChar = true)
    (radix_pos : 1 < radix) (few : radix ≤ 16) {n : Nat} :
    ∀ c ∈ Nat.toDigits radix n, p c = true := by
  intro c member
  obtain ⟨d, small, rfl⟩ := mem_toDigits radix_pos member
  exact kind ⟨d, Nat.lt_of_lt_of_le small few⟩

theorem all_padded {p : Char → Bool} (kind : ∀ d : Fin 16, p d.val.digitChar = true)
    (radix_pos : 1 < radix) (few : radix ≤ 16) {width n : Nat} :
    ∀ c ∈ padded radix width n, p c = true := by
  intro c member
  rcases List.mem_append.mp member with zero | digit
  · rw [List.eq_of_mem_replicate zero]
    exact kind 0
  · exact all_toDigits kind radix_pos few c digit

theorem plus_not_mem_toDigits (radix_pos : 1 < radix) (few : radix ≤ 16) (n : Nat) :
    '+' ∉ Nat.toDigits radix n := by
  intro member
  have other := all_toDigits (p := (· != '+')) (by decide) radix_pos few _ member
  exact absurd other (by decide)

/-- A number that is written reads back, if it is below the limit. -/
theorem readUnsigned_toDigits (radix_pos : 1 < radix) (few : radix ≤ 16) {n : Nat}
    (below : n < limit) : readUnsigned radix limit (Nat.toDigits radix n) = .ok n := by
  have digits := readDigits_toDigits radix_pos few below
  have unsigned := plus_not_mem_toDigits radix_pos few n
  unfold readUnsigned
  split
  · rename_i empty
    exact absurd empty Nat.toDigits_ne_nil
  · rename_i plus
    simp [plus] at unsigned
  · rename_i plus
    simp [plus] at unsigned
  · exact digits

theorem readDigits_zeros (radix_pos : 1 < radix) (k : Nat) (limit_pos : 0 < limit) (digits : List Char) :
    readDigits radix limit 0 (List.replicate k '0' ++ digits) = readDigits radix limit 0 digits := by
  have zero : digitOf? radix '0' = some 0 := by
    change (some 0).filter (fun n : Nat => n < radix) = some 0
    rw [Option.filter_some, if_pos (decide_eq_true (Nat.lt_trans Nat.zero_lt_one radix_pos))]
  induction k with
  | zero => rfl
  | succ k ih =>
      rw [List.replicate_succ, List.cons_append, readDigits, zero]
      dsimp only
      rw [Nat.zero_mul, Nat.zero_add, if_pos limit_pos, ih]

theorem readUnsigned_padded (radix_pos : 1 < radix) (few : radix ≤ 16) (width : Nat) {n : Nat}
    (below : n < limit) : readUnsigned radix limit (padded radix width n) = .ok n := by
  have digits : readDigits radix limit 0 (padded radix width n) = .ok n := by
    rw [padded, readDigits_zeros radix_pos _ (Nat.zero_lt_of_lt below),
      readDigits_toDigits radix_pos few below]
  have unsigned : ∀ c ∈ padded radix width n, (c != '+') = true :=
    all_padded (by decide) radix_pos few
  unfold readUnsigned
  split
  · rename_i empty
    exact absurd (List.append_eq_nil_iff.mp empty).2 Nat.toDigits_ne_nil
  · rename_i plus
    exact absurd (unsigned '+' (plus ▸ List.mem_cons_self)) (by decide)
  · rename_i plus
    exact absurd (unsigned '+' (plus ▸ List.mem_cons_self)) (by decide)
  · exact digits

@[simp] theorem readWord32_decimal (n : UInt32) : readWord32 (decimal n.toNat) = .ok n := by
  have below : n.toNat < 2 ^ 32 := n.toNat_lt
  rw [readWord32, decimal, readUnsigned_toDigits (by decide) (by decide) below]
  exact congrArg Except.ok (UInt32.ofNat_toNat)

theorem readWord64_decimal (n : UInt64) : readWord64 (decimal n.toNat) = .ok n := by
  have below : n.toNat < 2 ^ 64 := n.toNat_lt
  rw [readWord64, decimal, readUnsigned_toDigits (by decide) (by decide) below]
  exact congrArg Except.ok (UInt64.ofNat_toNat)

end Numbers

theorem span_append {p : Char → Bool} {front rest : List Char}
    (inside : ∀ c ∈ front, p c = true) (ends : ∀ c ∈ rest.head?, p c = false) :
    (front ++ rest).takeWhile p = front ∧ (front ++ rest).dropWhile p = rest := by
  have stop : rest.takeWhile p = [] ∧ rest.dropWhile p = rest := by
    cases rest with
    | nil => exact ⟨rfl, rfl⟩
    | cons c rest =>
        have other := ends c rfl
        rw [List.takeWhile_cons, List.dropWhile_cons, other]
        exact ⟨rfl, rfl⟩
  rw [List.takeWhile_append_of_pos inside, List.dropWhile_append_of_pos inside, stop.1, stop.2,
    List.append_nil]
  exact ⟨rfl, rfl⟩

theorem head_append {p : Char → Bool} {front rest : List Char} (first : ∀ c ∈ front.head?, p c = false)
    (next : ∀ c ∈ rest.head?, p c = false) : ∀ c ∈ (front ++ rest).head?, p c = false := by
  cases front with
  | nil => exact next
  | cons c front => exact first

def isPlain (c : Char) : Bool := c.isAlphanum || c = '.' || c = '+' || c = '-' || c = '_'

theorem plain_bounds {c : Char} (plain : isPlain c = true) : 33 ≤ c.toNat ∧ c.toNat ≤ 126 := by
  have letter : c.isAlpha = (decide ('A'.val ≤ c.val ∧ c.val ≤ 'Z'.val) ||
      (decide ('a'.val ≤ c.val) && decide (c.val ≤ 'z'.val))) := rfl
  simp only [isPlain, Char.isAlphanum, letter, Char.isDigit, Bool.or_eq_true, Bool.and_eq_true,
    decide_eq_true_eq, UInt32.le_iff_toNat_le, ge_iff_le] at plain
  rw [← Char.toNat_val]
  rcases plain with (((((upper | lower) | digit) | rfl) | rfl) | rfl) | rfl
  · have bounds : 65 ≤ c.val.toNat ∧ c.val.toNat ≤ 90 := upper
    omega
  · have bounds : 97 ≤ c.val.toNat ∧ c.val.toNat ≤ 122 := lower
    omega
  · have bounds : 48 ≤ c.val.toNat ∧ c.val.toNat ≤ 57 := digit
    omega
  all_goals decide

theorem not_blank_of_plain {c : Char} (plain : isPlain c = true) : isBlank c = false := by
  have bounds := plain_bounds plain
  rw [Bool.eq_false_iff]
  intro blank
  simp only [isBlank, Bool.or_eq_true, Bool.and_eq_true, decide_eq_true_eq, beq_iff_eq] at blank
  omega

theorem toNat_of_isDigit {c : Char} (digit : c.isDigit = true) : 48 ≤ c.toNat ∧ c.toNat ≤ 57 := by
  simpa [Char.isDigit, UInt32.le_iff_toNat_le, ← Char.toNat_val] using digit

theorem plain_of_alphanum {c : Char} (letter : c.isAlphanum = true) : isPlain c = true := by
  simp [isPlain, letter]

theorem alphanum_of_isDigit {c : Char} (digit : c.isDigit = true) : c.isAlphanum = true := by
  simp [Char.isAlphanum, digit]

theorem plain_of_isDigit {c : Char} (digit : c.isDigit = true) : isPlain c = true :=
  plain_of_alphanum (alphanum_of_isDigit digit)

theorem dropBlanks_of_solid {text : List Char} (solid : ∀ c ∈ text, isBlank c = false) :
    text.dropWhile isBlank = text := by
  cases text with
  | nil => rfl
  | cons c cs => rw [List.dropWhile_cons, solid c List.mem_cons_self, if_neg Bool.false_ne_true]

/-- Blanks around a text without blanks are taken off, and nothing else. -/
theorem trimBlanks_surrounded {before text after : List Char}
    (early : ∀ c ∈ before, isBlank c = true) (solid : ∀ c ∈ text, isBlank c = false)
    (late : ∀ c ∈ after, isBlank c = true) : trimBlanks (before ++ text ++ after) = text := by
  have turned : ∀ c ∈ text.reverse, isBlank c = false := fun c member =>
    solid c (List.mem_reverse.mp member)
  have behind : ∀ c ∈ after.reverse, isBlank c = true := fun c member =>
    late c (List.mem_reverse.mp member)
  have none : (after ++ []).dropWhile isBlank = [] := List.dropWhile_append_of_pos late
  rw [List.append_nil] at none
  rw [trimBlanks, List.append_assoc, List.dropWhile_append_of_pos early, List.dropWhile_append,
    dropBlanks_of_solid solid]
  split
  · rename_i empty
    rw [none, List.isEmpty_iff.mp empty]
    rfl
  · rw [List.reverse_append, List.dropWhile_append_of_pos behind, dropBlanks_of_solid turned,
      List.reverse_reverse]

theorem trimBlanks_of_solid {text : List Char} (solid : ∀ c ∈ text, isBlank c = false) :
    trimBlanks text = text := by
  have none : ∀ c ∈ ([] : List Char), isBlank c = true := nofun
  have trimmed := trimBlanks_surrounded none solid none
  rwa [List.nil_append, List.append_nil] at trimmed

section Starts
variable {start text rest : List Char}

theorem dropStart_eq_some_iff : dropStart? start text = some rest ↔ text = start ++ rest := by
  induction start generalizing text with
  | nil => rw [dropStart?, Option.some.injEq, List.nil_append]
  | cons p start ih =>
      cases text with
      | nil => simp only [dropStart?, reduceCtorEq, List.cons_append]
      | cons c text =>
          rw [dropStart?, List.cons_append, List.cons.injEq]
          split
          · rename_i same
            rw [ih, eq_comm (a := c), and_iff_right same]
          · rename_i other
            simp only [reduceCtorEq, false_iff, not_and]
            exact fun same => absurd same.symm other

@[simp] theorem dropStart_append (start rest : List Char) :
    dropStart? start (start ++ rest) = some rest :=
  dropStart_eq_some_iff.mpr rfl

theorem dropStart_eq_none_iff : dropStart? start text = none ↔ ¬ start <+: text := by
  rw [Option.eq_none_iff_forall_ne_some]
  constructor
  · rintro none ⟨rest, rfl⟩
    exact none rest (dropStart_append start rest)
  · intro other rest found
    exact other ⟨rest, (dropStart_eq_some_iff.mp found).symm⟩

end Starts

namespace Hex

def digitByte (n : Nat) : UInt8 := (hexDigit n).toNat.toUInt8

theorem utf8_hexDigit : ∀ n : Fin 16, String.utf8EncodeChar (hexDigit n) = [digitByte n] := by
  decide

theorem digitValue_digitByte : ∀ n : Fin 16, digitValue? (digitByte n) = some n.val := by
  decide

theorem hexDigit_alphanum : ∀ n : Fin 16, (hexDigit n).isAlphanum = true := by decide

theorem digitAt_digitByte (index : Nat) {n : Nat} (small : n < 16) :
    digitAt index (digitByte n) = .ok n := by
  rw [digitAt, digitValue_digitByte ⟨n, small⟩]

theorem utf8_encodeByte (byte : UInt8) :
    utf8 (encodeByte byte) = [digitByte (byte.toNat / 16), digitByte (byte.toNat % 16)] := by
  have high : byte.toNat / 16 < 16 := by
    have bound := byte.toNat_lt
    omega
  have low : byte.toNat % 16 < 16 := Nat.mod_lt _ (by decide)
  have first := utf8_hexDigit ⟨_, high⟩
  have second := utf8_hexDigit ⟨_, low⟩
  simp only [utf8, encodeByte, List.flatMap_cons, List.flatMap_nil, first, second]
  rfl

@[simp]
theorem utf8_append (a b : List Char) : utf8 (a ++ b) = utf8 a ++ utf8 b := List.flatMap_append

theorem utf8_encode_cons (byte : UInt8) (bytes : List UInt8) :
    utf8 (encode (byte :: bytes)) =
      digitByte (byte.toNat / 16) :: digitByte (byte.toNat % 16) :: utf8 (encode bytes) := by
  rw [encode, List.flatMap_cons, utf8_append, utf8_encodeByte]
  rfl

@[simp] theorem length_utf8_encode (bytes : List UInt8) :
    (utf8 (encode bytes)).length = 2 * bytes.length := by
  induction bytes with
  | nil => rfl
  | cons byte bytes ih =>
      rw [utf8_encode_cons, List.length_cons, List.length_cons, List.length_cons, ih]
      omega

theorem decodePairs_encode (index : Nat) (bytes : List UInt8) :
    decodePairs index (utf8 (encode bytes)) = .ok bytes := by
  induction bytes generalizing index with
  | nil => rfl
  | cons byte bytes ih =>
      have bound := byte.toNat_lt
      have whole : 16 * (byte.toNat / 16) + byte.toNat % 16 = byte.toNat := by omega
      rw [utf8_encode_cons, decodePairs, digitAt_digitByte _ (by omega),
        digitAt_digitByte _ (by omega), ih]
      change Except.ok ((16 * (byte.toNat / 16) + byte.toNat % 16).toUInt8 :: bytes) = _
      rw [whole]
      exact congrArg (fun byte => Except.ok (byte :: bytes)) UInt8.ofNat_toNat

/-- Bytes that are written as digits read back. -/
@[simp] theorem decode_encode (bytes : List UInt8) : decode (utf8 (encode bytes)) = .ok bytes := by
  have even : ¬(utf8 (encode bytes)).length % 2 = 1 := by
    rw [length_utf8_encode]
    omega
  rw [decode, if_neg even, decodePairs_encode]

theorem all_encode {p : Char → Prop} (kind : ∀ n : Fin 16, p (hexDigit n)) (bytes : List UInt8) :
    ∀ c ∈ encode bytes, p c := by
  intro c member
  obtain ⟨byte, -, digit⟩ := List.mem_flatMap.mp member
  have bound := byte.toNat_lt
  rcases List.mem_cons.mp digit with rfl | digit
  · exact kind ⟨byte.toNat / 16, by omega⟩
  · rw [List.mem_singleton.mp digit]
    exact kind ⟨byte.toNat % 16, by omega⟩

theorem encode_alphanum (bytes : List UInt8) : ∀ c ∈ encode bytes, c.isAlphanum = true :=
  all_encode hexDigit_alphanum bytes

theorem encode_solid (bytes : List UInt8) : ∀ c ∈ encode bytes, isBlank c = false :=
  fun c member => not_blank_of_plain (plain_of_alphanum (encode_alphanum bytes c member))

end Hex
end Text
end ProofOfWork
