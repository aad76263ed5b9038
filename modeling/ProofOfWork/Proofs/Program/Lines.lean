import ProofOfWork.Program.Run
import ProofOfWork.Proofs.CommandLine.Level
import ProofOfWork.Proofs.Text.Digits
set_option autoImplicit false

namespace ProofOfWork

@[simp] theorem Nonce.toList_text (n : Nonce) : n.text.toList = Text.decimal n.value.toNat :=
  Nat.toList_repr

def foundLine (nonce digest : List Char) : String :=
  "Found nonce " ++ String.ofList nonce ++ " digest " ++ String.ofList digest

@[simp] theorem toList_foundLine (nonce digest : List Char) :
    (foundLine nonce digest).toList =
      "Found nonce ".toList ++ (nonce ++ ' ' :: ("digest ".toList ++ digest)) := by
  have mark : " digest ".toList = ' ' :: "digest ".toList := by decide
  unfold foundLine
  simp only [String.toList_append, String.toList_ofList, mark, List.append_assoc,
    List.cons_append]

theorem blank_not_mem_decimal (n : Nat) : ' ' ∉ Text.decimal n := by
  intro member
  have digit := Nat.isDigit_of_mem_toDigits (by decide) (by decide) member
  cases digit

theorem blank_not_mem_hex (d : Digest) : ' ' ∉ d.hex := by
  intro member
  have solid := Text.Hex.encode_solid _ ' ' member
  cases solid

theorem foundLine_inj {nonce digest : List Char} {n : Nonce} {d : Digest}
    (same : foundLine nonce digest = foundLine n.text.toList d.hex) :
    nonce = n.text.toList ∧ digest = d.hex := by
  have lists := congrArg String.toList same
  rw [toList_foundLine, toList_foundLine, n.toList_text] at lists
  have rest := List.append_cancel_left lists
  have blanks := congrArg (List.count ' ') rest
  have in_word : ("digest ".toList).count ' ' = 1 := by decide
  have in_number : (Text.decimal n.value.toNat).count ' ' = 0 :=
    List.count_eq_zero.mpr (blank_not_mem_decimal n.value.toNat)
  have in_digits : d.hex.count ' ' = 0 := List.count_eq_zero.mpr (blank_not_mem_hex d)
  simp only [List.count_append, List.count_cons_self, in_word, in_number, in_digits] at blanks
  have no_blank : ' ' ∉ nonce := List.count_eq_zero.mp (by omega)
  have parts := congrArg (Text.splitAt? ' ') rest
  rw [Text.splitAt_append _ no_blank, Text.splitAt_append _ (blank_not_mem_decimal _)] at parts
  obtain ⟨number, words⟩ := Prod.mk.inj (Option.some.inj parts)
  exact ⟨number.trans n.toList_text.symm, List.append_cancel_left words⟩

def initial? (line : String) : Option Char := line.toList.head?

theorem initial_append {line : String} {c : Char} (begins : initial? line = some c)
    (rest : String) : initial? (line ++ rest) = some c := by
  rw [initial?, String.toList_append, List.head?_append]
  have front : line.toList.head? = some c := begins
  rw [front]
  rfl

theorem initial_repr (n : Nat) : ∃ c, initial? n.repr = some c ∧ c ≠ 'F' := by
  have digits (c : Char) (member : c ∈ Nat.toDigits 10 n) : c.isDigit = true :=
    Nat.isDigit_of_mem_toDigits (by decide) (by decide) member
  rw [initial?, Nat.toList_repr]
  cases all : Nat.toDigits 10 n with
  | nil => exact absurd all Nat.toDigits_ne_nil
  | cons c rest =>
      refine ⟨c, rfl, ?_⟩
      rintro rfl
      have digit := digits 'F' (all ▸ List.mem_cons_self)
      cases digit

@[simp] theorem initial_foundLine (nonce digest : List Char) :
    initial? (foundLine nonce digest) = some 'F' := by
  have front : "Found nonce ".toList = 'F' :: "ound nonce ".toList := by decide
  rw [initial?, toList_foundLine, front]
  rfl

/-- Of the lines that tell the outcome of a search, only that of a solution can name one. -/
theorem lines_found {o : SearchOutcome} {nonce digest : List Char}
    (printed : foundLine nonce digest ∈ o.lines) :
    ∃ n d, o.result = .found n d ∧ nonce = n.text.toList ∧ digest = d.hex := by
  have begins := initial_foundLine nonce digest
  rw [SearchOutcome.lines] at printed
  rcases List.mem_cons.mp printed with first | second
  · cases result : o.result with
    | found n d =>
        rw [result] at first
        have number : String.ofList n.text.toList = n.text := String.ofList_toList
        have whole : foundLine nonce digest = foundLine n.text.toList d.hex := by
          unfold foundLine at first ⊢
          rw [number]
          exact first
        exact ⟨n, d, rfl, foundLine_inj whole⟩
    | exhausted =>
        rw [result] at first
        have front : initial? "Exhausted after " = some 'E' := by decide
        have other := initial_append (initial_append front o.attempts.toNat.repr) " attempts"
        rw [first] at begins
        cases begins.symm.trans other
  · have other := List.mem_singleton.mp second
    have front : ∃ c, initial? o.attempts.toNat.repr = some c ∧ c ≠ 'F' := initial_repr _
    obtain ⟨c, front, differs⟩ := front
    have whole := initial_append (initial_append (initial_append (initial_append (initial_append
      front " attempts in ") o.elapsed.text) " (") o.hashRate.text) ")"
    rw [other] at begins
    exact absurd (Option.some.inj (whole.symm.trans begins)) differs

namespace Document.Yaml

theorem dashed_head (block : List (List Char)) :
    ∀ line ∈ dashed block, line.head? = some '-' ∨ line.head? = some ' ' := by
  intro line member
  cases block with
  | nil => cases member
  | cons first rest =>
      rcases List.mem_cons.mp member with rfl | later
      · exact .inl rfl
      · obtain ⟨more, -, rfl⟩ := List.mem_map.mp later
        exact .inr rfl

theorem itemLines_head (items : List Value) :
    ∀ line ∈ itemLines items, line.head? = some '-' ∨ line.head? = some ' ' := by
  induction items with
  | nil => exact nofun
  | cons v items ih =>
      intro line member
      rw [itemLines] at member
      rcases List.mem_append.mp member with first | later
      · exact dashed_head _ line first
      · exact ih line later

/-- A line of an entry begins as its key does, or it stands below it. -/
theorem entryLines_head {key : List Char} (named : key ≠ []) (v : Value) :
    ∀ line ∈ entryLines key v,
      line.head? = key.head? ∨ line.head? = some '-' ∨ line.head? = some ' ' := by
  have begins (rest : List Char) : (key ++ rest).head? = key.head? := by
    rw [List.head?_append]
    cases key with
    | nil => exact absurd rfl named
    | cons c key => rfl
  intro line member
  unfold entryLines at member
  split at member
  · rcases List.mem_cons.mp member with rfl | below
    · exact .inl (begins _)
    · rcases List.mem_append.mp below with first | later
      · exact .inr (dashed_head _ line first)
      · exact .inr (itemLines_head _ line later)
  · rcases List.mem_cons.mp member with rfl | below
    · exact .inl (begins _)
    · obtain ⟨deeper, -, rfl⟩ := List.mem_map.mp below
      exact .inr (.inr rfl)
  · rw [List.mem_singleton.mp member, List.append_assoc]
    exact .inl (begins _)

theorem entriesLines_head {entries : List (List Char × Value)}
    (named : ∀ entry ∈ entries, entry.1 ≠ []) :
    ∀ line ∈ entriesLines entries, (∃ entry ∈ entries, line.head? = entry.1.head?) ∨
      line.head? = some '-' ∨ line.head? = some ' ' := by
  induction entries with
  | nil => exact nofun
  | cons entry entries ih =>
      intro line member
      rw [entriesLines] at member
      rcases List.mem_append.mp member with first | later
      · rcases entryLines_head (named entry List.mem_cons_self) entry.2 line first with key | below
        · exact .inl ⟨entry, List.mem_cons_self, key⟩
        · exact .inr below
      · rcases ih (fun entry member => named entry (List.mem_cons_of_mem _ member)) line later with
          ⟨entry, member, key⟩ | below
        · exact .inl ⟨entry, List.mem_cons_of_mem _ member, key⟩
        · exact .inr below

theorem lines_mapping {entries : List (List Char × Value)} (filled : entries ≠ []) :
    lines (.mapping entries) = entriesLines entries := by
  cases entries with
  | nil => exact absurd rfl filled
  | cons entry entries => rw [lines, entriesLines]

end Document.Yaml

theorem Config.toDocument_keys (c : Config) :
    ∃ entries, c.toDocument = .mapping entries ∧
      entries.map Prod.fst =
        ["algorithm", "target", "max_attempts", "engine", "session", "logging"].map String.toList :=
  ⟨_, rfl, rfl⟩

theorem foundLine_not_mem_config (nonce digest : List Char) (c : Config) :
    foundLine nonce digest ∉ Document.Yaml.textLines c.toDocument := by
  intro member
  obtain ⟨line, listed, same⟩ := List.mem_map.mp member
  have begins := initial_foundLine nonce digest
  rw [← same, initial?, String.toList_ofList] at begins
  obtain ⟨entries, document, keys⟩ := c.toDocument_keys
  have plain : ∀ key ∈ entries.map Prod.fst, key ≠ [] ∧ key.head? ≠ some 'F' := by
    rw [keys]
    decide
  have filled : entries ≠ [] := by
    rintro rfl
    cases keys
  rw [document, Document.Yaml.lines_mapping filled] at listed
  have heads := Document.Yaml.entriesLines_head
    (fun entry member => (plain entry.1 (List.mem_map_of_mem member)).1) line listed
  rw [begins] at heads
  rcases heads with ⟨entry, member, key⟩ | dash | blank
  · exact (plain entry.1 (List.mem_map_of_mem member)).2 key.symm
  · cases dash
  · cases blank

end ProofOfWork
