import ProofOfWork.Document.Settings
import ProofOfWork.Proofs.Config.Validity
import ProofOfWork.Proofs.Duration.Text
import ProofOfWork.Proofs.Target.Spec
set_option autoImplicit false

namespace ProofOfWork
open Document

namespace Document

/-- A format in which the values that `node` makes of documents are taken as they were meant, apart
from real numbers, which come back as `reread` has them. -/
structure Access.Faithful {α : Type} (a : Access α) (node : Value → α) (reread : Float → Float) :
    Prop where
  word : ∀ n : UInt64, a.word? (node (.natural n.toNat)) = some n
  boolean : ∀ b, a.boolean? (node (.boolean b)) = some b
  real : ∀ x : Float, x.isFinite = true → a.real? (node (.real x)) = some (reread x)
  text : ∀ cs, a.text? (node (.text cs)) = some cs
  name : ∀ cs, a.name? (node (.text cs)) = some cs
  fields : ∀ entries : List (List Char × Value), (entries.map Prod.fst).Nodup →
    a.fields? (entries.map Prod.fst) (node (.mapping entries)) =
      some fun name => (entries.find? fun entry => entry.1 = name).map fun entry => node entry.2

variable {α : Type} {a : Access α} {node : Value → α} {reread : Float → Float}

theorem namedFields_nodup (entries : List (List Char × Value))
    (distinct : (entries.map Prod.fst).Nodup) :
    namedFields? (entries.map Prod.fst) (entries.map fun entry => (entry.1, node entry.2)) =
      some fun name => (entries.find? fun entry => entry.1 = name).map fun entry => node entry.2 := by
  have once : ((entries.map Prod.fst).all fun name =>
      decide ((entries.map fun entry => (entry.1, node entry.2)).countP
        (fun entry => entry.1 = name) ≤ 1)) = true := by
    rw [List.all_eq_true]
    intro name _
    have count := List.nodup_iff_count_le_one.mp distinct name
    rw [List.count, List.countP_map] at count
    rw [List.countP_map]
    simpa [Function.comp_def, beq_eq_decide] using count
  rw [namedFields?, if_pos once]
  refine congrArg some (funext fun name => ?_)
  rw [List.find?_map, Option.map_map]
  rfl

theorem Access.Faithful.record (faithful : a.Faithful node reread) {names : List String}
    {entries : List (String × Value)} (named : entries.map Prod.fst = names)
    (distinct : names.Nodup) : a.record? names (node (.record entries)) =
      some fun name => (entries.find? fun entry => entry.1 = name).map fun entry => node entry.2 := by
  have keys : (entries.map fun entry => (entry.1.toList, entry.2)).map Prod.fst =
      names.map String.toList := by
    rw [← named, List.map_map, List.map_map]
    rfl
  have apart : (names.map String.toList).Nodup :=
    distinct.map fun _ _ => String.toList_inj.mp
  have fields := faithful.fields (entries.map fun entry => (entry.1.toList, entry.2)) (keys ▸ apart)
  rw [keys] at fields
  rw [Access.record?, Value.record, fields, Option.map_some]
  refine congrArg some (funext fun name => ?_)
  dsimp only
  rw [List.find?_map, Option.map_map]
  simp only [Function.comp_def, String.toList_inj]

theorem Access.Faithful.oneOf {β : Type} (faithful : a.Faithful node reread) {all : List β}
    {name : β → String} {b : β} (named : Text.named? all name (name b).toList = some b) :
    a.oneOf? all name (node (.word (name b))) = some b := by
  rw [Access.oneOf?, Value.word, faithful.name, Option.bind_some, named]

theorem Access.Faithful.readText {β : Type} (faithful : a.Faithful node reread)
    {read : List Char → Option β} {cs : List Char} {b : β} (reads : read cs = some b) :
    a.readText? read (node (.text cs)) = some b := by
  rw [Access.readText?, faithful.text, Option.bind_some, reads]

end Document

variable {α : Type} {a : Access α} {node : Value → α} {reread : Float → Float}

theorem Duration.ofDocument_text (faithful : a.Faithful node reread) (d : Duration) :
    ofDocument? a (node (.word d.text)) = some d :=
  faithful.readText d.read_text

theorem HashAlgorithm.ofDocument_name (faithful : a.Faithful node reread) (h : HashAlgorithm) :
    ofDocument? a (node (.word h.name)) = some h := by
  have named : Text.named? HashAlgorithm.all HashAlgorithm.name h.name.toList = some h := by
    cases h <;> rfl
  exact faithful.oneOf named

theorem EngineConfig.ofDocument_toDocument (faithful : a.Faithful node reread) (c : EngineConfig) :
    ofDocument? a (node c.toDocument) = some c := by
  have mode : Text.named? SearchMode.all SearchMode.name c.mode.name.toList = some c.mode := by
    cases c.mode <;> rfl
  rw [ofDocument?, toDocument, faithful.record (by rfl) (by decide)]
  simp [field?, faithful.word, SearchMode.ofDocument?, faithful.oneOf mode]

theorem SessionConfig.ofDocument_toDocument (faithful : a.Faithful node reread) {c : SessionConfig}
    (finite : c.tolerance.isFinite = true) :
    ofDocument? a (node c.toDocument) = some { c with tolerance := reread c.tolerance } := by
  rw [ofDocument?, toDocument, faithful.record (by rfl) (by decide)]
  simp [field?, faithful.word, faithful.boolean, faithful.real _ finite,
    Duration.ofDocument_text faithful]

theorem LoggingConfig.ofDocument_toDocument (faithful : a.Faithful node reread) (c : LoggingConfig) :
    ofDocument? a (node c.toDocument) = some c := by
  have level : Text.named? LogLevel.all LogLevel.name c.level.name.toList = some c.level := by
    cases c.level <;> rfl
  have format : Text.named? LogFormat.all LogFormat.name c.format.name.toList = some c.format := by
    cases c.format <;> rfl
  rw [ofDocument?, toDocument, faithful.record (by rfl) (by decide)]
  simp [field?, LogLevel.ofDocument?, LogFormat.ofDocument?, faithful.oneOf level,
    faithful.oneOf format]

namespace Config

/-- The configuration with its tolerance as it comes back. -/
def rereadWith (reread : Float → Float) (c : Config) : Config :=
  { c with session := { c.session with tolerance := reread c.session.tolerance } }

/-- A configuration is made again from its document. -/
theorem ofDocument_toDocument (faithful : a.Faithful node reread) {c : Config}
    (proper : c.target.Proper) (finite : c.session.tolerance.isFinite = true) :
    ofDocument? a (node c.toDocument) = some (c.rereadWith reread) := by
  have read : (TargetSpec.read c.target.text).toOption = some c.target := by
    rw [TargetSpec.read_text proper]
    rfl
  have target : TargetSpec.ofDocument? a (node (.text c.target.text)) = some c.target :=
    faithful.readText read
  rw [ofDocument?, toDocument, faithful.record (by rfl) (by decide)]
  simp [field?, HashAlgorithm.ofDocument_name faithful, target, faithful.word,
    EngineConfig.ofDocument_toDocument faithful, LoggingConfig.ofDocument_toDocument faithful,
    SessionConfig.ofDocument_toDocument faithful finite, rereadWith]

end Config

theorem TargetSpec.proper_of_resolve {s : TargetSpec} {t : Target} (resolved : s.resolve = .ok t) :
    s.Proper := by
  cases s with
  | digits target | leadingZeros bits | powerOfTwo exponent | compact word => trivial
  | difficulty value =>
      change Target.ofDifficulty value = _ at resolved
      unfold Target.ofDifficulty at resolved
      split at resolved
      · cases resolved
      · rename_i bounded
        have finite : value.isFinite = true := by
          cases known : value.isFinite with
          | true => rfl
          | false =>
            rw [known] at bounded
            exact absurd rfl bounded
        obtain ⟨negative, m, e, shown⟩ := Decimal.exists_shape finite
        change Decimal.shape value ≠ _
        rw [shown]
        exact nofun

/-- What a valid configuration says can be written and read. -/
theorem Config.proper_of_check {c : Config} (valid : c.check = .ok ()) :
    c.target.Proper ∧ c.session.tolerance.isFinite = true := by
  obtain ⟨⟨t, resolved⟩, -, -, session⟩ := check_ok_iff.mp valid
  obtain ⟨-, -, finite, -⟩ := SessionConfig.check_ok_iff.mp session
  exact ⟨TargetSpec.proper_of_resolve resolved, finite⟩

end ProofOfWork
