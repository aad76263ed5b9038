import ProofOfWork.Proofs.Config.Json
import ProofOfWork.Proofs.Document.Json.Reports
import ProofOfWork.Proofs.Duration.Text
import ProofOfWork.Proofs.Program.Printed
set_option autoImplicit false

namespace ProofOfWork.Duration
open Document

section Parts
variable {seconds nanos : Nat}

theorem nanos_ofParts (word : seconds < 2 ^ 64) (fine : nanos < nanosPerSecond) :
    (ofParts seconds nanos).nanos = seconds * nanosPerSecond + nanos := by
  have whole := Nat.mul_le_mul_right nanosPerSecond (Nat.succ_le_of_lt word)
  rw [Nat.succ_mul] at whole
  change min (seconds * nanosPerSecond + nanos) (durationLimit - 1) = _
  rw [durationLimit]
  omega

theorem seconds_ofParts (word : seconds < 2 ^ 64) (fine : nanos < nanosPerSecond) :
    (ofParts seconds nanos).seconds = seconds := by
  rw [Duration.seconds, nanos_ofParts word fine, Nat.mul_comm, Nat.mul_add_div (by decide),
    Nat.div_eq_of_lt fine, Nat.add_zero]

theorem subsecond_ofParts (word : seconds < 2 ^ 64) (fine : nanos < nanosPerSecond) :
    (ofParts seconds nanos).subsecond = nanos := by
  rw [subsecond, nanos_ofParts word fine, Nat.mul_add_mod_of_lt fine]

theorem ofParts_parts (d : Duration) : ofParts d.seconds d.subsecond = d := by
  apply eq_of_nanos
  rw [nanos_ofParts d.seconds_lt d.subsecond_lt]
  exact Nat.div_add_mod' d.nanos nanosPerSecond

end Parts

section Documents
variable {α : Type} {a : Access α} {v : α} {d : Duration}

/-- In every format, a value with the text of a duration is read as that duration. -/
theorem ofDocument_of_text (text : a.text? v = some d.text.toList) : ofDocument? a v = some d := by
  rw [ofDocument?, Access.readText?, text, Option.bind_some, read_text]

/-- The text of a duration of any seconds and nanoseconds is read as that duration, in every format
that has texts. The times of searches, of engines and of sessions come back from the JSON of their
reports, and the period of a valid configuration from its JSON and its YAML. -/
theorem text_survives :
    (∀ (seconds : UInt64) (nanos : Fin nanosPerSecond), let d := ofParts seconds.toNat nanos
      d.seconds = seconds.toNat ∧ d.subsecond = nanos ∧ read? d.text.toList = some d) ∧
    (∀ d : Duration, (∃ (seconds : UInt64) (nanos : Fin nanosPerSecond),
      d = ofParts seconds.toNat nanos) ∧ read? d.text.toList = some d ∧
      ∀ {α : Type} (a : Access α) (v : α), a.text? v = some d.text.toList →
        ofDocument? a v = some d) ∧
    (∀ o : SearchOutcome,
      (Json.read? (Json.compact o.toDocument)).bind SearchOutcome.ofDocument? = some o) ∧
    (∀ l : Ledger,
      (Json.read? (Json.compact l.toDocument)).bind Ledger.ofDocument? = some l) ∧
    (∀ r : SessionReport, r.Finite → ∃ s,
      (Json.read? (Json.compact r.toDocument)).bind SessionReport.ofDocument? = some s ∧
      s.elapsed = r.elapsed ∧ s.rounds.map (·.elapsed) = r.rounds.map (·.elapsed)) ∧
    ∀ c : Config, c.check = .ok () →
      (∃ e, Config.parse (Json.compact c.toDocument) .json = .ok e ∧
        e.session.targetPeriod = c.session.targetPeriod) ∧
      Config.parse (Yaml.text c.toDocument) .yaml = .ok c := by
  refine ⟨?_, ?_, ?_, ?_, ?_, ?_⟩
  · intro seconds nanos d
    exact ⟨seconds_ofParts seconds.toNat_lt nanos.isLt,
      subsecond_ofParts seconds.toNat_lt nanos.isLt, d.read_text⟩
  · intro d
    refine ⟨⟨d.seconds.toUInt64, ⟨d.subsecond, d.subsecond_lt⟩, ?_⟩, d.read_text, ?_⟩
    · have word : d.seconds.toUInt64.toNat = d.seconds := UInt64.toNat_ofNat_of_lt' d.seconds_lt
      rw [word]
      exact d.ofParts_parts.symm
    · intro α a v text
      exact ofDocument_of_text text
  · intro o
    rw [Json.read_compact o.readable, Option.bind_some, o.ofDocument_toDocument]
  · intro l
    rw [Json.read_compact l.readable, Option.bind_some, l.ofDocument_toDocument]
  · intro r finite
    refine ⟨r.asReread, ?_, rfl, ?_⟩
    · rw [Json.read_compact finite.readable, Option.bind_some, r.ofDocument_toDocument]
    · rw [SessionReport.asReread, List.map_map]
      rfl
  · intro c valid
    refine ⟨⟨_, Config.parse_json valid, rfl⟩, ?_⟩
    have parsed : Config.parse (Yaml.text c.toDocument ++ []) .yaml = .ok c :=
      Config.parse_yaml valid (by simp)
    rwa [List.append_nil] at parsed

/-- The greatest duration, which has all the units. -/
def greatest : Duration := ofParts 18446744073709551615 999999999

def longLedger : Ledger := { hashes := 150, solutions := 1, exhausted := 1, busy := greatest }

def longReport : SessionReport where
  algorithm := default
  roundsRequested := 1
  rounds := [{
    round := 0
    result := .exhausted
    verdict := none
    difficulty := ⟨256⟩
    attempts := 5
    elapsed := greatest
    hashRate := ⟨0.1⟩ }]
  cancelled := false
  finalTarget := .max
  elapsed := greatest

def longConfig : Config := { session := { targetPeriod := greatest } }

theorem text_survives_of_greatest :
    greatest.text = "584542046090years 7months 15days 17h 5m 3s 999ms 999us 999ns" ∧
    (Toml.access.text? (.word greatest.text) = some greatest.text.toList ∧
      ofDocument? Toml.access (.word greatest.text) = some greatest) ∧
    (Json.read? (Json.compact longLedger.toDocument)).bind Ledger.ofDocument? = some longLedger ∧
    (longReport.Finite ∧ ∃ s,
      (Json.read? (Json.compact longReport.toDocument)).bind SessionReport.ofDocument? = some s ∧
      s.elapsed = greatest ∧ s.rounds.map (·.elapsed) = [greatest]) ∧
    longConfig.check = .ok () ∧
      Config.parse (Yaml.text longConfig.toDocument) .yaml = .ok longConfig := by
  obtain ⟨-, format, -, ledger, report, config⟩ := text_survives
  have finite : longReport.Finite := by
    intro o member
    rw [List.mem_singleton.mp member]
    exact ⟨by decide +kernel, by decide +kernel⟩
  have valid : longConfig.check = .ok () := rfl
  exact ⟨by decide +kernel, ⟨rfl, (format greatest).2.2 Toml.access _ rfl⟩,
    ledger longLedger, ⟨finite, report longReport finite⟩, valid,
    (config longConfig valid).2⟩

end Documents
end ProofOfWork.Duration
