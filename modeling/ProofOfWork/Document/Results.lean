import ProofOfWork.Document.Settings
import ProofOfWork.SelfTest
set_option autoImplicit false

namespace ProofOfWork
open Document

/-- The greatest number of values that may be nested in each other. -/
def Document.nestingLimit : Nat := 127

namespace Document.Value

mutual

/-- Whether the value, at the given depth of nesting, can be read as a whole. -/
def readable (depth : Nat) : Value → Bool
  | .sequence items => depth < nestingLimit && readableItems (depth + 1) items
  | .mapping entries => depth < nestingLimit && readableEntries (depth + 1) entries
  | .other => false
  | _ => true

def readableItems (depth : Nat) : List Value → Bool
  | [] => true
  | v :: rest => readable depth v && readableItems depth rest

def readableEntries (depth : Nat) : List (List Char × Value) → Bool
  | [] => true
  | (_, v) :: rest => readable depth v && readableEntries depth rest

end

/-- A value that may be missing, or null. -/
def orNone {β : Type} (read : Value → Option β) : Option Value → Option (Option β)
  | none => some none
  | some .null => some none
  | some v => (read v).map some

def items? : Value → Option (List Value)
  | .sequence items => some items
  | _ => none

end Document.Value

def Document.Json.record? (names : List String) (v : Value) : Option (String → Option Value) :=
  Json.access.record? names v

def Nonce.ofDocument? (v : Value) : Option Nonce := v.word?.map Nonce.mk

def Nonce.toDocument (n : Nonce) : Value := .natural n.value.toNat

def Digest.ofDocument? (v : Value) : Option Digest :=
  v.text?.bind fun cs => (Digest.ofHex cs).toOption

def Digest.toDocument (d : Digest) : Value := .text d.hex

def Target.ofDocument? (v : Value) : Option Target :=
  v.text?.bind fun cs => (Target.ofHex cs).toOption

def Target.toDocument (t : Target) : Value := .text t.hex

def Difficulty.ofDocument? (v : Value) : Option Difficulty := v.real?.map Difficulty.mk

def HashRate.ofDocument? (v : Value) : Option HashRate := v.real?.map HashRate.mk

def Period.ofDocument? (v : Value) : Option Period := v.real?.map Period.mk

def Verdict.ofDocument? (v : Value) : Option Verdict :=
  Json.access.oneOf? Verdict.all Verdict.name v

def Verdict.toDocument (v : Verdict) : Value := .word v.name

namespace SearchResult

def toDocument : SearchResult → Value
  | .found nonce digest =>
    .record [("status", .word "found"), ("nonce", nonce.toDocument), ("digest", digest.toDocument)]
  | .exhausted => .record [("status", .word "exhausted")]

/-- The result of a status and the nonce and digest that come with it. -/
def ofParts? (nonce digest : Option Value) : Option SearchResult := do
  let nonce ← nonce.bind Nonce.ofDocument?
  let digest ← digest.bind Digest.ofDocument?
  return .found nonce digest

/-- A result in a document, at a depth of nesting. -/
def ofDocument? (depth : Nat) (v : Value) : Option SearchResult :=
  if !v.readable depth then none
  else match v with
    | .mapping entries => do
      let status ← (← namedFields? ["status".toList] entries) "status".toList
      match (← status.text?) with
      | ['f', 'o', 'u', 'n', 'd'] =>
        let field ← namedFields? ["nonce".toList, "digest".toList] entries
        ofParts? (field "nonce".toList) (field "digest".toList)
      | ['e', 'x', 'h', 'a', 'u', 's', 't', 'e', 'd'] => some .exhausted
      | _ => none
    | .sequence [status, nonce, digest] => do
      if (← status.text?) = "found".toList then ofParts? nonce digest else none
    | .sequence [status] => do
      if (← status.text?) = "exhausted".toList then some .exhausted else none
    | _ => none

end SearchResult

namespace SearchOutcome

def toDocument (o : SearchOutcome) : Value :=
  .record [("result", o.result.toDocument), ("target", o.target.toDocument),
    ("attempts", .natural o.attempts.toNat), ("elapsed", .word o.elapsed.text)]

def ofDocument? (v : Value) : Option SearchOutcome := do
  let field ← Json.record? ["result", "target", "attempts", "elapsed"] v
  return {
    result := ← (field "result").bind (SearchResult.ofDocument? 1)
    target := ← (field "target").bind Target.ofDocument?
    attempts := ← (field "attempts").bind Value.word?
    elapsed := ← (field "elapsed").bind (Duration.ofDocument? Json.access) }

end SearchOutcome

namespace Ledger

def toDocument (l : Ledger) : Value :=
  .record [("hashes", .natural l.hashes.toNat), ("solutions", .natural l.solutions.toNat),
    ("exhausted", .natural l.exhausted.toNat), ("cancelled", .natural l.cancelled.toNat),
    ("busy", .word l.busy.text)]

def ofDocument? (v : Value) : Option Ledger := do
  let field ← Json.record? ["hashes", "solutions", "exhausted", "cancelled", "busy"] v
  return {
    hashes := ← (field "hashes").bind Value.word?
    solutions := ← (field "solutions").bind Value.word?
    exhausted := ← (field "exhausted").bind Value.word?
    cancelled := ← (field "cancelled").bind Value.word?
    busy := ← (field "busy").bind (Duration.ofDocument? Json.access) }

end Ledger

namespace MinerRecord

def toDocument (r : MinerRecord) : Value :=
  .record [("found", .boolean r.found), ("nonce", .optional Nonce.toDocument r.nonce),
    ("digest", .optional Digest.toDocument r.digest), ("attempts", .natural r.attempts.toNat),
    ("algorithm", .word r.algorithm.name), ("target", r.target.toDocument)]

def ofDocument? (v : Value) : Option MinerRecord := do
  let field ← Json.record? ["found", "nonce", "digest", "attempts", "algorithm", "target"] v
  return {
    found := ← (field "found").bind Value.boolean?
    nonce := ← Value.orNone Nonce.ofDocument? (field "nonce")
    digest := ← Value.orNone Digest.ofDocument? (field "digest")
    attempts := ← (field "attempts").bind Value.word?
    algorithm := ← (field "algorithm").bind (HashAlgorithm.ofDocument? Json.access)
    target := ← (field "target").bind Target.ofDocument? }

end MinerRecord

namespace RoundOutcome

def toDocument (o : RoundOutcome) : Value :=
  .record [("round", .natural o.round.toNat), ("result", o.result.toDocument),
    ("verdict", .optional Verdict.toDocument o.verdict), ("difficulty", .real o.difficulty.value),
    ("attempts", .natural o.attempts.toNat), ("elapsed", .word o.elapsed.text),
    ("hash_rate", .real o.hashRate.value)]

def ofDocument? (depth : Nat) (v : Value) : Option RoundOutcome := do
  let field ← Json.record?
    ["round", "result", "verdict", "difficulty", "attempts", "elapsed", "hash_rate"] v
  return {
    round := ← (field "round").bind Value.word?
    result := ← (field "result").bind (SearchResult.ofDocument? (depth + 1))
    verdict := ← Value.orNone Verdict.ofDocument? (field "verdict")
    difficulty := ← (field "difficulty").bind Difficulty.ofDocument?
    attempts := ← (field "attempts").bind Value.word?
    elapsed := ← (field "elapsed").bind (Duration.ofDocument? Json.access)
    hashRate := ← (field "hash_rate").bind HashRate.ofDocument? }

end RoundOutcome

namespace SessionReport

def toDocument (r : SessionReport) : Value :=
  .record [("algorithm", .word r.algorithm.name),
    ("rounds_requested", .natural r.roundsRequested.toNat),
    ("rounds", .sequence (r.rounds.map RoundOutcome.toDocument)),
    ("cancelled", .boolean r.cancelled), ("final_target", r.finalTarget.toDocument),
    ("elapsed", .word r.elapsed.text)]

def ofDocument? (v : Value) : Option SessionReport := do
  let field ← Json.record?
    ["algorithm", "rounds_requested", "rounds", "cancelled", "final_target", "elapsed"] v
  return {
    algorithm := ← (field "algorithm").bind (HashAlgorithm.ofDocument? Json.access)
    roundsRequested := ← (field "rounds_requested").bind Value.word?
    rounds := ← (← (field "rounds").bind Value.items?).mapM (RoundOutcome.ofDocument? 2)
    cancelled := ← (field "cancelled").bind Value.boolean?
    finalTarget := ← (field "final_target").bind Target.ofDocument?
    elapsed := ← (field "elapsed").bind (Duration.ofDocument? Json.access) }

end SessionReport
end ProofOfWork
