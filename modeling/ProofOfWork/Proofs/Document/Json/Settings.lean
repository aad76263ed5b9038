import ProofOfWork.Proofs.Document.Json.Read
import ProofOfWork.Proofs.Document.Settings
set_option autoImplicit false

namespace ProofOfWork.Document.Json
open Decimal

theorem faithful : access.Faithful again reread where
  word n := by
    change (if n.toNat < 2 ^ 64 then some n.toNat.toUInt64 else none) = some n
    rw [if_pos n.toNat_lt]
    exact congrArg some UInt64.ofNat_toNat
  boolean b := rfl
  real x _ := rfl
  text cs := rfl
  name cs := rfl
  fields entries distinct := by
    change namedFields? _ (againEntries entries) = _
    simpa using namedFields_nodup entries distinct

theorem reread_nonneg {x : Float} (finite : x.isFinite = true) (least : 0 ≤ x) : 0 ≤ reread x := by
  obtain ⟨negative, m, e, shown⟩ := exists_shape finite
  obtain ⟨n, t, again⟩ := reread_finite shown
  cases negative with
  | false => exact (le_iff units_zero (congrArg Shape.units again)).mpr (Int.natCast_nonneg _)
  | true =>
      -- only zero has a sign here, and zero is read as it is
      have units := (le_iff units_zero (congrArg Shape.units shown)).mp least
      obtain rfl : m = 0 := by
        rcases Nat.eq_zero_or_pos m with none | pos
        · exact none
        · have some := magnitude_pos e pos
          simp only [signed, if_true] at units
          omega
      have written : jsonLayout.decimal 0 e = ⟨0, -1⟩ := rfl
      rw [reread_exact shown (by rw [written]; decide) (by rw [written]; decide)]
      exact least

theorem Readable.record {entries : List (String × Value)} (fields : ∀ e ∈ entries, Readable e.2) :
    Readable (.record entries) := by
  refine .mapping fun e member => ?_
  obtain ⟨field, among, rfl⟩ := List.mem_map.mp member
  exact fields field among

theorem Readable.word64 (n : UInt64) : Readable (.natural n.toNat) := .natural n.toNat_lt

end ProofOfWork.Document.Json

namespace ProofOfWork
open Document Document.Json

theorem EngineConfig.readable (c : EngineConfig) : Readable c.toDocument := by
  refine .record ?_
  simp only [List.forall_mem_cons]
  exact ⟨.word64 _, .word64 _, .text _, nofun⟩

theorem SessionConfig.readable {c : SessionConfig} (finite : c.tolerance.isFinite = true) :
    Readable c.toDocument := by
  refine .record ?_
  simp only [List.forall_mem_cons]
  exact ⟨.word64 _, .boolean _, .text _, .real finite, nofun⟩

theorem LoggingConfig.readable (c : LoggingConfig) : Readable c.toDocument := by
  refine .record ?_
  simp only [List.forall_mem_cons]
  exact ⟨.text _, .text _, nofun⟩

namespace Config

theorem readable {c : Config} (finite : c.session.tolerance.isFinite = true) :
    Readable c.toDocument := by
  refine .record ?_
  simp only [List.forall_mem_cons]
  exact ⟨.text _, .text _, .word64 _, c.engine.readable, SessionConfig.readable finite,
    c.logging.readable, nofun⟩

end Config
end ProofOfWork
