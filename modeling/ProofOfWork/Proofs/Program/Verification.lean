import ProofOfWork.Proofs.CommandLine.Options
import ProofOfWork.Proofs.Engine.Verification
import ProofOfWork.Proofs.Program.Lines
import ProofOfWork.Proofs.Program.Run
import ProofOfWork.Proofs.Word256
set_option autoImplicit false

namespace ProofOfWork

theorem Nonce.readWord64_text (n : Nonce) : Text.readWord64 n.text.toList = .ok n.value := by
  rw [n.toList_text, Text.readWord64_decimal]

theorem Verdict.code_eq_zero (v : Verdict) :
    (if v.isValid then (0 : UInt32) else 1) = 0 ↔ v = .valid := by
  cases v <;> decide

namespace Program
variable {cores : Nat} {setting : String → Option (List Char)}
  {contents : List Char → Option ByteArray} {script : UInt64 → Circumstances} {elapsed : Duration}
  {line : CommandLine} {config : Config}

/-- A claim is accepted exactly if it names the right digest and the target accepts that. -/
theorem follow_verify_code {data digest : List Char} {n : UInt64} {bytes : List UInt8} {t : Target}
    (valid : config.check = .ok ()) (resolved : config.target.resolve = .ok t)
    (unprinted : line.printConfig = false)
    (command : line.command = some (.verify data n digest)) (read : Payload.read data = .ok bytes) :
    (Id.run (follow (.scripted cores setting contents script elapsed) line config)).code = 0 ↔
      ∃ d, Digest.ofHex digest = .ok d ∧ d = (Hasher.of config.algorithm).digest bytes ⟨n⟩ ∧
        d.value ≤ t.value := by
  have made := Config.makeEngine_of_check valid resolved cores
  rw [follow_verify unprinted command made, read]
  cases claimed : Digest.ofHex digest with
  | error fault =>
      refine iff_of_false ?_ ?_
      · exact nofun
      · rintro ⟨d, none, -⟩
        cases none
  | ok d =>
      have verdict : (config.engineOn cores t).verdict bytes ⟨n⟩ d = .valid ↔
          (Hasher.of config.algorithm).digest bytes ⟨n⟩ = d ∧
            t.accepts ((Hasher.of config.algorithm).digest bytes ⟨n⟩) = true :=
        Verdict.of_eq_valid_iff _ _ _ _ _
      dsimp only
      rw [Verdict.code_eq_zero, verdict]
      constructor
      · rintro ⟨rfl, accepted⟩
        exact ⟨_, rfl, rfl, (t.accepts_iff _).mp accepted⟩
      · rintro ⟨d, ⟨⟩, rfl, below⟩
        exact ⟨rfl, (t.accepts_iff _).mpr below⟩

theorem found_of_printed {arguments : List (List Char)} {data nonce digest : List Char}
    {limit : Option UInt64} {start : UInt64}
    (read : CommandLine.read setting arguments = .ok line)
    (mined : line.command = some (.mine data limit start))
    (printed : foundLine nonce digest ∈
      (Id.run (run (.scripted cores setting contents script elapsed) arguments)).lines) :
    line.printConfig = false ∧ ∃ config bytes t n,
      Id.run (Config.load contents line) = .ok config ∧ Payload.read data = .ok bytes ∧
      config.target.resolve = .ok t ∧
      t.accepts ((Hasher.of config.algorithm).digest bytes n) = true ∧
      nonce = n.text.toList ∧ digest = ((Hasher.of config.algorithm).digest bytes n).hex := by
  cases loaded : Id.run (Config.load contents line) with
  | error fault =>
      rw [run_unloaded read loaded] at printed
      cases printed
  | ok config =>
      rw [run_loaded read loaded] at printed
      cases unprinted : line.printConfig with
      | true =>
          rw [follow_printed unprinted] at printed
          rcases List.mem_append.mp printed with listed | last
          · exact absurd listed (foundLine_not_mem_config nonce digest config)
          · have begins := initial_foundLine nonce digest
            rw [List.mem_singleton.mp last] at begins
            cases begins
      | false =>
          obtain ⟨base, -, -, valid⟩ := Config.load_eq_ok.mp loaded
          obtain ⟨t, resolved, -⟩ := Config.resolve_of_check valid
          have made := Config.makeEngine_of_check valid resolved cores
          rw [follow_mine unprinted mined made] at printed
          cases payload : Payload.read data with
          | error fault =>
              rw [payload] at printed
              cases printed
          | ok bytes =>
              simp only [payload] at printed
              split at printed
              · cases printed
              · rename_i o answer
                obtain ⟨n, d, found, number, digits⟩ := lines_found printed
                obtain ⟨accepted, same⟩ := Engine.accepts_of_found answer found
                subst same
                exact ⟨rfl, config, bytes, t, n, rfl, rfl, resolved, accepted, number, digits⟩

/-- The command line with a claim on the digest of a nonce in place of its command. -/
def claimOn (line : CommandLine) (data : List Char) (n : Nonce) (d : Digest) : CommandLine :=
  { line with command := some (.verify data n.value d.hex) }

/-- A claim on what was found is accepted under the settings with which it was found. -/
theorem run_claim {arguments : List (List Char)} {data : List Char} {bytes : List UInt8}
    {t : Target} {n : Nonce} {d : Digest} {again : Config}
    (loaded : Id.run (Config.load contents line) = .ok config)
    (resolved : config.target.resolve = .ok t) (accepted : t.accepts d = true)
    (hashed : d = (Hasher.of config.algorithm).digest bytes n)
    (payload : Payload.read data = .ok bytes) (unprinted : line.printConfig = false)
    (read : CommandLine.read setting arguments = .ok (claimOn line data n d))
    (reloaded : Id.run (Config.load contents (claimOn line data n d)) = .ok again) :
    Id.run (run (.scripted cores setting contents script elapsed) arguments) =
      { lines := ["valid"] } := by
  obtain ⟨base, based, rfl, -⟩ := Config.load_eq_ok.mp loaded
  obtain ⟨other, same, rfl, valid⟩ := Config.load_eq_ok.mp reloaded
  -- The two command lines name one file, so the same settings lie under both.
  obtain rfl := Except.ok.inj (based.symm.trans same)
  obtain ⟨algorithm, target⟩ := base.override_hashing line
  obtain ⟨algorithm_again, target_again⟩ := base.override_hashing (claimOn line data n d)
  have hasher : (base.override (claimOn line data n d)).algorithm =
      (base.override line).algorithm := algorithm_again.trans algorithm.symm
  have resolved_again : (base.override (claimOn line data n d)).target.resolve = .ok t := by
    rw [target_again.trans target.symm]
    exact resolved
  have made := Config.makeEngine_of_check valid resolved_again cores
  have verdict :
      ((base.override (claimOn line data n d)).engineOn cores t).verdict bytes n d = .valid := by
    refine (Verdict.of_eq_valid_iff _ _ _ _ _).mpr ?_
    rw [Config.engineOn, hasher, ← hashed]
    exact ⟨rfl, accepted⟩
  have silent : (claimOn line data n d).printConfig = false := unprinted
  rw [run_loaded read reloaded, follow_verify silent rfl made, payload, Digest.ofHex_hex]
  dsimp only
  rw [verdict]
  rfl

/-- What the program mines it verifies: if it tells of a solution, the nonce that it names is a
number, the command that verifies can be given the claim under the same settings, and however it is
given, on whatever machine with the same files and environment, the claim is valid. And whatever is
claimed, the program succeeds exactly if the digest is the one of the payload with the nonce and is
not above the target. -/
theorem run_verifies_mined (setting : String → Option (List Char))
    (contents : List Char → Option ByteArray) :
    (∀ cores script elapsed arguments line data limit start nonce digest,
      CommandLine.read setting arguments = .ok line →
      line.command = some (.mine data limit start) →
      foundLine nonce digest ∈
        (Id.run (run (.scripted cores setting contents script elapsed) arguments)).lines →
      ∃ n, Text.readWord64 nonce = .ok n ∧
        let claim : CommandLine := { line with command := some (.verify data n digest) }
        (∃ before options, (∃ name inner, arguments = before ++ name :: inner) ∧
          CommandLine.read setting (before ++ "verify".toList ::
            (options ++ CommandLine.claimArguments data nonce digest)) = .ok claim) ∧
        ∀ others again other later, CommandLine.read setting again = .ok claim →
          (∃ config, Id.run (Config.load contents claim) = .ok config) →
          Id.run (run (.scripted others setting contents other later) again) =
            { lines := ["valid"] }) ∧
    (∀ cores script elapsed arguments line config data n digest bytes,
      CommandLine.read setting arguments = .ok line →
      Id.run (Config.load contents line) = .ok config → line.printConfig = false →
      line.command = some (.verify data n digest) → Payload.read data = .ok bytes →
      ∃ t, config.target.resolve = .ok t ∧
        ((Id.run (run (.scripted cores setting contents script elapsed) arguments)).code = 0 ↔
          ∃ d, Digest.ofHex digest = .ok d ∧
            d = (Hasher.of config.algorithm).digest bytes ⟨n⟩ ∧ d.value ≤ t.value)) := by
  constructor
  · intro cores script elapsed arguments line data limit start nonce digest read mined printed
    obtain ⟨unprinted, config, bytes, t, n, loaded, payload, resolved, accepted, rfl, rfl⟩ :=
      found_of_printed read mined printed
    have number := n.readWord64_text
    refine ⟨n.value, number, CommandLine.read_claimed read mined data _ number, ?_⟩
    rintro others again other later reread ⟨reloaded, load⟩
    exact run_claim loaded resolved accepted rfl payload unprinted reread load
  · intro cores script elapsed arguments line config data n digest bytes read loaded unprinted
      command payload
    obtain ⟨base, -, -, valid⟩ := Config.load_eq_ok.mp loaded
    obtain ⟨t, resolved, -⟩ := Config.resolve_of_check valid
    refine ⟨t, resolved, ?_⟩
    rw [run_loaded read loaded]
    exact follow_verify_code valid resolved unprinted command payload

/-- A byte is mined on two workers, of which the second goes first, with options on both sides of
the command; the claim is given with all of them in front and is accepted as the right digest. -/
theorem run_verifies_mined_of_byte :
    let machine := World.scripted 2 (fun _ => none) (fun _ => none)
      (fun _ => { schedule := [.work 1 0] }) .zero
    let mined := ["-t", "bits:1", "mine", "--data", "hex:02", "--algorithm=blake2s", "-n", "4"]
    let digest := "47d73626a787fc4a9478a2427386b44b74d546f120da68f5fd027bdfd31434f4".toList
    let claimed := ["-t", "bits:1", "-ablake2s", "verify", "-d", "hex:02", "--nonce=1", "--digest"]
    foundLine ['1'] digest ∈ (Id.run (run machine (mined.map String.toList))).lines ∧
      Id.run (run machine (claimed.map String.toList ++ [digest])) = { lines := ["valid"] } ∧
      ∃ t d, Target.ofLeadingZeros 1 = .ok t ∧ Digest.ofHex digest = .ok d ∧
        d = (Hasher.of .blake2s).digest [2] ⟨1⟩ ∧ d.value ≤ t.value := by
  intro machine mined digest claimed
  let line : CommandLine := {
    algorithm := some .blake2s
    target := some (.leadingZeros 1)
    command := some (.mine "hex:02".toList (some 4) 0) }
  let claim : CommandLine := { line with command := some (.verify "hex:02".toList 1 digest) }
  have read : CommandLine.read (fun _ => none) (mined.map String.toList) = .ok line := rfl
  have reread : CommandLine.read (fun _ => none) (claimed.map String.toList ++ [digest]) =
      .ok claim := rfl
  have printed :
      foundLine ['1'] digest ∈ (Id.run (run machine (mined.map String.toList))).lines := by
    decide +kernel
  have loads : ∃ config, Id.run (Config.load (fun _ => none) claim) = .ok config := by
    have valid : (Id.run (Config.load (fun _ => none) claim)).toOption.isSome = true := by
      decide +kernel
    cases loaded : Id.run (Config.load (fun _ => none) claim) with
    | error fault =>
        rw [loaded] at valid
        cases valid
    | ok config => exact ⟨config, rfl⟩
  obtain ⟨found, verified⟩ := run_verifies_mined (fun _ => none) (fun _ => none)
  obtain ⟨n, number, -, accepted⟩ := found 2 (fun _ => { schedule := [.work 1 0] }) .zero
    (mined.map String.toList) line "hex:02".toList (some 4) 0 ['1'] digest read rfl printed
  have one : Text.readWord64 ['1'] = .ok 1 := rfl
  obtain rfl := Except.ok.inj (one.symm.trans number)
  have valid := accepted 2 (claimed.map String.toList ++ [digest])
    (fun _ => { schedule := [.work 1 0] }) .zero reread loads
  obtain ⟨config, loaded⟩ := loads
  obtain ⟨t, resolved, success⟩ := verified 2 (fun _ => { schedule := [.work 1 0] }) .zero
    (claimed.map String.toList ++ [digest]) claim config "hex:02".toList 1 digest [2] reread
    loaded rfl rfl rfl
  obtain ⟨_, -, rfl, -⟩ := Config.load_eq_ok.mp loaded
  obtain ⟨d, right⟩ := success.mp (congrArg Ending.code valid)
  exact ⟨printed, valid, t, d, resolved, right⟩

end Program
end ProofOfWork
