import IouAi.Contract.Compiler
import IouAi.Harness.RoundTrip

/-!
# What the compiler computes

`compileStep_eq_ok` and `compileProgram_eq_ok` say, for an arbitrary contract, exactly when a step
and a program compile and to what. The codec's self-test passes (`verifyAuditedCodec_eq_ok`), and
what the compiler encodes is always canonical, so that its own checks of the decoder never fail
(`compileProgram_eq_ok`).
-/

namespace IouAi.Compiler

open Checks HarnessCodec Models

variable {compilerHash : String} {program : PlannerProgram} {contract : HarnessContract}

/-! ## The codec's self-test -/

theorem goldenProgram_isCanonical {selector : ℕ} (h : selector < operationCount) :
    (goldenProgram selector).IsCanonical := by
  have hring : selector % ringCount < ringCount := Nat.mod_lt _ (by decide)
  refine ⟨Int.natCast_nonneg _, Int.ofNat_lt.mpr hring, by simp [goldenProgram, maxOperations], ?_⟩
  intro operation hmem
  obtain rfl := List.mem_singleton.mp hmem
  refine ⟨by simp, by simpa using h, ?_, ?_, ?_⟩
  · rw [List.length_map, List.length_range, length_getD_encoderOperandNames, Int.toNat_natCast]
  · intro value hvalue
    obtain ⟨index, -, rfl⟩ := List.mem_map.mp hvalue
    exact ⟨by omega, by omega⟩
  · exact ⟨by simp only; omega, by simp only; omega⟩

/-- **The audited codec verifies**: every golden program survives the round trip. -/
theorem verifyAuditedCodec_eq_ok : verifyAuditedCodec = .ok () := by
  rw [verifyAuditedCodec, raiseIf_bind_of_not (by decide), raiseIf_bind_of_not (by decide),
    verifyRoundTrip, bind_eq_ok]
  refine ⟨(), raiseIf_eq_ok.mpr (by simp), forM_eq_ok.mpr ?_⟩
  intro golden hmem
  obtain ⟨selector, hselector, rfl⟩ := List.mem_map.mp hmem
  have hcanonical := goldenProgram_isCanonical (List.mem_range.mp hselector)
  rw [bind_eq_ok]
  refine ⟨_, encodeProgram_eq_ok.mpr ⟨rfl, hcanonical, rfl⟩, ?_⟩
  rw [bind_eq_ok]
  exact ⟨_, decodeProgram_eq_ok.mpr ⟨rfl, hcanonical, rfl⟩, raiseIf_eq_ok.mpr (by simp)⟩

/-- When a contract authorizes compilation. -/
theorem status_enabled_iff : (status compilerHash (some contract)).enabled ↔
    contract.environment = .production ∧ contract.verified ∧ ¬ contract.testOnly ∧
      contract.deterministicCompiler ∧ contract.decodeRoundTripVerified ∧
      contract.targetHashes.harnessHash = auditedHarnessHash ∧
      contract.targetHashes.compilerHash = compilerHash := by
  rw [status, verifyAuditedCodec_eq_ok]
  split
  · next h => exact iff_of_false (by simp) h
  · next h => exact iff_of_true rfl (not_not.mp h)

/-! ## One step -/

/-- The bits of a flag, none when the contract does not know it. -/
def flagBit (contract : HarnessContract) (flag : String) : ℕ :=
  ((Dict.get? HarnessFlagSpec.symbol contract.flags flag).map HarnessFlagSpec.bitValue).getD 0

/-- The bitwise OR of the bits of a step's flags. -/
def stepControl (contract : HarnessContract) (step : SymbolicStep) : ℕ :=
  (step.flags.map (flagBit contract)).foldl (· ||| ·) 0

/-- The contract knows the flag, and its bits are among the six of the control byte. -/
def CanonicalFlag (contract : HarnessContract) (flag : String) : Prop :=
  ∃ spec, Dict.get? HarnessFlagSpec.symbol contract.flags flag = some spec ∧ spec.bitValue < 64

theorem addFlag_eq_ok {control control' : ℕ} {flag : String} :
    addFlag contract control flag = .ok control' ↔
      CanonicalFlag contract flag ∧ control' = control ||| flagBit contract flag := by
  rw [addFlag, CanonicalFlag, flagBit]
  cases Dict.get? HarnessFlagSpec.symbol contract.flags flag with
  | none => simp
  | some spec =>
    simp only [raiseIf_bind_eq_ok, pure_eq_ok, not_le, Option.some.injEq, exists_eq_left',
      Option.map_some, Option.getD_some, @eq_comm _ _ control']

theorem foldlM_addFlag_eq_ok {flags : List String} {control control' : ℕ} :
    flags.foldlM (addFlag contract) control = .ok control' ↔
      (∀ flag ∈ flags, CanonicalFlag contract flag) ∧
        control' = (flags.map (flagBit contract)).foldl (· ||| ·) control := by
  induction flags generalizing control with
  | nil =>
    rw [List.foldlM_nil, pure_eq_ok]
    simp [eq_comm]
  | cons flag flags ih =>
    simp only [List.foldlM_cons, bind_eq_ok, addFlag_eq_ok, ih, List.map_cons, List.foldl_cons,
      List.forall_mem_cons]
    constructor
    · rintro ⟨_, ⟨hflag, rfl⟩, hflags, rfl⟩
      exact ⟨⟨hflag, hflags⟩, rfl⟩
    · rintro ⟨⟨hflag, hflags⟩, rfl⟩
      exact ⟨_, ⟨hflag, rfl⟩, hflags, rfl⟩

theorem foldl_or_lt {bits : List ℕ} {init : ℕ} (hinit : init < 2 ^ 6) (h : ∀ b ∈ bits, b < 2 ^ 6) :
    bits.foldl (· ||| ·) init < 2 ^ 6 := by
  induction bits generalizing init with
  | nil => exact hinit
  | cons b bits ih =>
    exact ih (Nat.or_lt_two_pow hinit (h b (by simp))) fun c hc => h c (by simp [hc])

/-- The control value of canonical flags uses the six bits only. -/
theorem stepControl_lt {step : SymbolicStep} (h : ∀ flag ∈ step.flags, CanonicalFlag contract flag) :
    stepControl contract step < 64 := by
  refine foldl_or_lt (by decide) fun b hb => ?_
  obtain ⟨flag, hflag, rfl⟩ := List.mem_map.mp hb
  obtain ⟨spec, hspec, hlt⟩ := h flag hflag
  rw [flagBit, hspec]
  exact hlt

theorem integerArgument_eq_ok {value : Option SymbolicArgument} {label : String} {v : ℤ} :
    integerArgument value label = .ok v ↔
      ∃ argument, value = some argument ∧ argument.kind = .integer ∧
        IsByte argument.integerValue ∧ v = argument.integerValue := by
  cases value with
  | none => simp [integerArgument]
  | some argument =>
    simp only [integerArgument, raiseIf_bind_eq_ok, pure_eq_ok, not_not, Option.some.injEq,
      exists_eq_left', IsByte, @eq_comm _ _ v]

theorem liftCodec_eq_ok {α : Type} {x : Except HarnessCodecError α} {a : α} :
    liftCodec x = .ok a ↔ x = .ok a := by
  cases x <;> simp [liftCodec]

theorem operandNames_eq_ok {selector : ℤ} {names : List String} :
    operandNames selector = .ok names ↔
      0 ≤ selector ∧ selector < operationCount ∧
        names = encoderOperandNames.getD selector.toNat [] := by
  simp only [operandNames, bind_eq_ok, requireIntByte_eq_ok, raiseIf_eq_ok, exists_const,
    pure_eq_ok, not_le]
  constructor
  · rintro ⟨hbyte, hlt, rfl⟩
    exact ⟨hbyte.1, hlt, rfl⟩
  · rintro ⟨h0, hlt, rfl⟩
    have hmax : selector < 61 := hlt
    exact ⟨⟨h0, by omega⟩, hlt, rfl⟩

/-- The translation of a step whose operation the contract describes as the codec does: the selector
of the operation, the values of the integer arguments in the codec's order, and the OR of the
flags. -/
structure Translates (contract : HarnessContract) (step : SymbolicStep)
    (operation : HarnessOperation) (native : NativeOperation) : Prop where
  found : Dict.get? HarnessOperation.symbol contract.operations step.operation = some operation
  selector_lt_modulus : operation.selectorModulusValue < contract.operationSelectorModulus
  selector_lt : operation.selectorModulusValue < operationCount
  names : operation.arguments.map HarnessArgumentSpec.name =
    encoderOperandNames.getD operation.selectorModulusValue []
  provided : ∀ name, name ∈ step.arguments.map SymbolicArgument.name ↔
    name ∈ encoderOperandNames.getD operation.selectorModulusValue []
  specifications : ∀ specification ∈ operation.arguments, specification.kind = .integer ∧
    specification.byteWidth = 1 ∧ specification.minimumValue = 0 ∧ specification.maximumValue = 255
  selector : native.selector = operation.selectorModulusValue
  operands : List.Forall₂ (fun name value => ∃ argument,
      Dict.get? SymbolicArgument.name step.arguments name = some argument ∧
        argument.kind = .integer ∧ IsByte argument.integerValue ∧ value = argument.integerValue)
    (encoderOperandNames.getD operation.selectorModulusValue []) native.operands
  flags : ∀ flag ∈ step.flags, CanonicalFlag contract flag
  sqeControl : native.sqeControl = stepControl contract step

/-- **When a step compiles, and to what.** -/
theorem compileStep_eq_ok {step : SymbolicStep} {native : NativeOperation} :
    compileStep program contract step = .ok native ↔
      ∃ operation, Translates contract step operation native := by
  rw [compileStep]
  cases hfound : Dict.get? HarnessOperation.symbol contract.operations step.operation with
  | none =>
    simp only [reduceCtorEq, false_iff, not_exists]
    intro operation h
    rw [h.found] at hfound
    simp at hfound
  | some operation =>
    simp only [bind_eq_ok, raiseIf_eq_ok, exists_const, liftCodec_eq_ok, operandNames_eq_ok,
      forM_eq_ok, mapM_eq_ok_iff_forall₂, integerArgument_eq_ok, foldlM_addFlag_eq_ok, pure_eq_ok,
      not_le, not_not, Int.toNat_natCast]
    constructor
    · rintro ⟨hmod, _, ⟨-, hlt, rfl⟩, hnames, hprovided, hspecs, operands, hoperands, _,
        ⟨hflags, rfl⟩, rfl⟩
      refine ⟨operation, hfound, hmod, by omega, hnames,
        fun name => ⟨fun h => hprovided.1 name h, fun h => hprovided.2 name h⟩, ?_, rfl, hoperands,
        hflags, rfl⟩
      intro specification hmem
      have := hspecs specification hmem
      tauto
    · rintro ⟨other, h⟩
      obtain rfl : operation = other := Option.some.inj (hfound.symm.trans h.found)
      refine ⟨h.selector_lt_modulus, _, ⟨by omega, by exact_mod_cast h.selector_lt, rfl⟩, h.names,
        ⟨fun name hn => (h.provided name).mp hn, fun name hn => (h.provided name).mpr hn⟩, ?_,
        native.operands, h.operands, _, ⟨h.flags, rfl⟩, ?_⟩
      · intro specification hmem
        have := h.specifications specification hmem
        tauto
      · have hselector := h.selector
        have hcontrol := h.sqeControl
        cases native
        simp_all [stepControl]

/-- What a step compiles to is canonical. -/
theorem Translates.isCanonical {step : SymbolicStep} {operation : HarnessOperation}
    {native : NativeOperation} (h : Translates contract step operation native) :
    native.IsCanonical where
  selector_nonneg := by
    rw [h.selector]
    exact Int.natCast_nonneg _
  selector_lt := by
    rw [h.selector]
    exact Int.ofNat_lt.mpr h.selector_lt
  length_operands := by
    rw [h.selector, Int.toNat_natCast, ← length_getD_encoderOperandNames, h.operands.length_eq]
  operands := by
    intro value hvalue
    obtain ⟨name, -, argument, -, -, hbyte, rfl⟩ := exists_of_mem_right h.operands hvalue
    exact hbyte
  sqeControl := by
    have hlt := stepControl_lt h.flags
    rw [h.sqeControl]
    exact ⟨Int.natCast_nonneg _, by omega⟩

/-! ## Programs -/

theorem compileNative_eq_ok {native : NativeProgram} :
    compileNative program contract = .ok native ↔
      ∃ profile, Dict.get? HarnessProfile.profileId contract.profiles program.ringProfileId =
          some profile ∧ profile.selectorValue < 8 ∧ native.ringSelector = profile.selectorValue ∧
        List.Forall₂ (fun step op => ∃ operation, Translates contract step operation op)
          program.steps native.operations := by
  rw [compileNative]
  cases Dict.get? HarnessProfile.profileId contract.profiles program.ringProfileId with
  | none => simp
  | some profile =>
    simp only [raiseIf_eq_ok, exists_const, not_le, bind_eq_ok, mapM_eq_ok_iff_forall₂,
      compileStep_eq_ok, pure_eq_ok, Option.some.injEq, exists_eq_left']
    refine and_congr_right fun _ => ?_
    constructor
    · rintro ⟨operations, hsteps, rfl⟩
      exact ⟨rfl, hsteps⟩
    · rintro ⟨hring, hsteps⟩
      refine ⟨_, hsteps, ?_⟩
      cases native
      rw [← hring]

theorem compileNative_isCanonical {native : NativeProgram}
    (h : compileNative program contract = .ok native) : native.IsCanonical := by
  obtain ⟨profile, -, hlt, hring, hsteps⟩ := compileNative_eq_ok.mp h
  have hlength := program.steps_le
  refine ⟨?_, ?_, ?_, ?_⟩
  · rw [hring]
    exact Int.natCast_nonneg _
  · rw [hring]
    exact Int.ofNat_lt.mpr hlt
  · rw [← hsteps.length_eq, maxOperations]
    omega
  · intro op hop
    obtain ⟨step, -, operation, htranslates⟩ := exists_of_mem_right hsteps hop
    exact htranslates.isCanonical

/-- What the compiler returns for a native program. -/
def compiledOf (compilerHash : String) (sha256 : Bytes → String) (program : PlannerProgram)
    (native : NativeProgram) : CompiledProgram where
  programId := program.programId
  payload := programBytes native
  payloadHash := "sha256:" ++ sha256 (programBytes native)
  operationCount := native.operations.length
  compilerHash := compilerHash
  harnessHash := auditedHarnessHash

theorem status_compilerHash (c : Option HarnessContract) :
    (status compilerHash c).compilerHash = compilerHash := by
  cases c with
  | none => rfl
  | some contract =>
    rw [status]
    split
    · rfl
    · split <;> rfl

/-- **When a program compiles, and to what**: the contract is enabled, the steps translate, and the
payload is within the contract's byte limit. The decoder and the second encoding never object. -/
theorem compileProgram_eq_ok {sha256 : Bytes → String} {compiled : CompiledProgram} :
    compileProgram compilerHash sha256 program contract = .ok compiled ↔
      (status compilerHash (some contract)).enabled ∧
        ∃ native, compileNative program contract = .ok native ∧
          (programBytes native).length ≤ contract.inputMaxBytes ∧
          compiled = compiledOf compilerHash sha256 program native := by
  simp only [compileProgram, bind_eq_ok, raiseIf_eq_ok, exists_const, liftCodec_eq_ok,
    encodeProgram_eq_ok, decodeProgram_eq_ok, pure_eq_ok, Bool.not_eq_false, not_not, not_lt,
    status_compilerHash]
  refine and_congr_right fun henabled => exists_congr fun native => and_congr_right fun hnative => ?_
  have hharness := (status_enabled_iff.mp henabled).2.2.2.2.2.1
  have hcanonical := compileNative_isCanonical hnative
  constructor
  · rintro ⟨_, ⟨-, -, rfl⟩, decoded, -, rfl, _, -, -, hlen, rfl⟩
    exact ⟨hlen, by rw [hharness]; rfl⟩
  · rintro ⟨hlen, rfl⟩
    exact ⟨_, ⟨hharness, hcanonical, rfl⟩, _, ⟨hharness, hcanonical, rfl⟩, rfl, _,
      ⟨hharness, hcanonical, rfl⟩, rfl, hlen, by rw [hharness]; rfl⟩

end IouAi.Compiler
