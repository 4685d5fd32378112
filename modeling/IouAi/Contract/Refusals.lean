import IouAi.Contract.Build
import IouAi.Contract.Compilation

/-!
# How compilation fails

A contract may describe operations that the audited harness does not have: its selectors go up to
255, those of the codec up to 60. The compiler asks the codec for the operands of every operation,
and the codec's error passes through. It is the only error that does (`compileProgram_codec_iff`): what
the compiler hands to the encoder is canonical.
-/

namespace IouAi.Compiler

open Checks HarnessCodec Models

variable {compilerHash : String} {program : PlannerProgram} {contract : HarnessContract}

/-! ## Errors of the codec -/

/-- The computation ends with an error of the codec. -/
def Escapes {α : Type} (result : Except CompileError α) : Prop :=
  ∃ error, result = .error (.codec error)

theorem escapes_bind {α β : Type} {x : Except CompileError α} {f : α → Except CompileError β} :
    Escapes (x >>= f) ↔ Escapes x ∨ ∃ a, x = .ok a ∧ Escapes (f a) := by
  simp only [Escapes, bind_eq_error]
  constructor
  · rintro ⟨error, hx | ⟨a, ha, hf⟩⟩
    · exact .inl ⟨error, hx⟩
    · exact .inr ⟨a, ha, error, hf⟩
  · rintro (⟨error, hx⟩ | ⟨a, ha, error, hf⟩)
    · exact ⟨error, .inl hx⟩
    · exact ⟨error, .inr ⟨a, ha, hf⟩⟩

theorem not_escapes_pure {α : Type} {a : α} : ¬ Escapes (pure a : Except CompileError α) :=
  fun ⟨_, h⟩ => pure_ne_error h

theorem not_escapes_blocked {α : Type} {message : String} :
    ¬ Escapes (.error (.blocked message) : Except CompileError α) :=
  fun ⟨_, h⟩ => nomatch h

/-- A refusal is the compiler's own. -/
theorem escapes_raiseIf_bind {β : Type} {c : Prop} [Decidable c] {message : String}
    {f : Unit → Except CompileError β} :
    Escapes (raiseIf c (.blocked message) >>= f) ↔ ¬ c ∧ Escapes (f ()) := by
  by_cases hc : c
  · rw [raiseIf, if_pos hc]
    exact iff_of_false not_escapes_blocked fun h => h.1 hc
  · rw [raiseIf_bind_of_not hc]
    exact (and_iff_right hc).symm

theorem escapes_liftCodec {α : Type} {x : Except HarnessCodecError α} :
    Escapes (liftCodec x) ↔ ∃ error, x = .error error := by
  cases x with
  | ok a => exact iff_of_false (fun ⟨_, h⟩ => nomatch h) fun ⟨_, h⟩ => nomatch h
  | error error => exact iff_of_true ⟨error, rfl⟩ ⟨error, rfl⟩

/-- A loop escapes at an element behind others that succeed. -/
theorem escapes_mapM {α β : Type} {f : α → Except CompileError β} {xs : List α} :
    Escapes (xs.mapM f) ↔ ∃ before x after, xs = before ++ x :: after ∧
      (∀ y ∈ before, ∃ b, f y = .ok b) ∧ Escapes (f x) := by
  simp only [Escapes, mapM_eq_error]
  constructor
  · rintro ⟨error, before, x, after, heq, hbefore, hx⟩
    exact ⟨before, x, after, heq, hbefore, error, hx⟩
  · rintro ⟨before, x, after, heq, hbefore, error, hx⟩
    exact ⟨error, before, x, after, heq, hbefore, hx⟩

/-! ## Where compilation escapes -/

/-- The operation of the step is one that the contract has and the harness does not. -/
def IsForeign (contract : HarnessContract) (step : SymbolicStep) : Prop :=
  ∃ operation, Dict.get? HarnessOperation.symbol contract.operations step.operation = some operation ∧
    operationCount ≤ operation.selectorModulusValue

/-- The compiler gets to a foreign operation: the contract is enabled, the ring profile is canonical,
and the steps before it translate. -/
def ReachesForeign (compilerHash : String) (program : PlannerProgram) (contract : HarnessContract) :
    Prop :=
  (status compilerHash (some contract)).enabled ∧
    (∃ profile, Dict.get? HarnessProfile.profileId contract.profiles program.ringProfileId
        = some profile ∧ profile.selectorValue < 8) ∧
    ∃ before step after, program.steps = before ++ step :: after ∧
      (∀ earlier ∈ before, ∃ native operation, Translates contract earlier operation native) ∧
      IsForeign contract step

theorem not_escapes_integerArgument {value : Option SymbolicArgument} {label : String} :
    ¬ Escapes (integerArgument value label) := by
  cases value with
  | none => exact not_escapes_blocked
  | some argument =>
    rw [integerArgument, escapes_raiseIf_bind, escapes_raiseIf_bind]
    exact fun h => not_escapes_pure h.2.2

theorem not_escapes_addFlag {control : ℕ} {flag : String} :
    ¬ Escapes (addFlag contract control flag) := by
  rw [addFlag]
  cases Dict.get? HarnessFlagSpec.symbol contract.flags flag with
  | none => exact not_escapes_blocked
  | some spec =>
    rw [escapes_raiseIf_bind]
    exact fun h => not_escapes_pure h.2

theorem not_escapes_foldlM_addFlag {flags : List String} {control : ℕ} :
    ¬ Escapes (flags.foldlM (addFlag contract) control) := by
  induction flags generalizing control with
  | nil => exact not_escapes_pure
  | cons flag flags ih =>
    rw [List.foldlM_cons, escapes_bind]
    rintro (h | ⟨_, -, h⟩)
    · exact not_escapes_addFlag h
    · exact ih h

theorem not_escapes_forM {α : Type} {f : α → Except CompileError Unit} {xs : List α}
    (h : ∀ x ∈ xs, ¬ Escapes (f x)) : ¬ Escapes (xs.forM f) := by
  induction xs with
  | nil => exact not_escapes_pure
  | cons x xs ih =>
    obtain ⟨hx, hxs⟩ := List.forall_mem_cons.mp h
    change ¬ Escapes (f x >>= fun _ => xs.forM f)
    rw [escapes_bind]
    rintro (hescapes | ⟨_, -, hescapes⟩)
    · exact hx hescapes
    · exact ih hxs hescapes

/-- The codec has no operands for a selector exactly when it is not one of its own. -/
theorem operandNames_eq_error {selector : ℕ} :
    (∃ error, operandNames selector = .error error) ↔ operationCount ≤ selector := by
  rw [← not_iff_not]
  constructor
  · intro h
    cases hnames : operandNames selector with
    | ok names => exact not_le.mpr (by exact_mod_cast (operandNames_eq_ok.mp hnames).2.1)
    | error error => exact absurd ⟨error, hnames⟩ h
  · rintro h ⟨error, herror⟩
    have hok := operandNames_eq_ok.mpr ⟨Int.natCast_nonneg selector,
      by exact_mod_cast not_le.mp h, rfl⟩
    rw [hok] at herror
    cases herror

/-- A step escapes at a foreign operation. -/
theorem escapes_compileStep {step : SymbolicStep} :
    Escapes (compileStep program contract step) ↔ IsForeign contract step := by
  rw [compileStep, IsForeign]
  cases hfound : Dict.get? HarnessOperation.symbol contract.operations step.operation with
  | none =>
    refine iff_of_false not_escapes_blocked ?_
    rintro ⟨_, h, _⟩
    cases h
  | some operation =>
    have hmodulus : ¬ contract.operationSelectorModulus ≤ operation.selectorModulusValue :=
      not_le.mpr (contract.operationSelectors_lt operation (Dict.mem_of_get?_eq_some hfound).1)
    dsimp only
    rw [escapes_raiseIf_bind, escapes_bind, escapes_liftCodec, operandNames_eq_error]
    constructor
    · rintro ⟨-, hforeign | ⟨names, -, hrest⟩⟩
      · exact ⟨operation, rfl, hforeign⟩
      exfalso
      rw [escapes_raiseIf_bind, escapes_raiseIf_bind, escapes_bind] at hrest
      rcases hrest.2.2 with hspecs | ⟨_, -, hrest⟩
      · refine not_escapes_forM (fun specification _ => ?_) hspecs
        rintro ⟨error, herror⟩
        cases (raiseIf_eq_error.mp herror).2
      rw [escapes_bind, escapes_mapM] at hrest
      rcases hrest with ⟨_, name, _, -, -, hname⟩ | ⟨_, -, hrest⟩
      · exact not_escapes_integerArgument hname
      rw [escapes_bind] at hrest
      rcases hrest with hcontrol | ⟨_, -, hpure⟩
      · exact not_escapes_foldlM_addFlag hcontrol
      · exact not_escapes_pure hpure
    · rintro ⟨_, hsame, hforeign⟩
      cases hsame
      exact ⟨hmodulus, .inl hforeign⟩

theorem escapes_compileNative : Escapes (compileNative program contract) ↔
    (∃ profile, Dict.get? HarnessProfile.profileId contract.profiles program.ringProfileId
        = some profile ∧ profile.selectorValue < 8) ∧
      ∃ before step after, program.steps = before ++ step :: after ∧
        (∀ earlier ∈ before, ∃ native operation, Translates contract earlier operation native) ∧
        IsForeign contract step := by
  rw [compileNative]
  cases Dict.get? HarnessProfile.profileId contract.profiles program.ringProfileId with
  | none =>
    refine iff_of_false not_escapes_blocked ?_
    rintro ⟨⟨_, h, _⟩, _⟩
    cases h
  | some profile =>
    rw [escapes_raiseIf_bind, escapes_bind, escapes_mapM]
    simp only [escapes_compileStep, compileStep_eq_ok, not_escapes_pure, and_false, exists_false,
      or_false, not_le, Option.some.injEq, exists_eq_left']

/-- **A program escapes exactly at a foreign operation**: what the compiler encodes and decodes is
canonical. -/
theorem compileProgram_codec_iff {sha256 : Bytes → String} :
    Escapes (compileProgram compilerHash sha256 program contract)
      ↔ ReachesForeign compilerHash program contract := by
  rw [compileProgram, ReachesForeign]
  simp only [escapes_raiseIf_bind, Bool.not_eq_false]
  refine and_congr_right fun henabled => ?_
  rw [escapes_bind, ← escapes_compileNative, or_iff_left]
  rintro ⟨native, hnative, hescapes⟩
  have hharness := (status_enabled_iff.mp henabled).2.2.2.2.2.1
  have hcanonical := compileNative_isCanonical hnative
  have hencode : encodeProgram native contract.targetHashes.harnessHash = .ok (programBytes native) :=
    encodeProgram_eq_ok.mpr ⟨hharness, hcanonical, rfl⟩
  have hdecode : decodeProgram (programBytes native) contract.targetHashes.harnessHash = .ok native :=
    decodeProgram_eq_ok.mpr ⟨hharness, hcanonical, rfl⟩
  rw [hencode] at hescapes
  change Escapes (liftCodec (decodeProgram (programBytes native) _) >>= _) at hescapes
  rw [hdecode] at hescapes
  change Escapes (raiseIf _ _ >>= _) at hescapes
  rw [escapes_raiseIf_bind] at hescapes
  have hrest := hescapes.2
  rw [hencode] at hrest
  change Escapes (raiseIf _ _ >>= fun _ => raiseIf _ _ >>= _) at hrest
  rw [escapes_raiseIf_bind, escapes_raiseIf_bind] at hrest
  exact not_escapes_pure hrest.2.2

/-- **The compiler returns a program or refuses it, except where it gets to a foreign operation.** -/
theorem compileProgram_returns_or_blocks_iff (compilerHash : String) (sha256 : Bytes → String)
    (program : PlannerProgram) (contract : HarnessContract) :
    (∃ compiled, compileProgram compilerHash sha256 program contract = .ok compiled) ∨
        (∃ message, compileProgram compilerHash sha256 program contract = .error (.blocked message))
      ↔ ¬ ReachesForeign compilerHash program contract := by
  rw [← compileProgram_codec_iff]
  cases compileProgram compilerHash sha256 program contract with
  | ok compiled => exact iff_of_true (.inl ⟨compiled, rfl⟩) fun ⟨_, h⟩ => nomatch h
  | error error =>
    cases error with
    | blocked message => exact iff_of_true (.inr ⟨message, rfl⟩) fun ⟨_, h⟩ => nomatch h
    | codec error =>
      refine iff_of_false ?_ (not_not.mpr ⟨error, rfl⟩)
      rintro (⟨_, h⟩ | ⟨_, h⟩) <;> cases h

/-! ### A contract with one foreign operation -/

/-- An operation behind those of the harness. -/
def foreignOperation : HarnessOperation :=
  .of "foreign" 61 [] [] ["plain"] [.stableCoverage] ["success"]

/-- The production contract with that operation only. -/
def foreignContract : HarnessContract :=
  (Contract.buildContract
    ⟨auditedHarnessHash, "sha256:compiler", "sha256:table", "sha256:fleet"⟩).withOperations 62
    [foreignOperation]

def foreignProgram : PlannerProgram :=
  .of "foreign_program" .stableCoverage "plain" []
    [.of "first" 0 "foreign" "plain" [] [] .none ["success"]] [] 1

/-- The enabled contract makes the codec's error escape. -/
theorem foreign_operation_escapes :
    (status "sha256:compiler" (some foreignContract)).enabled ∧
      compileProgram "sha256:compiler" (fun _ => "") foreignProgram foreignContract
        = .error (.codec ⟨"operation selector is not canonical"⟩) := by
  decide +kernel

end IouAi.Compiler
