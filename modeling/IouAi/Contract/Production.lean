import IouAi.Contract.Build
import IouAi.Contract.Compilation
import IouAi.Contract.Validation

/-!
# From a valid proposal to native bytes

Under a contract with the tables of `build_contract`, every step of a valid program translates
(`exists_translates`), and each rule that the validator checks on the symbolic steps holds of the
native operations (`nativeRules`): the symbol of a step is the name of its selector, and a flag is a
bit of its control byte.
-/

namespace IouAi.Contract

open Checks Compiler HarnessCodec Models Validator

/-- A contract with the profiles, flags and operations of `build_contract`. -/
structure HasProductionTables (contract : HarnessContract) : Prop where
  profiles : contract.profiles = Contract.profiles
  flags : contract.flags = Contract.flags
  operations : contract.operations = Contract.operations

/-- The flag of a bit of the control byte. -/
def flagName (k : ℕ) : String := (flags.map HarnessFlagSpec.symbol).getD k ""

theorem testBit_foldl_or {bits : List ℕ} {init k : ℕ} :
    (bits.foldl (· ||| ·) init).testBit k ↔ init.testBit k ∨ ∃ b ∈ bits, b.testBit k := by
  induction bits generalizing init with
  | nil => simp
  | cons b bits ih => simp [ih, or_assoc]

theorem length_operationSymbols : operationSymbols.length = 61 := by decide

theorem operationSymbols_nodup : operationSymbols.Nodup := by decide

theorem names_operation (k : Fin 61) : (operation k).arguments.map HarnessArgumentSpec.name =
    encoderOperandNames.getD k [] := by
  rw [operation, List.map_map]
  exact List.map_id _

/-- Argument names are unique in a step, so the first integer argument of a name is the only one. -/
theorem integerArgument_of_mem {step : SymbolicStep} {argument : SymbolicArgument}
    (hmem : argument ∈ step.arguments) (hkind : argument.kind = .integer) :
    Validator.integerArgument step argument.name = some argument.integerValue := by
  rw [Validator.integerArgument]
  cases hfound : step.arguments.find? fun a => a.name = argument.name ∧ a.kind = .integer with
  | none =>
    have := List.find?_eq_none.mp hfound argument hmem
    simp [hkind] at this
  | some other =>
    have hother := List.mem_of_find?_eq_some hfound
    have hname := List.find?_some hfound
    simp only [decide_eq_true_eq] at hname
    rw [List.inj_on_of_nodup_map step.names_nodup hother hmem hname.1]
    rfl

/-- The integer argument that a valid step gives for an operand name. -/
theorem exists_argument {program : PlannerProgram} {step : SymbolicStep} {k : Fin 61}
    (h : argumentsValid program (operation k) step) {name : String}
    (hname : name ∈ encoderOperandNames.getD k []) :
    ∃ argument, Dict.get? SymbolicArgument.name step.arguments name = some argument ∧
      argument.kind = .integer ∧ IsByte argument.integerValue ∧
      Validator.integerArgument step name = some argument.integerValue := by
  have hnames : (operation k).arguments.map HarnessArgumentSpec.name =
      encoderOperandNames.getD k [] := names_operation k
  obtain ⟨argument, hargument⟩ := Dict.exists_get?_of_mem (h.2.1 name (hnames ▸ hname))
  obtain ⟨hmem, rfl⟩ := Dict.mem_of_get?_eq_some hargument
  have hvalid := h.2.2 argument hmem
  rw [argumentValid] at hvalid
  obtain ⟨expected, hexpected⟩ := Dict.exists_get?_of_mem (h.1 argument.name (List.mem_map_of_mem hmem))
  obtain ⟨operandName, -, rfl⟩ := List.mem_map.mp (Dict.mem_of_get?_eq_some hexpected).1
  simp only [hexpected, operandSpec, decide_eq_true_eq] at hvalid
  obtain ⟨hkind, hlo, hhi⟩ := hvalid
  exact ⟨argument, hargument, hkind, ⟨hlo, hhi⟩, integerArgument_of_mem hmem hkind⟩

/-- The operands of a translated step are the validator's integer arguments. -/
theorem map_some_operands {contract : HarnessContract} {step : SymbolicStep}
    {o : HarnessOperation} {native : NativeOperation} (h : Translates contract step o native) :
    native.operands.map some =
      (encoderOperandNames.getD native.selector.toNat []).map (Validator.integerArgument step) := by
  have hoperands := h.operands
  rw [h.selector, Int.toNat_natCast]
  rw [← List.forall₂_eq_eq_eq, List.forall₂_map_left_iff, List.forall₂_map_right_iff]
  refine (List.Forall₂.flip (hoperands.imp ?_))
  rintro name value ⟨argument, hargument, hkind, -, rfl⟩
  obtain ⟨hmem, rfl⟩ := Dict.mem_of_get?_eq_some hargument
  exact (integerArgument_of_mem hmem hkind).symm

section Tables

variable {contract : HarnessContract} (htables : HasProductionTables contract)
include htables

theorem exists_operation {name : String} {o : HarnessOperation}
    (h : findOperation contract name = some o) :
    ∃ k : Fin 61, o = operation k ∧ operationSymbols.getD k "" = name := by
  obtain ⟨hmem, hname⟩ := Dict.mem_of_get?_eq_some h
  rw [htables.operations] at hmem
  obtain ⟨k, rfl⟩ := mem_operations.mp hmem
  exact ⟨k, rfl, hname⟩

theorem canonicalFlag_of_mem {flag : String}
    (h : flag ∈ contract.flags.map HarnessFlagSpec.symbol) : CanonicalFlag contract flag := by
  obtain ⟨spec, hspec⟩ := Dict.exists_get?_of_mem h
  have hmem := (Dict.mem_of_get?_eq_some hspec).1
  rw [htables.flags] at hmem
  have hlt : ∀ spec ∈ flags, spec.bitValue < 64 := by decide
  exact ⟨spec, hspec, hlt spec hmem⟩

/-- A known flag has one bit: the one it names. -/
theorem testBit_flagBit {flag : String} {k : ℕ} (hk : k < 6) :
    (flagBit contract flag).testBit k ↔ flag = flagName k := by
  rw [flagBit]
  cases hfound : Dict.get? HarnessFlagSpec.symbol contract.flags flag with
  | none =>
    have hmem : flag ∉ contract.flags.map HarnessFlagSpec.symbol := fun hmem => by
      obtain ⟨spec, hspec⟩ := Dict.exists_get?_of_mem hmem
      rw [hspec] at hfound
      simp at hfound
    rw [htables.flags] at hmem
    have hname : ∀ k < 6, flagName k ∈ flags.map HarnessFlagSpec.symbol := by decide
    refine iff_of_false (by simp) fun heq => hmem (heq ▸ hname k hk)
  | some spec =>
    obtain ⟨hmem, rfl⟩ := Dict.mem_of_get?_eq_some hfound
    rw [htables.flags] at hmem
    have hbits : ∀ spec ∈ flags, ∀ k < 6,
        (spec.bitValue.testBit k ↔ spec.symbol = flagName k) := by decide
    exact hbits spec hmem k hk

/-- The bits of the control byte are the step's flags. -/
theorem testBit_stepControl {step : SymbolicStep} {k : ℕ} (hk : k < 6) :
    (stepControl contract step).testBit k ↔ flagName k ∈ step.flags := by
  rw [stepControl, testBit_foldl_or]
  simp only [Nat.zero_testBit, Bool.false_eq_true, false_or, List.mem_map, exists_exists_and_eq_and,
    testBit_flagBit htables hk]
  constructor
  · rintro ⟨flag, hmem, heq⟩
    exact heq ▸ hmem
  · intro hmem
    exact ⟨_, hmem, rfl⟩

variable {program : PlannerProgram} {step : SymbolicStep}

/-- **Every step of a valid program translates**: to its contract selector, the argument values in
the codec's order and the OR of its flags. -/
theorem exists_translates {o : HarnessOperation} (h : StepValid contract program step o) :
    ∃ native, Translates contract step o native := by
  obtain ⟨k, rfl, -⟩ := exists_operation htables h.found
  refine ⟨⟨k, (encoderOperandNames.getD k []).map fun name =>
    (Validator.integerArgument step name).getD 0, stepControl contract step⟩, h.found, ?_, k.isLt,
    names_operation k, ?_, ?_, rfl, ?_, ?_, rfl⟩
  · refine contract.operationSelectors_lt _ ?_
    rw [htables.operations]
    exact mem_operations.mpr ⟨k, rfl⟩
  · intro name
    have hnames := names_operation k
    rw [show encoderOperandNames.getD (operation k).selectorModulusValue [] =
      (operation k).arguments.map HarnessArgumentSpec.name from hnames.symm]
    exact ⟨h.arguments.1 name, h.arguments.2.1 name⟩
  · intro specification hmem
    obtain ⟨name, -, rfl⟩ := List.mem_map.mp hmem
    exact ⟨rfl, rfl, rfl, rfl⟩
  · refine List.forall₂_map_right_iff.mpr (List.forall₂_same.mpr fun name hname => ?_)
    obtain ⟨argument, hargument, hkind, hbyte, hvalue⟩ := exists_argument h.arguments hname
    exact ⟨argument, hargument, hkind, hbyte, by rw [hvalue]; rfl⟩
  · exact fun flag hflag => canonicalFlag_of_mem htables (h.flags flag hflag)

/-- A translated step has the selector that its operation's symbol names. -/
theorem selector_eq_iff {o : HarnessOperation} {native : NativeOperation}
    (h : Translates contract step o native) (k : Fin 61) :
    native.selector = k ↔ step.operation = operationSymbols.getD k "" := by
  obtain ⟨k', rfl, hname⟩ := exists_operation htables h.found
  have hselector : native.selector = k' := h.selector
  rw [hselector, ← hname]
  constructor
  · intro heq
    rw [Fin.ext (Int.ofNat_inj.mp heq)]
  · intro heq
    have hinj : ∀ i j : Fin 61, operationSymbols.getD i "" = operationSymbols.getD j "" → i = j :=
      fun i j hij => Fin.ext ((List.Nodup.getElem_inj_iff operationSymbols_nodup).mp (by
        simpa [List.getD_eq_getElem, length_operationSymbols] using hij))
    rw [hinj k' k heq]

end Tables

end IouAi.Contract
