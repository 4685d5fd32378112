import IouAi.Contract.Production

/-!
# The rules of a valid program, on its bytes

`NativeRules` states the validator's rules of a production program for the native operations: flags
are bits of the control byte, operations are selectors, references are operand values. They hold of
whatever a valid program compiles to (`nativeRules`), and a valid program compiles when its payload
is within the contract's byte limit (`compileProgram_valid`).
-/

namespace IouAi.Contract

open Checks Compiler HarnessCodec Models Validator

/-- The bit of a flag in the control byte. -/
def HasFlag (op : NativeOperation) (k : ℕ) : Prop := op.sqeControl.toNat.testBit k

/-- The link or the hardlink bit. -/
def HasLinkFlag (op : NativeOperation) : Prop := HasFlag op 2 ∨ HasFlag op 3

/-- There is an operation before position `i` with the property. -/
def Earlier (operations : List NativeOperation) (i : ℕ) (P : NativeOperation → Prop) : Prop :=
  ∃ j < i, ∃ op, operations[j]? = some op ∧ P op

/-- The rules of a production program on its native operations. -/
structure NativeRules (native : NativeProgram) : Prop where
  linkSuccessor (i : ℕ) (op : NativeOperation) : native.operations[i]? = some op →
    HasLinkFlag op → i + 1 < native.operations.length
  drainPredecessor (i : ℕ) (op : NativeOperation) : native.operations[i]? = some op →
    HasFlag op 1 → 0 < i
  linkTimeout (i : ℕ) (op : NativeOperation) : native.operations[i]? = some op →
    op.selector = 37 →
      ∃ j previous, i = j + 1 ∧ native.operations[j]? = some previous ∧ HasLinkFlag previous
  timeoutReference (i : ℕ) (op : NativeOperation) : native.operations[i]? = some op →
    op.selector = 9 ∨ op.selector = 38 →
      op.operands = [8] ∧ Earlier native.operations i fun p => p.selector = 8
  pollRemove (i : ℕ) (op : NativeOperation) : native.operations[i]? = some op →
    op.selector = 7 → op.operands = [6] ∧ Earlier native.operations i fun p => p.selector = 6
  pollUpdate (i : ℕ) (op : NativeOperation) : native.operations[i]? = some op →
    op.selector = 39 → (∃ flags newUserData, op.operands = [flags, newUserData, 6]) ∧
      Earlier native.operations i fun p => p.selector = 6
  cancel (i : ℕ) (op : NativeOperation) : native.operations[i]? = some op →
    op.selector = 35 → ∃ userData, op.operands = [userData] ∧
      Earlier native.operations i fun p => p.selector = userData
  noFixedFile (op : NativeOperation) : op ∈ native.operations → ¬ HasFlag op 0
  bufferProvider (i : ℕ) (op : NativeOperation) : native.operations[i]? = some op →
    HasFlag op 5 → Earlier native.operations i fun p =>
      p.selector = 18 ∧ p.operands = [((op.sqeControl.toNat >>> 4 : ℕ) : ℤ)]
  bufferRemove (i : ℕ) (op : NativeOperation) : native.operations[i]? = some op →
    op.selector = 19 → ∃ group, op.operands = [group] ∧
      Earlier native.operations i fun p => p.selector = 18 ∧ p.operands = [group]
  enableRing : native.ringSelector = 7 →
    ∃ first opcode count, native.operations.head? = some first ∧ first.selector = 60 ∧
      first.operands = [opcode, count] ∧ opcode % 34 = 12

/-! ## The control byte as a sum -/

theorem foldl_or_eq_add_sum {bits : List ℕ} {init : ℕ} (hinit : init < 64)
    (hlt : ∀ b ∈ bits, b < 64) (hdisj : bits.Pairwise fun b c => b &&& c = 0)
    (hstart : ∀ b ∈ bits, init &&& b = 0) : bits.foldl (· ||| ·) init = init + bits.sum := by
  have hadd : ∀ x < 64, ∀ y < 64, x &&& y = 0 → x + y = x ||| y := by decide +kernel
  induction bits generalizing init with
  | nil => rfl
  | cons b bits ih =>
    obtain ⟨hb, hbits⟩ := List.pairwise_cons.mp hdisj
    have hblt := hlt b (by simp)
    have hor : init ||| b < 64 := Nat.or_lt_two_pow (n := 6) hinit hblt
    rw [List.foldl_cons, ih hor (fun c hc => hlt c (by simp [hc])) hbits, List.sum_cons,
      ← hadd init hinit b hblt (hstart b (by simp)), Nat.add_assoc]
    intro c hc
    rw [Nat.and_or_distrib_right, hstart c (by simp [hc]), hb c hc]
    rfl

/-- The operands of the operation with selector `k`, by the names of its table row. -/
theorem operands_of_selector {contract : HarnessContract} {step : SymbolicStep}
    {o : HarnessOperation} {native : NativeOperation}
    (htranslates : Translates contract step o native) (k : Fin 61) (hk : native.selector = k) :
    native.operands.map some =
      (encoderOperandNames.getD k []).map (Validator.integerArgument step) := by
  have h := map_some_operands htranslates
  rwa [hk, Int.toNat_natCast] at h

/-- A list of values whose first one is read off. -/
theorem eq_cons_of_map_some {values : List ℤ} {x : Option ℤ} {xs : List (Option ℤ)}
    (h : values.map some = x :: xs) :
    ∃ v, x = some v ∧ ∃ rest, rest.map some = xs ∧ values = v :: rest := by
  rcases values with _ | ⟨v, rest⟩
  · simp at h
  · simp only [List.map_cons, List.cons.injEq] at h
    exact ⟨v, h.1.symm, rest, h.2, rfl⟩

section Step

variable {contract : HarnessContract} (htables : HasProductionTables contract)
  {program : PlannerProgram} {step : SymbolicStep} {o : HarnessOperation}
include htables

/-- Distinct known flags have disjoint bits, so that their sum is their OR. -/
theorem flagSum_eq_stepControl (hflags : ∀ flag ∈ step.flags, CanonicalFlag contract flag) :
    flagSum contract step = stepControl contract step := by
  have hbits : ∀ s ∈ flags, ∀ t ∈ flags, s.symbol ≠ t.symbol → s.bitValue &&& t.bitValue = 0 := by
    decide
  have hdisj : (step.flags.map (flagBit contract)).Pairwise fun b c => b &&& c = 0 := by
    rw [List.pairwise_map]
    refine step.flags_nodup.imp_of_mem fun {f g} hf hg hne => ?_
    obtain ⟨s, hs, -⟩ := hflags f hf
    obtain ⟨t, ht, -⟩ := hflags g hg
    obtain ⟨hsmem, rfl⟩ := Dict.mem_of_get?_eq_some hs
    obtain ⟨htmem, rfl⟩ := Dict.mem_of_get?_eq_some ht
    rw [htables.flags] at hsmem htmem
    rw [flagBit, flagBit, hs, ht]
    exact hbits s hsmem t htmem hne
  have hlt : ∀ b ∈ step.flags.map (flagBit contract), b < 64 := by
    intro b hb
    obtain ⟨flag, hflag, rfl⟩ := List.mem_map.mp hb
    obtain ⟨spec, hspec, hspeclt⟩ := hflags flag hflag
    rw [flagBit, hspec]
    exact hspeclt
  have hsum := foldl_or_eq_add_sum (by decide : 0 < 64) hlt hdisj (by simp)
  rw [Nat.zero_add] at hsum
  exact hsum.symm

variable {native : NativeOperation} (htranslates : Translates contract step o native)
include htranslates

theorem hasFlag_iff {k : ℕ} (hk : k < 6) : HasFlag native k ↔ flagName k ∈ step.flags := by
  rw [HasFlag, htranslates.sqeControl, Int.toNat_natCast, testBit_stepControl htables hk]

theorem hasLinkFlag_iff (hvalid : StepValid contract program step o) :
    HasLinkFlag native ↔ isLinked step := by
  have hlink := hvalid.linkMode "iosqe_io_link" (by decide)
  have hhard := hvalid.linkMode "iosqe_io_hardlink" (by decide)
  have h2 := hasFlag_iff htables htranslates (show 2 < 6 by decide)
  have h3 := hasFlag_iff htables htranslates (show 3 < 6 by decide)
  rw [HasLinkFlag, h2, h3, show flagName 2 = "iosqe_io_link" from rfl,
    show flagName 3 = "iosqe_io_hardlink" from rfl, hlink, hhard, isLinked]
  cases step.linkMode <;> decide

theorem hasDrainFlag_iff (hvalid : StepValid contract program step o) :
    HasFlag native 1 ↔ step.linkMode = .drain := by
  rw [hasFlag_iff htables htranslates (by decide), show flagName 1 = "iosqe_io_drain" from rfl,
    hvalid.linkMode "iosqe_io_drain" (by decide)]
  cases step.linkMode <;> decide

end Step

section Program

variable {contract : HarnessContract} {program : PlannerProgram} {native : NativeProgram}

/-- The steps of a program translate, one by one, to the operations of a native program. -/
def TranslatesAll (contract : HarnessContract) (program : PlannerProgram)
    (native : NativeProgram) : Prop :=
  List.Forall₂ (fun step op => ∃ o, Translates contract step o op) program.steps native.operations

/-- The step of a native operation, with all that is known of it. -/
theorem exists_step (hvalid : ProgramValid contract program)
    (hsteps : TranslatesAll contract program native) {i : ℕ} {op : NativeOperation}
    (hop : native.operations[i]? = some op) :
    ∃ step o, program.steps[i]? = some step ∧ Translates contract step o op ∧
      StepValid contract program step o ∧ NativeStepValid contract program i step := by
  obtain ⟨step, hstep, o, htranslates⟩ := exists_getElem?_of_forall₂ hsteps hop
  obtain ⟨o', hstepValid⟩ := hvalid.steps step (List.mem_of_getElem? hstep)
  obtain rfl : o = o' := Option.some.inj (htranslates.found.symm.trans hstepValid.found)
  exact ⟨step, o, hstep, htranslates, hstepValid, hvalid.nativeSteps i step hstep⟩

/-- The operation of a step. -/
theorem exists_native (hsteps : TranslatesAll contract program native) {i : ℕ}
    {step : SymbolicStep} (hstep : program.steps[i]? = some step) :
    ∃ op o, native.operations[i]? = some op ∧ Translates contract step o op := by
  obtain ⟨op, hop, o, htranslates⟩ := exists_getElem?_of_forall₂ hsteps.flip hstep
  exact ⟨op, o, hop, htranslates⟩

/-- An earlier step is an earlier operation. -/
theorem earlier_of_mem_take (hsteps : TranslatesAll contract program native) {i : ℕ}
    {step : SymbolicStep} (hstep : step ∈ program.steps.take i) {P : NativeOperation → Prop}
    (hP : ∀ op o, Translates contract step o op → P op) : Earlier native.operations i P := by
  obtain ⟨j, hj⟩ := List.mem_iff_getElem?.mp hstep
  rw [List.getElem?_take] at hj
  split at hj
  · next hlt =>
    obtain ⟨op, o, hop, htranslates⟩ := exists_native hsteps hj
    exact ⟨j, hlt, op, hop, hP op o htranslates⟩
  · simp at hj

/-- The length of the payload: a ring byte, and for every step its selector, its arguments and its
control byte. -/
def payloadSize (program : PlannerProgram) : ℕ :=
  1 + (program.steps.map fun step => step.arguments.length + 2).sum

theorem length_arguments_eq {step : SymbolicStep} {o : HarnessOperation} {op : NativeOperation}
    (h : Translates contract step o op) : step.arguments.length = op.operands.length := by
  have hrows : ∀ k < 61, (encoderOperandNames.getD k []).Nodup := by decide
  have hperm : (step.arguments.map SymbolicArgument.name).Perm
      (encoderOperandNames.getD o.selectorModulusValue []) :=
    (List.perm_ext_iff_of_nodup step.names_nodup (hrows _ h.selector_lt)).mpr h.provided
  rw [← h.operands.length_eq, ← hperm.length_eq, List.length_map]

theorem length_programBytes_eq (hsteps : TranslatesAll contract program native) :
    (programBytes native).length = payloadSize program := by
  rw [programBytes, payloadSize, List.length_cons, List.length_flatten, List.map_map, Nat.add_comm]
  congr 2
  rw [← List.forall₂_eq_eq_eq, List.forall₂_map_left_iff, List.forall₂_map_right_iff]
  refine (List.Forall₂.flip hsteps).imp ?_
  rintro op step ⟨o, h⟩
  rw [Function.comp_apply, length_operationBytes, length_arguments_eq h]

/-- A step and the native operation it became: the selector of its operation, the values of its
arguments in the codec's operand order, and the OR of the bit values of its flags. -/
structure CompiledStep (contract : HarnessContract) (step : SymbolicStep) (op : NativeOperation) :
    Prop where
  selector : ∃ o ∈ contract.operations, o.symbol = step.operation ∧
    op.selector = o.selectorModulusValue
  operands : op.operands.map some =
    (encoderOperandNames.getD op.selector.toNat []).map (Validator.integerArgument step)
  sqeControl : op.sqeControl = ((step.flags.map (flagBit contract)).foldl (· ||| ·) 0 : ℕ)

theorem compiledStep_of_translates {step : SymbolicStep} {o : HarnessOperation}
    {op : NativeOperation} (h : Translates contract step o op) : CompiledStep contract step op := by
  obtain ⟨hmem, hsymbol⟩ := Dict.mem_of_get?_eq_some h.found
  exact ⟨⟨o, hmem, hsymbol, h.selector⟩, map_some_operands h, h.sqeControl⟩

variable (htables : HasProductionTables contract)
include htables

/-- An earlier step with the symbol of selector `k` is an earlier operation with that selector. -/
theorem earlier_selector (hsteps : TranslatesAll contract program native) {i : ℕ} (k : Fin 61)
    (h : operationSymbols.getD k "" ∈ (program.steps.take i).map SymbolicStep.operation) :
    Earlier native.operations i fun p => p.selector = k := by
  obtain ⟨step, hstep, hoperation⟩ := List.mem_map.mp h
  exact earlier_of_mem_take hsteps hstep fun op o htranslates =>
    (selector_eq_iff htables htranslates k).mpr hoperation

/-- An earlier provider of a group is an earlier operation with selector 18 and that operand. -/
theorem earlier_provider (hsteps : TranslatesAll contract program native) {i : ℕ} {group : ℤ}
    (h : providesGroup (program.steps.take i) (some group)) :
    Earlier native.operations i fun p => p.selector = 18 ∧ p.operands = [group] := by
  obtain ⟨item, hitem, hoperation, hgroup⟩ := h
  refine earlier_of_mem_take hsteps hitem fun op o htranslates => ?_
  have hselector := (selector_eq_iff htables htranslates 18).mpr hoperation
  refine ⟨hselector, ?_⟩
  have hoperands := operands_of_selector htranslates 18 hselector
  rw [show encoderOperandNames.getD (18 : Fin 61) [] = ["buffer_group"] from rfl,
    List.map_singleton, hgroup] at hoperands
  simpa using hoperands

/-- A reference of an operation with a required producer. -/
theorem reference_rule (hsteps : TranslatesAll contract program native) {i : ℕ}
    {step : SymbolicStep} {o : HarnessOperation} {op : NativeOperation}
    (htranslates : Translates contract step o op)
    (hnative : NativeStepValid contract program i step) (k producer : Fin 61) {name : String}
    {value : ℤ} (hselector : op.selector = k)
    (hrequirement : referenceRequirement (operationSymbols.getD k "") =
      some (name, operationSymbols.getD producer "", value)) :
    op.operands.map some = (encoderOperandNames.getD k []).map (Validator.integerArgument step) ∧
      Validator.integerArgument step name = some value ∧
      Earlier native.operations i fun p => p.selector = producer := by
  have hoperation := (selector_eq_iff htables htranslates k).mp hselector
  obtain ⟨hproducer, hvalue⟩ := hnative.reference _ _ _ (hoperation ▸ hrequirement)
  exact ⟨operands_of_selector htranslates k hselector, hvalue,
    earlier_selector htables hsteps producer hproducer⟩

/-- **The validator's rules hold of the native operations** that a valid program translates to. -/
theorem nativeRules (hvalid : ProgramValid contract program)
    (hsteps : TranslatesAll contract program native)
    (hring : ∀ profile, findProfile contract program.ringProfileId = some profile →
      native.ringSelector = profile.selectorValue) : NativeRules native where
  linkSuccessor := by
    intro i op hop hlink
    obtain ⟨step, o, -, htranslates, hstep, hnative⟩ := exists_step hvalid hsteps hop
    rw [← hsteps.length_eq]
    exact hnative.linkSuccessor ((hasLinkFlag_iff htables htranslates hstep).mp hlink)
  drainPredecessor := by
    intro i op hop hdrain
    obtain ⟨step, o, -, htranslates, hstep, hnative⟩ := exists_step hvalid hsteps hop
    exact hnative.drainPredecessor ((hasDrainFlag_iff htables htranslates hstep).mp hdrain)
  linkTimeout := by
    intro i op hop hselector
    obtain ⟨step, o, -, htranslates, -, hnative⟩ := exists_step hvalid hsteps hop
    obtain ⟨hpos, hlinked⟩ :=
      hnative.linkTimeout ((selector_eq_iff htables htranslates 37).mp hselector)
    obtain ⟨j, rfl⟩ : ∃ j, i = j + 1 := ⟨i - 1, by omega⟩
    rw [Nat.add_sub_cancel, Option.any_eq_true] at hlinked
    obtain ⟨previous, hprevious, hlinked⟩ := hlinked
    obtain ⟨op', -, hop', -⟩ := exists_native hsteps hprevious
    obtain ⟨step', o', hstep', htranslates', hstepValid', -⟩ := exists_step hvalid hsteps hop'
    obtain rfl : previous = step' := Option.some.inj (hprevious.symm.trans hstep')
    exact ⟨j, op', rfl, hop', (hasLinkFlag_iff htables htranslates' hstepValid').mpr hlinked⟩
  timeoutReference := by
    intro i op hop hselector
    obtain ⟨step, o, -, htranslates, -, hnative⟩ := exists_step hvalid hsteps hop
    rcases hselector with hselector | hselector
    · obtain ⟨hoperands, hvalue, hearlier⟩ :=
        reference_rule htables hsteps htranslates hnative 9 8 hselector rfl
      rw [show encoderOperandNames.getD (9 : Fin 61) [] = ["user_data"] from rfl,
        List.map_singleton, hvalue] at hoperands
      exact ⟨by simpa using hoperands, hearlier⟩
    · obtain ⟨hoperands, hvalue, hearlier⟩ :=
        reference_rule htables hsteps htranslates hnative 38 8 hselector rfl
      rw [show encoderOperandNames.getD (38 : Fin 61) [] = ["user_data"] from rfl,
        List.map_singleton, hvalue] at hoperands
      exact ⟨by simpa using hoperands, hearlier⟩
  pollRemove := by
    intro i op hop hselector
    obtain ⟨step, o, -, htranslates, -, hnative⟩ := exists_step hvalid hsteps hop
    obtain ⟨hoperands, hvalue, hearlier⟩ :=
      reference_rule htables hsteps htranslates hnative 7 6 hselector rfl
    rw [show encoderOperandNames.getD (7 : Fin 61) [] = ["user_data"] from rfl,
      List.map_singleton, hvalue] at hoperands
    exact ⟨by simpa using hoperands, hearlier⟩
  pollUpdate := by
    intro i op hop hselector
    obtain ⟨step, o, -, htranslates, -, hnative⟩ := exists_step hvalid hsteps hop
    obtain ⟨hoperands, hvalue, hearlier⟩ :=
      reference_rule htables hsteps htranslates hnative 39 6 hselector rfl
    refine ⟨?_, hearlier⟩
    rw [show encoderOperandNames.getD (39 : Fin 61) [] =
      ["flags", "new_user_data", "old_user_data"] from rfl, List.map_cons, List.map_cons,
      List.map_singleton, hvalue] at hoperands
    obtain ⟨flags, -, rest₁, hrest₁, hcons⟩ := eq_cons_of_map_some hoperands
    obtain ⟨newUserData, -, rest₂, hrest₂, rfl⟩ := eq_cons_of_map_some hrest₁
    obtain ⟨oldUserData, hold, rest₃, hrest₃, rfl⟩ := eq_cons_of_map_some hrest₂
    obtain rfl : rest₃ = [] := List.map_eq_nil_iff.mp hrest₃
    obtain rfl : 6 = oldUserData := Option.some.inj hold
    exact ⟨flags, newUserData, hcons⟩
  cancel := by
    intro i op hop hselector
    obtain ⟨step, o, -, htranslates, -, hnative⟩ := exists_step hvalid hsteps hop
    obtain ⟨value, hvalue, hmem⟩ :=
      hnative.cancel ((selector_eq_iff htables htranslates 35).mp hselector)
    have hoperands := operands_of_selector htranslates 35 hselector
    rw [show encoderOperandNames.getD (35 : Fin 61) [] = ["user_data"] from rfl,
      List.map_singleton, hvalue] at hoperands
    refine ⟨value, by simpa using hoperands, ?_⟩
    obtain ⟨item, hitem, hselectorOf⟩ := List.mem_filterMap.mp hmem
    refine earlier_of_mem_take hsteps hitem fun op' o' htranslates' => ?_
    have hfound : findOperation contract item.operation = some o' := htranslates'.found
    rw [hfound, Option.map_some, Option.some.injEq] at hselectorOf
    rw [htranslates'.selector, hselectorOf]
  noFixedFile := by
    intro op hmem hfixed
    obtain ⟨i, hop⟩ := List.mem_iff_getElem?.mp hmem
    obtain ⟨step, o, hstep, htranslates, -, -⟩ := exists_step hvalid hsteps hop
    exact hvalid.noFixedFile step (List.mem_of_getElem? hstep)
      ((hasFlag_iff htables htranslates (by decide)).mp hfixed)
  bufferProvider := by
    intro i op hop hselect
    obtain ⟨step, o, -, htranslates, -, hnative⟩ := exists_step hvalid hsteps hop
    have hprovider :=
      hnative.bufferProvider ((hasFlag_iff htables htranslates (by decide)).mp hselect)
    rw [flagSum_eq_stepControl htables htranslates.flags] at hprovider
    rw [htranslates.sqeControl, Int.toNat_natCast]
    exact earlier_provider htables hsteps hprovider
  bufferRemove := by
    intro i op hop hselector
    obtain ⟨step, o, -, htranslates, -, hnative⟩ := exists_step hvalid hsteps hop
    have hprovider := hnative.bufferRemove ((selector_eq_iff htables htranslates 19).mp hselector)
    have hoperands := operands_of_selector htranslates 19 hselector
    rw [show encoderOperandNames.getD (19 : Fin 61) [] = ["buffer_group"] from rfl,
      List.map_singleton] at hoperands
    obtain ⟨group, hgroup, rest, hrest, hcons⟩ := eq_cons_of_map_some hoperands
    obtain rfl : rest = [] := List.map_eq_nil_iff.mp hrest
    rw [hgroup] at hprovider
    exact ⟨group, hcons, earlier_provider htables hsteps hprovider⟩
  enableRing := by
    intro hseven
    obtain ⟨profile, hprofile⟩ := hvalid.profile
    obtain ⟨hmem, hid⟩ := Dict.mem_of_get?_eq_some hprofile
    rw [htables.profiles] at hmem
    have hdisabled : ∀ profile ∈ profiles, profile.selectorValue = 7 →
        profile.profileId = "disabled_until_register" := by decide
    have hselectorValue : profile.selectorValue = 7 := by
      have := (hring profile hprofile).symm.trans hseven
      omega
    obtain ⟨step, opcode, hhead, hoperation, hopcode, hmod⟩ :=
      hvalid.enableRing (hid ▸ hdisabled profile hmem hselectorValue)
    rw [List.head?_eq_getElem?] at hhead
    obtain ⟨first, o, hfirst, htranslates⟩ := exists_native hsteps hhead
    have hselector := (selector_eq_iff htables htranslates 60).mpr hoperation
    have hoperands := operands_of_selector htranslates 60 hselector
    rw [show encoderOperandNames.getD (60 : Fin 61) [] = ["register_opcode", "register_count"]
      from rfl, List.map_cons, List.map_singleton, hopcode] at hoperands
    obtain ⟨value, hvalue, rest₁, hrest₁, hcons⟩ := eq_cons_of_map_some hoperands
    obtain ⟨count, -, rest₂, hrest₂, rfl⟩ := eq_cons_of_map_some hrest₁
    obtain rfl : rest₂ = [] := List.map_eq_nil_iff.mp hrest₂
    obtain rfl : opcode = value := Option.some.inj hvalue
    exact ⟨first, opcode, count, List.head?_eq_getElem?.trans hfirst, hselector, hcons, hmod⟩

/-! ## Compilation of valid programs -/

/-- The compiler translates a valid program, and what it returns obeys the rules. -/
theorem exists_compileNative (hvalid : ProgramValid contract program) :
    ∃ native, compileNative program contract = .ok native ∧
      TranslatesAll contract program native ∧ NativeRules native := by
  obtain ⟨profile, hprofile⟩ := hvalid.profile
  have hlt : profile.selectorValue < 8 := by
    have hall : ∀ profile ∈ profiles, profile.selectorValue < 8 := by decide
    exact hall profile (htables.profiles ▸ (Dict.mem_of_get?_eq_some hprofile).1)
  have hexists : ∀ step ∈ program.steps, ∃ op, ∃ o, Translates contract step o op := by
    intro step hstep
    obtain ⟨o, hstepValid⟩ := hvalid.steps step hstep
    obtain ⟨op, htranslates⟩ := exists_translates htables hstepValid
    exact ⟨op, o, htranslates⟩
  obtain ⟨operations, hsteps⟩ := exists_forall₂ hexists
  refine ⟨⟨profile.selectorValue, operations⟩,
    compileNative_eq_ok.mpr ⟨profile, hprofile, hlt, rfl, hsteps⟩, hsteps,
    nativeRules htables hvalid hsteps fun other hother => ?_⟩
  rw [Option.some.inj (hprofile.symm.trans hother)]

end Program

/-- **A valid program compiles**, when the contract's byte limit admits its payload: decoding the
payload gives one operation for each step, in order, and the rules that the validator checks on the
steps hold of the bytes. -/
theorem compileProgram_valid (compilerHash : String) (sha256 : Bytes → String)
    (telemetry : TelemetryPacket) (proposal : PlannerProposal) (contract : HarnessContract)
    (program : PlannerProgram) (htables : HasProductionTables contract)
    (henabled : (status compilerHash (some contract)).enabled)
    (hvalid : (validateProposal compilerHash telemetry proposal contract "shadow").valid)
    (hprogram : program ∈ proposal.programs)
    (hbytes : payloadSize program ≤ contract.inputMaxBytes) :
    ∃ compiled native, compileProgram compilerHash sha256 program contract = .ok compiled ∧
      decodeProgram compiled.payload auditedHarnessHash = .ok native ∧
      List.Forall₂ (CompiledStep contract) program.steps native.operations ∧
      NativeRules native := by
  obtain ⟨native, hnative, hsteps, hrules⟩ :=
    exists_compileNative htables (programValid hvalid hprogram)
  refine ⟨compiledOf compilerHash sha256 program native, native,
    compileProgram_eq_ok.mpr ⟨henabled, native, hnative, ?_, rfl⟩,
    decodeProgram_eq_ok.mpr ⟨rfl, compileNative_isCanonical hnative, rfl⟩,
    hsteps.imp ?_, hrules⟩
  · rw [length_programBytes_eq hsteps]
    exact hbytes
  · rintro step op ⟨o, htranslates⟩
    exact compiledStep_of_translates htranslates

/-! ### A program and two contracts -/

def sampleHashes : TargetHashes :=
  ⟨auditedHarnessHash, "sha256:compiler", "sha256:table", "sha256:fleet"⟩

def sampleTelemetry : TelemetryPacket where
  packetId := "packet:1"
  targetHashes := sampleHashes
  evidenceRefs := ["evidence:1"]

/-- The proposal of one program. -/
def proposalOf (program : PlannerProgram) : PlannerProposal where
  proposalId := "proposal:1"
  packetId := "packet:1"
  targetHashes := sampleHashes
  hypothesisEvidenceRefs := ["evidence:1"]
  abstain := false
  abstainReason := ""
  analysisOnly := false
  researchPriorities := []
  programs := [program]
  length_programs := by simp
  shape := ⟨by simp, rfl, rfl⟩
  programIds_nodup := List.nodup_singleton _

def integerOf (name : String) (value : ℤ) : SymbolicArgument where
  name := name
  kind := .integer
  integerValue := value
  activeValue := ⟨rfl, rfl, rfl⟩

/-- A linked timeout, its arguments listed against the codec's order, and its removal. -/
def timeoutProgram : PlannerProgram :=
  .of "timeout_pair" .stableCoverage "plain" [] [
    .of "arm" 0 "timeout" "plain" [integerOf "count" 3, integerOf "flags" 1]
      ["iosqe_async", "iosqe_io_link"] .link ["timeout"],
    .of "disarm" 1 "timeout_remove" "plain" [integerOf "user_data" 8] [] .none ["success"]] [] 1

theorem compileProgram_timeoutProgram :
    ∃ compiled native, compileProgram "sha256:compiler" (fun _ => "") timeoutProgram
        (buildContract sampleHashes) = .ok compiled ∧
      decodeProgram compiled.payload auditedHarnessHash = .ok native ∧ NativeRules native := by
  obtain ⟨compiled, native, hcompile, hdecode, -, hrules⟩ :=
    compileProgram_valid "sha256:compiler" (fun _ => "") sampleTelemetry (proposalOf timeoutProgram)
      (buildContract sampleHashes) timeoutProgram ⟨rfl, rfl, rfl⟩ (by decide +kernel)
      (by decide +kernel) (List.mem_singleton_self _) (by decide)
  exact ⟨compiled, native, hcompile, hdecode, hrules⟩

/-- The production contract with a limit of one byte. -/
def oneByteContract : HarnessContract where
  __ := buildContract sampleHashes
  inputMaxBytes := 1
  inputMaxBytes_pos := le_rfl
  inputMaxBytes_le := by decide

/-- Under a contract that admits one byte the valid program does not compile. -/
theorem oneByteContract_blocks :
    ¬ ∀ (compilerHash : String) (sha256 : Bytes → String) (telemetry : TelemetryPacket)
        (proposal : PlannerProposal) (contract : HarnessContract) (program : PlannerProgram),
      HasProductionTables contract → (status compilerHash (some contract)).enabled →
      (validateProposal compilerHash telemetry proposal contract "shadow").valid →
      program ∈ proposal.programs →
      ∃ compiled, compileProgram compilerHash sha256 program contract = .ok compiled := by
  intro h
  obtain ⟨compiled, hcompile⟩ := h "sha256:compiler" (fun _ => "") sampleTelemetry
    (proposalOf timeoutProgram) oneByteContract timeoutProgram ⟨rfl, rfl, rfl⟩ (by decide +kernel)
    (by decide +kernel) (List.mem_singleton_self _)
  have hblocked : compileProgram "sha256:compiler" (fun _ => "") timeoutProgram oneByteContract =
      .error (.blocked "compiled payload exceeds the contract byte limit") := by decide +kernel
  rw [hblocked] at hcompile
  cases hcompile

end IouAi.Contract
