import IouAi.Contract.Validator

/-!
# What a valid report says

A report is valid when every check of the list holds (`valid_reportOf_iff`). `programValid` reads
off, for a program of a proposal that is valid against a production contract in shadow mode, the
facts that its checks establish.
-/

namespace IouAi.Validator

open Compiler Models

/-- Every check of the list holds. -/
def Holds (checks : List Check) : Prop := ∀ check ∈ checks, check.condition = true

theorem issues_foldl_record (checks : List Check) (report : ValidationReport) :
    (checks.foldl record report).issues =
      report.issues ++ (checks.filter fun check => !check.condition).map
        fun check => ⟨check.checkId, check.message⟩ := by
  induction checks generalizing report with
  | nil => simp
  | cons check checks ih =>
    rw [List.foldl_cons, ih, record]
    cases hcondition : check.condition with
    | true =>
      rw [if_pos rfl]
      split <;> simp [hcondition]
    | false => simp [hcondition]

/-- **A report is valid** when no check has failed. -/
theorem valid_reportOf_iff (checks : List Check) : (reportOf checks).valid ↔ Holds checks := by
  rw [ValidationReport.valid, reportOf, issues_foldl_record]
  simp [Holds, List.filter_eq_nil_iff]

/-- Checks with different ids that all hold are all reported, in their order. -/
theorem passedCheckIds_reportOf {checks : List Check} (h : Holds checks)
    (hnodup : (checks.map Check.checkId).Nodup) :
    (reportOf checks).passedCheckIds = checks.map Check.checkId := by
  have hfold : ∀ (checks : List Check) (report : ValidationReport), Holds checks →
      (report.passedCheckIds ++ checks.map Check.checkId).Nodup →
        (checks.foldl record report).passedCheckIds
          = report.passedCheckIds ++ checks.map Check.checkId := by
    intro checks
    induction checks with
    | nil => simp
    | cons check checks ih =>
      intro report hholds hnodup
      have hcondition := hholds check List.mem_cons_self
      have hnew : check.checkId ∉ report.passedCheckIds := by
        intro hmem
        rw [List.map_cons, List.nodup_append] at hnodup
        exact hnodup.2.2 _ hmem _ List.mem_cons_self rfl
      rw [List.foldl_cons, record, if_pos hcondition, if_neg hnew, ih]
      · simp
      · exact fun other hother => hholds other (List.mem_cons_of_mem _ hother)
      · simpa using hnodup
  simpa [reportOf] using hfold checks ⟨[], []⟩ h (by simpa using hnodup)

theorem mem_passedCheckIds_reportOf (checks : List Check) (checkId : String) :
    checkId ∈ (reportOf checks).passedCheckIds
      ↔ ∃ check ∈ checks, check.condition = true ∧ check.checkId = checkId := by
  have hfold : ∀ (checks : List Check) (report : ValidationReport),
      checkId ∈ (checks.foldl record report).passedCheckIds
        ↔ checkId ∈ report.passedCheckIds
          ∨ ∃ check ∈ checks, check.condition = true ∧ check.checkId = checkId := by
    intro checks
    induction checks with
    | nil => simp
    | cons check checks ih =>
      intro report
      rw [List.foldl_cons, ih, List.exists_mem_cons_iff, ← or_assoc]
      refine or_congr_left ?_
      unfold record
      split_ifs with hcondition hmem
      · simp only [hcondition, true_and]
        exact ⟨.inl, fun h => h.elim id fun heq => heq ▸ hmem⟩
      · simp [hcondition, eq_comm]
      · simp [hcondition]
  simpa [reportOf] using hfold checks ⟨[], []⟩

theorem mem_issues_reportOf (checks : List Check) (checkId : String) :
    checkId ∈ (reportOf checks).issues.map ValidationIssue.checkId
      ↔ ∃ check ∈ checks, check.condition = false ∧ check.checkId = checkId := by
  rw [reportOf, issues_foldl_record]
  simp [and_assoc]

/-- A check that holds is reported, and no other, when no other has its id. -/
theorem passed_reportOf {checks others : List Check} (h : Holds checks)
    (hothers : ∀ check ∈ others, check.checkId ∉ checks.map Check.checkId) {checkId : String}
    (hid : checkId ∈ checks.map Check.checkId) :
    checkId ∈ (reportOf (checks ++ others)).passedCheckIds
      ∧ checkId ∉ (reportOf (checks ++ others)).issues.map ValidationIssue.checkId := by
  rw [mem_passedCheckIds_reportOf, mem_issues_reportOf]
  constructor
  · obtain ⟨check, hcheck, heq⟩ := List.mem_map.mp hid
    exact ⟨check, List.mem_append_left _ hcheck, h check hcheck, heq⟩
  · rintro ⟨check, hcheck, hcondition, rfl⟩
    rcases List.mem_append.mp hcheck with hcheck | hcheck
    · exact absurd (h check hcheck) (by simp [hcondition])
    · exact hothers check hcheck hid

@[simp] theorem holds_nil : Holds [] := by simp [Holds]

@[simp] theorem holds_cons_require {checkId message : String} {condition : Prop}
    [Decidable condition] {checks : List Check} :
    Holds (require checkId condition message :: checks) ↔ condition ∧ Holds checks := by
  simp [Holds, require]

@[simp] theorem holds_append {xs ys : List Check} : Holds (xs ++ ys) ↔ Holds xs ∧ Holds ys :=
  List.forall_mem_append

@[simp] theorem holds_flatMap {α : Type} {xs : List α} {f : α → List Check} :
    Holds (xs.flatMap f) ↔ ∀ x ∈ xs, Holds (f x) := by
  simp only [Holds, List.mem_flatMap]
  exact ⟨fun h x hx c hc => h c ⟨x, hx, hc⟩, fun h c ⟨x, hx, hc⟩ => h x hx c hc⟩

@[simp] theorem holds_ite {c : Prop} [Decidable c] {checks : List Check} :
    Holds (if c then checks else []) ↔ (c → Holds checks) := by
  split <;> simp_all

section Program

variable {compilerHash : String} {telemetry : TelemetryPacket} {proposal : PlannerProposal}
  {contract : HarnessContract} {program : PlannerProgram}

/-- What the checks of every contract say about a step. -/
structure StepValid (contract : HarnessContract) (program : PlannerProgram) (step : SymbolicStep)
    (operation : HarnessOperation) : Prop where
  found : findOperation contract step.operation = some operation
  flags : ∀ flag ∈ step.flags, flag ∈ contract.flags.map HarnessFlagSpec.symbol
  linkMode : ∀ flag ∈ linkFlags, flag ∈ step.flags ↔ flag ∈ expectedLinkFlags step.linkMode
  arguments : argumentsValid program operation step

theorem stepValid_of_holds {step : SymbolicStep} (h : Holds (stepChecks contract program step)) :
    ∃ operation, StepValid contract program step operation := by
  simp only [stepChecks, holds_append, holds_cons_require, holds_nil, and_true] at h
  obtain ⟨⟨-, hsome⟩, hrest⟩ := h
  obtain ⟨operation, hfound⟩ := Option.isSome_iff_exists.mp hsome
  simp only [hfound, holds_cons_require] at hrest
  exact ⟨operation, hfound, hrest.2.2.1.2, hrest.2.2.2.1, hrest.2.2.2.2.2.1⟩

/-- What the checks of a production contract say about the step at a position. -/
structure NativeStepValid (contract : HarnessContract) (program : PlannerProgram) (ordinal : ℕ)
    (step : SymbolicStep) : Prop where
  linkSuccessor : isLinked step → ordinal + 1 < program.steps.length
  drainPredecessor : step.linkMode = .drain → 0 < ordinal
  linkTimeout : step.operation = "link_timeout" →
    0 < ordinal ∧ (program.steps[ordinal - 1]?).any isLinked
  reference : ∀ argumentName producer expectedValue,
    referenceRequirement step.operation = some (argumentName, producer, expectedValue) →
      producer ∈ (program.steps.take ordinal).map SymbolicStep.operation ∧
        integerArgument step argumentName = some expectedValue
  cancel : step.operation = "cancel" → ∃ value, integerArgument step "user_data" = some value ∧
    value ∈ selectorsOf contract (program.steps.take ordinal)
  bufferProvider : "iosqe_buffer_select" ∈ step.flags →
    providesGroup (program.steps.take ordinal) (some (flagSum contract step >>> 4 : ℕ))
  bufferRemove : step.operation = "remove_buffers" →
    providesGroup (program.steps.take ordinal) (integerArgument step "buffer_group")

theorem nativeStepValid_of_holds {ordinal : ℕ} {step : SymbolicStep}
    (h : Holds (nativeStepChecks contract program ordinal step)) :
    NativeStepValid contract program ordinal step := by
  simp only [nativeStepChecks, holds_append, holds_ite, holds_cons_require, holds_nil,
    and_true] at h
  obtain ⟨⟨⟨⟨⟨⟨hlink, hdrain⟩, htimeout⟩, hreference⟩, hcancel⟩, hprovider⟩, hremove⟩ := h
  refine ⟨hlink, hdrain, htimeout, ?_, ?_, hprovider, hremove⟩
  · intro argumentName producer expectedValue hrequirement
    simpa only [hrequirement, holds_cons_require, holds_nil, and_true] using hreference
  · intro hoperation
    simpa [Option.any_eq_true] using (hcancel hoperation).2

/-- What the checks of a production contract say about a program. -/
structure ProgramValid (contract : HarnessContract) (program : PlannerProgram) : Prop where
  profile : ∃ profile, findProfile contract program.ringProfileId = some profile
  steps : ∀ step ∈ program.steps, ∃ operation, StepValid contract program step operation
  noFixedFile : ∀ step ∈ program.steps, "iosqe_fixed_file" ∉ step.flags
  nativeSteps : ∀ ordinal step, program.steps[ordinal]? = some step →
    NativeStepValid contract program ordinal step
  enableRing : program.ringProfileId = "disabled_until_register" →
    ∃ first opcode, program.steps.head? = some first ∧ first.operation = "register_raw" ∧
      integerArgument first "register_opcode" = some opcode ∧ opcode % 34 = 12

/-- **What validation establishes** about the programs of a proposal in shadow mode. -/
theorem programValid
    (hvalid : (validateProposal compilerHash telemetry proposal contract "shadow").valid)
    (hprogram : program ∈ proposal.programs) : ProgramValid contract program := by
  rw [validateProposal, valid_reportOf_iff, proposalChecks, holds_append] at hvalid
  obtain ⟨hbinding, hrest⟩ := hvalid
  have hne : proposal.programs.length ≠ 0 := Nat.ne_zero_of_lt (List.length_pos_of_mem hprogram)
  have hshape := proposal.shape
  have hproduction : contract.environment = .production := by
    simp only [bindingChecks, holds_cons_require, modeAuthorized] at hbinding
    rcases hbinding.2.2.1 with ⟨hmode, -⟩ | ⟨-, hproduction, -⟩
    · exact absurd hmode (by decide)
    · exact hproduction
  have hprograms : Holds (programsChecks compilerHash proposal contract) := by
    unfold AbstentionShape at hshape
    split at hshape
    · exact absurd hshape.2.1 hne
    · next habstain =>
      split at hshape
      · exact absurd hshape.1 hne
      · next hanalysis => rwa [if_neg habstain, if_neg hanalysis] at hrest
  rw [programsChecks, holds_append, holds_flatMap] at hprograms
  have hchecks := hprograms.2 program hprogram
  simp only [programChecks, holds_append, holds_cons_require, holds_flatMap, holds_nil, holds_ite,
    hproduction, forall_const, nativeChecks, and_true] at hchecks
  obtain ⟨⟨⟨⟨⟨hprofile, -⟩, -⟩, -⟩, hsteps⟩, ⟨⟨-, hfixed⟩, hnative⟩, hring⟩ := hchecks
  refine ⟨Option.isSome_iff_exists.mp hprofile, fun step hstep => stepValid_of_holds (hsteps step hstep),
    hfixed, ?_, ?_⟩
  · intro ordinal step hget
    exact nativeStepValid_of_holds
      (hnative (step, ordinal) (List.mem_zipIdx_iff_getElem?.mpr (by simpa using hget)))
  · intro hdisabled
    have hfirst := hring hdisabled
    simp only [Option.any_eq_true, Bool.decide_and, Bool.and_eq_true, decide_eq_true_eq] at hfirst
    obtain ⟨first, hhead, hoperation, opcode, hopcode, hmod⟩ := hfirst
    exact ⟨first, opcode, hhead, hoperation, hopcode, hmod⟩

end Program

end IouAi.Validator
