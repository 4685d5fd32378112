import IouAi.Contract.Validation
import IouAi.Wire.Patterns
import Mathlib.Data.List.Perm.Basic

/-!
# The rules of a proposal

Which rules the validator applies to a proposal in shadow mode, and the ids of their checks. The ids
are different, since the names that the planner chooses have no dot (`checkId_injective`), so that a
valid report passes exactly one check for each rule (`passedCheckIds_eq`).
-/

namespace IouAi.Validator

open Compiler Models Wire

/-! ## Rules -/

/-- A check of the validator: one of every proposal, or one about a priority, a program or a step,
under its name. -/
inductive Rule
  | proposal (name : String)
  | priority (priorityId name : String)
  | program (programId name : String)
  | step (programId stepId name : String)
  deriving DecidableEq

def Rule.checkId : Rule → String
  | .proposal name => name
  | .priority priorityId name => "analysis." ++ priorityId ++ name
  | .program programId name => "program." ++ programId ++ name
  | .step programId stepId name => "program." ++ programId ++ ".step." ++ stepId ++ name

/-- The length of the id, from the lengths of the names in it. -/
def Rule.idLength : Rule → ℕ
  | .proposal name => name.length
  | .priority priorityId name => 9 + priorityId.length + name.length
  | .program programId name => 8 + programId.length + name.length
  | .step programId stepId name => 8 + programId.length + 6 + stepId.length + name.length

theorem Rule.length_checkId (rule : Rule) : rule.checkId.length = rule.idLength := by
  cases rule <;> simp only [Rule.checkId, String.length_append, Rule.idLength] <;> rfl

def bindingRules : List Rule :=
  ["binding.packet-id", "binding.target-hashes", "contract.mode", "contract.planner-view",
    "evidence.references"].map .proposal

def priorityRules (priority : ResearchPriority) : List Rule :=
  [".operations", ".profiles", ".lanes"].map (.priority priority.priorityId)

/-- The rules of every contract for a step. -/
def stepRules (program : PlannerProgram) (step : SymbolicStep) : List Rule :=
  [".ring-ref", ".operation", ".profile", ".lane", ".flags", ".link-mode", ".outcomes",
    ".arguments"].map (.step program.programId step.stepId)

/-- The names of the rules of a production contract for a step. -/
def nativeStepNames (step : SymbolicStep) : List String :=
  (if isLinked step then [".native.link-successor"] else []) ++
  (if step.linkMode = .drain then [".native.drain-predecessor"] else []) ++
  (if step.operation = "link_timeout" then [".native.link-timeout-predecessor"] else []) ++
  (if (referenceRequirement step.operation).isSome then [".native.reference"] else []) ++
  (if step.operation = "cancel" then [".native.cancel-reference"] else []) ++
  (if "iosqe_buffer_select" ∈ step.flags then [".native.buffer-provider"] else []) ++
  (if step.operation = "remove_buffers" then [".native.buffer-remove"] else [])

def nativeStepRules (program : PlannerProgram) (step : SymbolicStep) : List Rule :=
  (nativeStepNames step).map (.step program.programId step.stepId)

def programRules (program : PlannerProgram) : List Rule :=
  [".profile", ".profile-lane", ".resources", ".step-count"].map (.program program.programId) ++
    program.steps.flatMap (stepRules program) ++
    [".native.base-only", ".native.no-fixed-file"].map (.program program.programId) ++
    program.steps.flatMap (nativeStepRules program) ++
    if program.ringProfileId = "disabled_until_register" then
      [.program program.programId ".native.enable-ring"] else []

/-- The rules of a proposal under a production contract. -/
def proposalRules (proposal : PlannerProposal) : List Rule :=
  bindingRules ++
    if proposal.abstain then [.proposal "proposal.abstention"]
    else if proposal.analysisOnly then
      .proposal "analysis.priority-count" :: proposal.researchPriorities.flatMap priorityRules
    else
      [.proposal "contract.program-gate", .proposal "proposal.variant-bound"] ++
        proposal.programs.flatMap programRules

/-- The names that the planner's schema takes for symbols. -/
structure SymbolNames (proposal : PlannerProposal) : Prop where
  priorities : ∀ priority ∈ proposal.researchPriorities, isSymbol priority.priorityId = true
  programs : ∀ program ∈ proposal.programs, isSymbol program.programId = true
  steps : ∀ program ∈ proposal.programs, ∀ step ∈ program.steps, isSymbol step.stepId = true

instance (proposal : PlannerProposal) : Decidable (SymbolNames proposal) :=
  decidable_of_iff
    ((∀ priority ∈ proposal.researchPriorities, isSymbol priority.priorityId = true) ∧
      (∀ program ∈ proposal.programs, isSymbol program.programId = true) ∧
      ∀ program ∈ proposal.programs, ∀ step ∈ program.steps, isSymbol step.stepId = true)
    ⟨fun ⟨priorities, programs, steps⟩ => ⟨priorities, programs, steps⟩,
      fun ⟨priorities, programs, steps⟩ => ⟨priorities, programs, steps⟩⟩

/-! ## The checks of a valid proposal -/

section Checks

variable {compilerHash : String} {telemetry : TelemetryPacket} {proposal : PlannerProposal}
  {contract : HarnessContract} {program : PlannerProgram}

theorem checkIds_priorityChecks (priority : ResearchPriority) :
    (priorityChecks contract priority).map Check.checkId
      = (priorityRules priority).map Rule.checkId := rfl

/-- The checks of a step whose operation the contract knows. -/
theorem checkIds_stepChecks {step : SymbolicStep} {operation : HarnessOperation}
    (h : findOperation contract step.operation = some operation) :
    (stepChecks contract program step).map Check.checkId
      = (stepRules program step).map Rule.checkId := by
  rw [stepChecks, h]
  rfl

theorem checkIds_nativeStepChecks (ordinal : ℕ) (step : SymbolicStep) :
    (nativeStepChecks contract program ordinal step).map Check.checkId
      = (nativeStepRules program step).map Rule.checkId := by
  simp only [nativeStepChecks, nativeStepRules, nativeStepNames, List.map_append]
  congr 1
  · congr 1
    · congr 1
      · congr 1
        · congr 1
          · congr 1
            · split <;> rfl
            · split <;> rfl
          · split <;> rfl
        · cases referenceRequirement step.operation <;> rfl
      · split <;> rfl
    · split <;> rfl
  · split <;> rfl

/-- The ids of the checks of a program that passes them under a production contract. -/
theorem checkIds_programChecks (hproduction : contract.environment = .production)
    (h : Holds (programChecks contract program)) :
    (programChecks contract program).map Check.checkId
      = (programRules program).map Rule.checkId := by
  simp only [programChecks, holds_append, holds_cons_require, holds_flatMap, holds_nil] at h
  obtain ⟨⟨⟨⟨hprofile, -⟩, -⟩, hsteps⟩, -⟩ := h
  obtain ⟨profile, hfound⟩ := Option.isSome_iff_exists.mp hprofile.1.1
  have hstepIds : (program.steps.flatMap (stepChecks contract program)).map Check.checkId
      = (program.steps.flatMap (stepRules program)).map Rule.checkId := by
    rw [List.map_flatMap, List.map_flatMap]
    refine List.flatMap_congr fun step hstep => ?_
    obtain ⟨operation, hoperation⟩ := stepValid_of_holds (hsteps step hstep)
    exact checkIds_stepChecks hoperation.found
  have hnativeIds : (program.steps.zipIdx.flatMap fun indexed =>
        nativeStepChecks contract program indexed.2 indexed.1).map Check.checkId
      = (program.steps.flatMap (nativeStepRules program)).map Rule.checkId := by
    have hsteps : program.steps = program.steps.zipIdx.map Prod.fst := by simp
    conv_rhs => rw [hsteps, List.flatMap_map]
    rw [List.map_flatMap, List.map_flatMap]
    exact List.flatMap_congr fun indexed _ => checkIds_nativeStepChecks _ _
  have hringIds : ∀ condition : Bool, ((if program.ringProfileId = "disabled_until_register" then
        [Check.mk ("program." ++ program.programId ++ ".native.enable-ring") condition
          "the disabled ring must begin with IORING_REGISTER_ENABLE_RINGS"] else []).map
        Check.checkId)
      = (if program.ringProfileId = "disabled_until_register" then
        [Rule.program program.programId ".native.enable-ring"] else []).map Rule.checkId := by
    intro condition
    split <;> rfl
  simp only [programChecks, programRules, hproduction, if_true, nativeChecks, hfound,
    List.map_append, hstepIds, hnativeIds, require, hringIds, List.append_assoc]
  rfl

/-- The ids of the checks of a proposal that passes them under a production contract. -/
theorem checkIds_proposalChecks {runtimeMode : String}
    (hproduction : contract.environment = .production)
    (h : Holds (proposalChecks compilerHash telemetry proposal contract runtimeMode)) :
    (proposalChecks compilerHash telemetry proposal contract runtimeMode).map Check.checkId
      = (proposalRules proposal).map Rule.checkId := by
  rw [proposalChecks, holds_append] at h
  rw [proposalChecks, proposalRules, List.map_append, List.map_append]
  congr 1
  by_cases habstain : proposal.abstain
  · rw [if_pos habstain, if_pos habstain]
    rfl
  · by_cases hanalysis : proposal.analysisOnly
    · rw [if_neg habstain, if_neg habstain, if_pos hanalysis, if_pos hanalysis, analysisChecks,
        List.map_cons, List.map_cons, List.map_flatMap, List.map_flatMap]
      rfl
    · have hprograms := h.2
      rw [if_neg habstain, if_neg hanalysis, programsChecks, holds_append, holds_flatMap]
        at hprograms
      rw [if_neg habstain, if_neg habstain, if_neg hanalysis, if_neg hanalysis, programsChecks,
        List.map_append, List.map_append, List.map_flatMap, List.map_flatMap]
      congr 1
      exact List.flatMap_congr fun program hprogram =>
        checkIds_programChecks hproduction (hprograms.2 program hprogram)

end Checks

/-! ## Different rules have different ids -/

def proposalNames : List String := [
  "binding.packet-id", "binding.target-hashes", "contract.mode", "contract.planner-view",
  "evidence.references", "proposal.abstention", "analysis.priority-count",
  "contract.program-gate", "proposal.variant-bound"]

def priorityNames : List String := [".operations", ".profiles", ".lanes"]

def programNames : List String := [
  ".profile", ".profile-lane", ".resources", ".step-count", ".native.base-only",
  ".native.no-fixed-file", ".native.enable-ring"]

def stepNames : List String := [
  ".ring-ref", ".operation", ".profile", ".lane", ".flags", ".link-mode", ".outcomes",
  ".arguments", ".native.link-successor", ".native.drain-predecessor",
  ".native.link-timeout-predecessor", ".native.reference", ".native.cancel-reference",
  ".native.buffer-provider", ".native.buffer-remove"]

/-- A rule with a name of its kind, about things named by symbols. -/
def Rule.Named : Rule → Prop
  | .proposal name => name ∈ proposalNames
  | .priority priorityId name => isSymbol priorityId = true ∧ name ∈ priorityNames
  | .program programId name => isSymbol programId = true ∧ name ∈ programNames
  | .step programId stepId name =>
    isSymbol programId = true ∧ isSymbol stepId = true ∧ name ∈ stepNames

/-- The parts of a text between its dots. -/
def parts (text : String) : List (List Char) := text.toList.splitOn '.'

/-- The parts of a name after its first dot. -/
def nameParts (name : String) : List (List Char) := name.toList.tail.splitOn '.'

theorem dot_notMem_of_isSymbol {text : String} (h : isSymbol text = true) : '.' ∉ text.toList := by
  have hdot : isSymbolHead '.' = false ∧ isSymbolChar '.' = false := by decide
  unfold isSymbol at h
  split at h
  · simp_all
  · rename_i c cs htext
    simp only [Bool.and_eq_true, List.all_eq_true] at h
    rw [htext, List.mem_cons, not_or]
    refine ⟨fun hc => ?_, fun hcs => ?_⟩
    · rw [← hc, hdot.1] at h
      exact Bool.false_ne_true h.1.1
    · have hchar := h.2 _ hcs
      rw [hdot.2] at hchar
      exact Bool.false_ne_true hchar

/-- A symbol before a name is a part of its own. -/
theorem splitOn_symbol_append {symbol name : String} (hsymbol : isSymbol symbol = true)
    (hname : name.toList = '.' :: name.toList.tail) :
    (symbol.toList ++ name.toList).splitOn '.' = symbol.toList :: nameParts name := by
  conv_lhs => rw [hname]
  rw [List.splitOn_append_cons_self_of_not_mem (dot_notMem_of_isSymbol hsymbol), nameParts]

theorem parts_priority {priorityId name : String} (h : (Rule.priority priorityId name).Named) :
    parts (Rule.priority priorityId name).checkId
      = "analysis".toList :: priorityId.toList :: nameParts name := by
  have hnames : ∀ name ∈ priorityNames, name.toList = '.' :: name.toList.tail := by decide
  have htext : (Rule.priority priorityId name).checkId.toList
      = "analysis".toList ++ '.' :: (priorityId.toList ++ name.toList) := by
    simp [Rule.checkId]
  rw [parts, htext, List.splitOn_append_cons_self_of_not_mem (by decide),
    splitOn_symbol_append h.1 (hnames name h.2)]

theorem parts_program {programId name : String} (h : (Rule.program programId name).Named) :
    parts (Rule.program programId name).checkId
      = "program".toList :: programId.toList :: nameParts name := by
  have hnames : ∀ name ∈ programNames, name.toList = '.' :: name.toList.tail := by decide
  have htext : (Rule.program programId name).checkId.toList
      = "program".toList ++ '.' :: (programId.toList ++ name.toList) := by
    simp [Rule.checkId]
  rw [parts, htext, List.splitOn_append_cons_self_of_not_mem (by decide),
    splitOn_symbol_append h.1 (hnames name h.2)]

theorem parts_step {programId stepId name : String} (h : (Rule.step programId stepId name).Named) :
    parts (Rule.step programId stepId name).checkId
      = "program".toList :: programId.toList :: "step".toList :: stepId.toList
        :: nameParts name := by
  have hnames : ∀ name ∈ stepNames, name.toList = '.' :: name.toList.tail := by decide
  have htext : (Rule.step programId stepId name).checkId.toList
      = "program".toList ++ '.' :: (programId.toList ++ '.' :: ("step".toList ++ '.' ::
        (stepId.toList ++ name.toList))) := by
    simp [Rule.checkId]
  rw [parts, htext, List.splitOn_append_cons_self_of_not_mem (by decide),
    List.splitOn_append_cons_self_of_not_mem (dot_notMem_of_isSymbol h.1),
    List.splitOn_append_cons_self_of_not_mem (by decide),
    splitOn_symbol_append h.2.1 (hnames name h.2.2)]

/-- A list of names is told apart by the parts of the names. -/
theorem nameParts_inj {names : List String} (hnodup : (names.map nameParts).Nodup)
    {name other : String} (hname : name ∈ names) (hother : other ∈ names)
    (h : nameParts name = nameParts other) : name = other :=
  List.inj_on_of_nodup_map hnodup hname hother h

/-- The id of a rule of every proposal has two parts, and the rule is not about a program. -/
theorem parts_proposal {name : String} (h : name ∈ proposalNames) :
    (parts name).length = 2 ∧ (parts name).head? ≠ some "program".toList := by
  have hall : ∀ name ∈ proposalNames,
      (parts name).length = 2 ∧ (parts name).head? ≠ some "program".toList := by decide
  exact hall name h

theorem checkId_injective {rule other : Rule} (h : rule.Named) (h' : other.Named)
    (heq : rule.checkId = other.checkId) : rule = other := by
  have hparts := congrArg parts heq
  have hne : ∀ name : String, 0 < (nameParts name).length := fun name =>
    List.length_pos_of_ne_nil (List.splitOn_ne_nil _ _)
  have hstep : ∀ name ∈ programNames, (nameParts name).head? ≠ some "step".toList := by decide
  cases rule with
  | proposal name =>
    cases other with
    | proposal name' => exact congrArg Rule.proposal heq
    | priority priorityId name' =>
      have hlength := (parts_proposal h).1
      have hpos := hne name'
      rw [parts_priority h'] at hparts
      change parts name = _ at hparts
      rw [hparts] at hlength
      simp only [List.length_cons] at hlength
      omega
    | program programId name' =>
      rw [parts_program h'] at hparts
      exact absurd (congrArg List.head? hparts) (parts_proposal h).2
    | step programId stepId name' =>
      rw [parts_step h'] at hparts
      exact absurd (congrArg List.head? hparts) (parts_proposal h).2
  | priority priorityId name =>
    rw [parts_priority h] at hparts
    cases other with
    | proposal name' =>
      have hlength := (parts_proposal h').1
      have hpos := hne name
      change _ = parts name' at hparts
      rw [← hparts] at hlength
      simp only [List.length_cons] at hlength
      omega
    | priority priorityId' name' =>
      rw [parts_priority h', List.cons.injEq, List.cons.injEq] at hparts
      rw [String.toList_injective hparts.2.1,
        nameParts_inj (by decide) h.2 h'.2 hparts.2.2]
    | program programId name' =>
      rw [parts_program h', List.cons.injEq] at hparts
      exact absurd hparts.1 (by decide)
    | step programId stepId name' =>
      rw [parts_step h', List.cons.injEq] at hparts
      exact absurd hparts.1 (by decide)
  | program programId name =>
    rw [parts_program h] at hparts
    cases other with
    | proposal name' => exact absurd (congrArg List.head? hparts).symm (parts_proposal h').2
    | priority priorityId name' =>
      rw [parts_priority h', List.cons.injEq] at hparts
      exact absurd hparts.1 (by decide)
    | program programId' name' =>
      rw [parts_program h', List.cons.injEq, List.cons.injEq] at hparts
      rw [String.toList_injective hparts.2.1,
        nameParts_inj (by decide) h.2 h'.2 hparts.2.2]
    | step programId' stepId name' =>
      rw [parts_step h', List.cons.injEq, List.cons.injEq] at hparts
      exact absurd (congrArg List.head? hparts.2.2) (hstep name h.2)
  | step programId stepId name =>
    rw [parts_step h] at hparts
    cases other with
    | proposal name' => exact absurd (congrArg List.head? hparts).symm (parts_proposal h').2
    | priority priorityId name' =>
      rw [parts_priority h', List.cons.injEq] at hparts
      exact absurd hparts.1 (by decide)
    | program programId' name' =>
      rw [parts_program h', List.cons.injEq, List.cons.injEq] at hparts
      exact absurd (congrArg List.head? hparts.2.2).symm (hstep name' h'.2)
    | step programId' stepId' name' =>
      rw [parts_step h'] at hparts
      simp only [List.cons.injEq, true_and] at hparts
      rw [String.toList_injective hparts.1, String.toList_injective hparts.2.1,
        nameParts_inj (by decide) h.2.2 h'.2.2 hparts.2.2]

/-! ## The rules of a proposal -/

section Rules

variable {proposal : PlannerProposal} (hnames : SymbolNames proposal)
include hnames

theorem named_programRules {program : PlannerProgram} (hprogram : program ∈ proposal.programs)
    {rule : Rule} (h : rule ∈ programRules program) : rule.Named := by
  have hid := hnames.programs program hprogram
  have hsteps : ∀ step ∈ program.steps, ∀ name, name ∈ stepNames →
      (Rule.step program.programId step.stepId name).Named :=
    fun step hstep name hname => ⟨hid, hnames.steps program hprogram step hstep, hname⟩
  have hprograms : ∀ name ∈ programNames, (Rule.program program.programId name).Named :=
    fun name hname => ⟨hid, hname⟩
  simp only [programRules, List.mem_append, List.mem_flatMap] at h
  rcases h with (((h | ⟨step, hstep, h⟩) | h) | ⟨step, hstep, h⟩) | h
  · obtain ⟨name, hname, rfl⟩ := List.mem_map.mp h
    have hall : ∀ name ∈ [".profile", ".profile-lane", ".resources", ".step-count"],
      name ∈ programNames := by decide
    exact hprograms name (hall name hname)
  · obtain ⟨name, hname, rfl⟩ := List.mem_map.mp h
    have hall : ∀ name ∈ [".ring-ref", ".operation", ".profile", ".lane", ".flags", ".link-mode",
      ".outcomes", ".arguments"], name ∈ stepNames := by decide
    exact hsteps step hstep name (hall name hname)
  · obtain ⟨name, hname, rfl⟩ := List.mem_map.mp h
    have hall : ∀ name ∈ [".native.base-only", ".native.no-fixed-file"],
      name ∈ programNames := by decide
    exact hprograms name (hall name hname)
  · obtain ⟨name, hname, rfl⟩ := List.mem_map.mp h
    refine hsteps step hstep name ?_
    simp only [nativeStepNames, List.mem_append] at hname
    rcases hname with (((((hname | hname) | hname) | hname) | hname) | hname) | hname <;>
      (split at hname <;> simp_all [stepNames])
  · split at h
    · rw [List.mem_singleton.mp h]
      exact hprograms _ (by decide)
    · simp at h

theorem named_proposalRules {rule : Rule} (h : rule ∈ proposalRules proposal) : rule.Named := by
  rcases List.mem_append.mp h with h | h
  · obtain ⟨name, hname, rfl⟩ := List.mem_map.mp h
    have hall : ∀ name ∈ ["binding.packet-id", "binding.target-hashes", "contract.mode",
      "contract.planner-view", "evidence.references"], name ∈ proposalNames := by decide
    exact hall name hname
  · split at h
    · rw [List.mem_singleton.mp h]
      exact (by decide : "proposal.abstention" ∈ proposalNames)
    · split at h
      · rcases List.mem_cons.mp h with rfl | h
        · exact (by decide : "analysis.priority-count" ∈ proposalNames)
        · obtain ⟨priority, hpriority, h⟩ := List.mem_flatMap.mp h
          obtain ⟨name, hname, rfl⟩ := List.mem_map.mp h
          exact ⟨hnames.priorities priority hpriority, hname⟩
      · rcases List.mem_append.mp h with h | h
        · rcases List.mem_pair.mp h with rfl | rfl
          · exact (by decide : "contract.program-gate" ∈ proposalNames)
          · exact (by decide : "proposal.variant-bound" ∈ proposalNames)
        · obtain ⟨program, hprogram, h⟩ := List.mem_flatMap.mp h
          exact named_programRules hnames hprogram h

end Rules

/-- The names of the rules of a step. -/
def namesOf (step : SymbolicStep) : List String :=
  [".ring-ref", ".operation", ".profile", ".lane", ".flags", ".link-mode", ".outcomes",
    ".arguments"] ++ nativeStepNames step

theorem singleton_sublist_of {condition : Prop} [Decidable condition] (name : String) :
    (if condition then [name] else []).Sublist [name] := by
  split
  · exact List.Sublist.refl _
  · exact List.nil_sublist _

theorem namesOf_sublist (step : SymbolicStep) : (namesOf step).Sublist stepNames := by
  refine List.Sublist.append (List.Sublist.refl _) ?_
  exact ((((((singleton_sublist_of _).append (singleton_sublist_of _)).append
    (singleton_sublist_of _)).append (singleton_sublist_of _)).append
    (singleton_sublist_of _)).append (singleton_sublist_of _)).append (singleton_sublist_of _)

/-- The names of the rules about a program as a whole. -/
def wholeNames (program : PlannerProgram) : List String :=
  [".profile", ".profile-lane", ".resources", ".step-count", ".native.base-only",
    ".native.no-fixed-file"] ++
    if program.ringProfileId = "disabled_until_register" then [".native.enable-ring"] else []

theorem wholeNames_sublist (program : PlannerProgram) :
    (wholeNames program).Sublist programNames :=
  List.Sublist.append (List.Sublist.refl _) (singleton_sublist_of _)

/-- The rules of a program, those about the whole before those about its steps. -/
theorem programRules_perm (program : PlannerProgram) :
    (programRules program).Perm ((wholeNames program).map (.program program.programId) ++
      program.steps.flatMap fun step =>
        (namesOf step).map (.step program.programId step.stepId)) := by
  have hsteps := List.flatMap_append_perm program.steps (stepRules program)
    (nativeStepRules program)
  have hstep : (fun step => stepRules program step ++ nativeStepRules program step)
      = fun step => (namesOf step).map (Rule.step program.programId step.stepId) := by
    funext step
    rw [namesOf, List.map_append]
    rfl
  have hring : (if program.ringProfileId = "disabled_until_register" then
        [Rule.program program.programId ".native.enable-ring"] else [])
      = (if program.ringProfileId = "disabled_until_register" then
        [".native.enable-ring"] else []).map (Rule.program program.programId) := by
    split <;> rfl
  rw [hstep] at hsteps
  rw [List.perm_iff_count]
  intro rule
  have hcount := hsteps.count_eq rule
  simp only [programRules, wholeNames, hring, List.map_append, List.count_append, List.map_cons,
    List.map_nil, List.count_cons, List.count_nil] at hcount ⊢
  omega

theorem nodup_programRules (program : PlannerProgram) : (programRules program).Nodup := by
  have hwhole : (wholeNames program).Nodup :=
    (wholeNames_sublist program).nodup (by decide)
  have hnames : ∀ step, (namesOf step).Nodup := fun step =>
    (namesOf_sublist step).nodup (by decide)
  rw [(programRules_perm program).nodup_iff, List.nodup_append]
  refine ⟨hwhole.map fun _ _ heq => (Rule.program.inj heq).2, ?_, ?_⟩
  · rw [List.nodup_flatMap]
    refine ⟨fun step _ => (hnames step).map fun _ _ heq => (Rule.step.inj heq).2.2, ?_⟩
    refine (List.pairwise_map.mp program.stepIds_nodup).imp ?_
    intro step other hne rule hrule hrule'
    obtain ⟨name, -, rfl⟩ := List.mem_map.mp hrule
    obtain ⟨name', -, heq⟩ := List.mem_map.mp hrule'
    exact hne (Rule.step.inj heq).2.1.symm
  · intro rule hrule other hother heq
    obtain ⟨name, -, rfl⟩ := List.mem_map.mp hrule
    obtain ⟨step, -, hother⟩ := List.mem_flatMap.mp hother
    obtain ⟨name', -, rfl⟩ := List.mem_map.mp hother
    cases heq

/-- The program that a rule is about. -/
def Rule.programId? : Rule → Option String
  | .program programId _ => some programId
  | .step programId _ _ => some programId
  | _ => none

theorem programId?_of_mem {program : PlannerProgram} {rule : Rule}
    (h : rule ∈ programRules program) : rule.programId? = some program.programId := by
  rcases List.mem_append.mp ((programRules_perm program).mem_iff.mp h) with h | h
  · obtain ⟨name, -, rfl⟩ := List.mem_map.mp h
    rfl
  · obtain ⟨step, -, h⟩ := List.mem_flatMap.mp h
    obtain ⟨name, -, rfl⟩ := List.mem_map.mp h
    rfl

/-- The name of a rule of every proposal. -/
def Rule.name? : Rule → Option String
  | .proposal name => some name
  | _ => none

theorem nodup_proposalRules (proposal : PlannerProposal) : (proposalRules proposal).Nodup := by
  have hbinding : bindingRules.Nodup := by decide
  have hpriority : ∀ priority, (priorityRules priority).Nodup := fun priority =>
    (List.Nodup.map fun _ _ heq => (Rule.priority.inj heq).2) (by decide : priorityNames.Nodup)
  have hprogram : ∀ program, ∀ rule ∈ programRules program, rule.name? = none := by
    intro program rule hrule
    have hid := programId?_of_mem hrule
    cases rule with
    | proposal name => cases hid
    | priority _ _ | program _ _ | step _ _ _ => rfl
  rw [proposalRules, List.nodup_append]
  refine ⟨hbinding, ?_, ?_⟩
  · split
    · exact List.nodup_singleton _
    · split
      · rw [List.nodup_cons, List.nodup_flatMap]
        refine ⟨fun h => ?_, fun priority _ => hpriority priority, ?_⟩
        · obtain ⟨priority, -, h⟩ := List.mem_flatMap.mp h
          obtain ⟨name, -, heq⟩ := List.mem_map.mp h
          cases heq
        · refine (List.pairwise_map.mp proposal.priorityIds_nodup).imp ?_
          intro priority other hne rule hrule hrule'
          obtain ⟨name, -, rfl⟩ := List.mem_map.mp hrule
          obtain ⟨name', -, heq⟩ := List.mem_map.mp hrule'
          exact hne (Rule.priority.inj heq).1.symm
      · rw [List.nodup_append, List.nodup_flatMap]
        refine ⟨by decide, ⟨fun program _ => nodup_programRules program, ?_⟩, ?_⟩
        · refine (List.pairwise_map.mp proposal.programIds_nodup).imp ?_
          intro program other hne rule hrule hrule'
          have heq := (programId?_of_mem hrule).symm.trans (programId?_of_mem hrule')
          exact hne (Option.some.inj heq)
        · rintro rule hrule other hother rfl
          obtain ⟨program, -, hother⟩ := List.mem_flatMap.mp hother
          have hnone := hprogram program rule hother
          rcases List.mem_pair.mp hrule with rfl | rfl <;> cases hnone
  · rintro rule hrule other hother rfl
    obtain ⟨name, hname, rfl⟩ := List.mem_map.mp hrule
    split at hother
    · rw [List.mem_singleton, Rule.proposal.injEq] at hother
      subst hother
      exact absurd hname (by decide)
    · split at hother
      · rcases List.mem_cons.mp hother with hother | hother
        · rw [Rule.proposal.injEq] at hother
          subst hother
          exact absurd hname (by decide)
        · obtain ⟨priority, -, hother⟩ := List.mem_flatMap.mp hother
          obtain ⟨name', -, heq⟩ := List.mem_map.mp hother
          cases heq
      · rcases List.mem_append.mp hother with hother | hother
        · rcases List.mem_pair.mp hother with hother | hother <;>
            (rw [Rule.proposal.injEq] at hother; subst hother; exact absurd hname (by decide))
        · obtain ⟨program, -, hother⟩ := List.mem_flatMap.mp hother
          cases hprogram program _ hother

/-! ## The report of a valid proposal -/

/-- A valid report on a proposal under a production contract passes exactly the ids of its rules. -/
theorem passedCheckIds_eq {compilerHash : String} {telemetry : TelemetryPacket}
    {proposal : PlannerProposal} {contract : HarnessContract} {runtimeMode : String}
    (hproduction : contract.environment = .production) (hnames : SymbolNames proposal)
    (hvalid : (validateProposal compilerHash telemetry proposal contract runtimeMode).valid) :
    (validateProposal compilerHash telemetry proposal contract runtimeMode).passedCheckIds
      = (proposalRules proposal).map Rule.checkId := by
  rw [validateProposal, valid_reportOf_iff] at hvalid
  have hids := checkIds_proposalChecks hproduction hvalid
  have hnodup : ((proposalRules proposal).map Rule.checkId).Nodup :=
    (nodup_proposalRules proposal).map_on fun rule hrule other hother heq =>
      checkId_injective (named_proposalRules hnames hrule) (named_proposalRules hnames hother) heq
  rw [validateProposal, passedCheckIds_reportOf hvalid (by rwa [hids]), hids]

end IouAi.Validator
