import Mathlib.Data.Int.Order.Basic
import Mathlib.Data.List.Nodup
import Mathlib.Data.Nat.Basic

/-!
# The data contracts

The planner's proposals and the harness contract, each with what its model validators enforce as
fields, so that a value of one of these types is one that the strict models accept. Free text
(summaries, rationales, notes) and the bounds on it are left out, and so are the patterns of
identifiers and symbols.
-/

namespace IouAi.Models

inductive LaneKind
  | stableCoverage | probabilisticRace
  deriving DecidableEq, Repr

inductive ArgumentValueKind
  | integer | boolean | symbol | resource
  deriving DecidableEq, Repr

inductive LinkMode
  | none | link | hardLink | drain
  deriving DecidableEq, Repr

inductive HarnessEnvironment
  | production | mock | test
  deriving DecidableEq, Repr

inductive HarnessArgumentKind
  | integer | boolean | enum | resource
  deriving DecidableEq, Repr

inductive ByteOrder
  | little | big | notApplicable
  deriving DecidableEq, Repr

structure TargetHashes where
  harnessHash : String
  compilerHash : String
  opTableHash : String
  fleetConfigHash : String
  deriving DecidableEq, Repr

/-! ## Telemetry -/

/-- The part of a telemetry packet that a proposal is checked against. -/
structure TelemetryPacket where
  packetId : String
  targetHashes : TargetHashes
  evidenceRefs : List String
  evidenceRefs_nodup : evidenceRefs.Nodup := by decide

/-! ## Proposals -/

/-- Exactly the value of the argument's own kind may be set. -/
def ActiveValue (kind : ArgumentValueKind) (integerValue : ℤ) (booleanValue : Bool)
    (symbolValue resourceRef : String) : Prop :=
  match kind with
  | .integer => booleanValue = false ∧ symbolValue = "" ∧ resourceRef = ""
  | .boolean => integerValue = 0 ∧ symbolValue = "" ∧ resourceRef = ""
  | .symbol => symbolValue ≠ "" ∧ integerValue = 0 ∧ booleanValue = false ∧ resourceRef = ""
  | .resource => resourceRef ≠ "" ∧ integerValue = 0 ∧ booleanValue = false ∧ symbolValue = ""

instance (kind : ArgumentValueKind) (integerValue : ℤ) (booleanValue : Bool)
    (symbolValue resourceRef : String) :
    Decidable (ActiveValue kind integerValue booleanValue symbolValue resourceRef) := by
  cases kind <;> exact inferInstanceAs (Decidable (_ ∧ _))

structure SymbolicArgument where
  name : String
  kind : ArgumentValueKind
  integerValue : ℤ := 0
  booleanValue : Bool := false
  symbolValue : String := ""
  resourceRef : String := ""
  activeValue : ActiveValue kind integerValue booleanValue symbolValue resourceRef := by decide

structure ResourceBinding where
  resourceRef : String
  resourceKind : String
  quantity : ℕ
  quantity_pos : 1 ≤ quantity := by decide
  quantity_le : quantity ≤ 64 := by decide

structure SymbolicStep where
  stepId : String
  ordinal : ℕ
  operation : String
  ringRef : String
  arguments : List SymbolicArgument
  flags : List String
  linkMode : LinkMode
  expectedResultClasses : List String
  ordinal_le : ordinal ≤ 63 := by decide
  length_arguments : arguments.length ≤ 16 := by decide
  length_flags : flags.length ≤ 16 := by decide
  expectedResultClasses_pos : 1 ≤ expectedResultClasses.length := by decide
  expectedResultClasses_le : expectedResultClasses.length ≤ 8 := by decide
  names_nodup : (arguments.map SymbolicArgument.name).Nodup := by decide
  flags_nodup : flags.Nodup := by decide

/-- The step whose checks all hold. -/
def SymbolicStep.of (stepId : String) (ordinal : ℕ) (operation ringRef : String)
    (arguments : List SymbolicArgument) (flags : List String) (linkMode : LinkMode)
    (expectedResultClasses : List String)
    (h : (ordinal ≤ 63 ∧ arguments.length ≤ 16 ∧ flags.length ≤ 16) ∧
      (1 ≤ expectedResultClasses.length ∧ expectedResultClasses.length ≤ 8) ∧
      (arguments.map SymbolicArgument.name).Nodup ∧ flags.Nodup := by decide) : SymbolicStep where
  stepId := stepId
  ordinal := ordinal
  operation := operation
  ringRef := ringRef
  arguments := arguments
  flags := flags
  linkMode := linkMode
  expectedResultClasses := expectedResultClasses
  ordinal_le := h.1.1
  length_arguments := h.1.2.1
  length_flags := h.1.2.2
  expectedResultClasses_pos := h.2.1.1
  expectedResultClasses_le := h.2.1.2
  names_nodup := h.2.2.1
  flags_nodup := h.2.2.2

structure Perturbation where
  kind : String
  targetStepId : String
  magnitude : ℕ
  magnitude_le : magnitude ≤ 1000000 := by decide

structure PlannerProgram where
  programId : String
  lane : LaneKind
  ringProfileId : String
  resources : List ResourceBinding
  steps : List SymbolicStep
  perturbations : List Perturbation
  requestedLocalVariants : ℕ
  length_resources : resources.length ≤ 16 := by decide
  steps_pos : 1 ≤ steps.length := by decide
  steps_le : steps.length ≤ 64 := by decide
  length_perturbations : perturbations.length ≤ 8 := by decide
  variants_pos : 1 ≤ requestedLocalVariants := by decide
  variants_le : requestedLocalVariants ≤ 32 := by decide
  resourceRefs_nodup : (resources.map ResourceBinding.resourceRef).Nodup := by decide
  stepIds_nodup : (steps.map SymbolicStep.stepId).Nodup := by decide
  ordinals : steps.map SymbolicStep.ordinal = List.range steps.length := by decide
  resources_declared : ∀ step ∈ steps, ∀ argument ∈ step.arguments,
    argument.kind = .resource → argument.resourceRef ∈ resources.map ResourceBinding.resourceRef
    := by decide
  perturbations_known : ∀ perturbation ∈ perturbations,
    perturbation.targetStepId ∈ steps.map SymbolicStep.stepId := by decide

/-- The program whose checks all hold. -/
def PlannerProgram.of (programId : String) (lane : LaneKind) (ringProfileId : String)
    (resources : List ResourceBinding) (steps : List SymbolicStep)
    (perturbations : List Perturbation) (requestedLocalVariants : ℕ)
    (h : ((resources.length ≤ 16 ∧ perturbations.length ≤ 8) ∧
        (1 ≤ steps.length ∧ steps.length ≤ 64) ∧
        1 ≤ requestedLocalVariants ∧ requestedLocalVariants ≤ 32) ∧
      ((resources.map ResourceBinding.resourceRef).Nodup ∧
        (steps.map SymbolicStep.stepId).Nodup ∧
        steps.map SymbolicStep.ordinal = List.range steps.length) ∧
      (∀ step ∈ steps, ∀ argument ∈ step.arguments, argument.kind = .resource →
        argument.resourceRef ∈ resources.map ResourceBinding.resourceRef) ∧
      ∀ perturbation ∈ perturbations,
        perturbation.targetStepId ∈ steps.map SymbolicStep.stepId := by decide) :
    PlannerProgram where
  programId := programId
  lane := lane
  ringProfileId := ringProfileId
  resources := resources
  steps := steps
  perturbations := perturbations
  requestedLocalVariants := requestedLocalVariants
  length_resources := h.1.1.1
  steps_pos := h.1.2.1.1
  steps_le := h.1.2.1.2
  length_perturbations := h.1.1.2
  variants_pos := h.1.2.2.1
  variants_le := h.1.2.2.2
  resourceRefs_nodup := h.2.1.1
  stepIds_nodup := h.2.1.2.1
  ordinals := h.2.1.2.2
  resources_declared := h.2.2.1
  perturbations_known := h.2.2.2

structure ResearchPriority where
  priorityId : String
  evidenceRefs : List String
  operationFamilies : List String
  ringProfileIds : List String
  preferredLanes : List LaneKind
  evidenceRefs_pos : 1 ≤ evidenceRefs.length := by decide
  evidenceRefs_le : evidenceRefs.length ≤ 12 := by decide
  operationFamilies_pos : 1 ≤ operationFamilies.length := by decide
  operationFamilies_le : operationFamilies.length ≤ 16 := by decide
  ringProfileIds_pos : 1 ≤ ringProfileIds.length := by decide
  ringProfileIds_le : ringProfileIds.length ≤ 8 := by decide
  preferredLanes_pos : 1 ≤ preferredLanes.length := by decide
  preferredLanes_le : preferredLanes.length ≤ 2 := by decide
  evidenceRefs_nodup : evidenceRefs.Nodup := by decide
  operationFamilies_nodup : operationFamilies.Nodup := by decide
  ringProfileIds_nodup : ringProfileIds.Nodup := by decide
  preferredLanes_nodup : preferredLanes.Nodup := by decide

/-- The three shapes of a proposal: an abstention, an analysis, or programs. -/
def AbstentionShape (abstain : Bool) (abstainReason : String) (analysisOnly : Bool)
    (priorities programs : ℕ) : Prop :=
  if abstain then
    analysisOnly = false ∧ programs = 0 ∧ priorities = 0 ∧ abstainReason ≠ ""
  else if analysisOnly then
    programs = 0 ∧ priorities ≠ 0 ∧ abstainReason = ""
  else
    programs ≠ 0 ∧ priorities = 0 ∧ abstainReason = ""

instance (abstain : Bool) (abstainReason : String) (analysisOnly : Bool)
    (priorities programs : ℕ) :
    Decidable (AbstentionShape abstain abstainReason analysisOnly priorities programs) := by
  unfold AbstentionShape
  infer_instance

structure PlannerProposal where
  proposalId : String
  packetId : String
  targetHashes : TargetHashes
  hypothesisEvidenceRefs : List String
  abstain : Bool
  abstainReason : String
  analysisOnly : Bool
  researchPriorities : List ResearchPriority
  programs : List PlannerProgram
  hypothesisEvidenceRefs_pos : 1 ≤ hypothesisEvidenceRefs.length := by decide
  hypothesisEvidenceRefs_le : hypothesisEvidenceRefs.length ≤ 16 := by decide
  length_researchPriorities : researchPriorities.length ≤ 8 := by decide
  length_programs : programs.length ≤ 4 := by decide
  shape : AbstentionShape abstain abstainReason analysisOnly researchPriorities.length
    programs.length := by decide
  priorityIds_nodup : (researchPriorities.map ResearchPriority.priorityId).Nodup := by decide
  programIds_nodup : (programs.map PlannerProgram.programId).Nodup := by decide

/-! ## The harness contract -/

/-- The shape of an argument specification. -/
def ArgumentShape (kind : HarnessArgumentKind) (byteWidth : ℕ) (byteOrder : ByteOrder)
    (minimumValue maximumValue : ℤ) (enumSymbols : List String) (resourceKind : String) : Prop :=
  minimumValue ≤ maximumValue ∧
    (match kind with
      | .enum => enumSymbols ≠ [] ∧ resourceKind = ""
      | .resource => resourceKind ≠ "" ∧ enumSymbols = []
      | _ => enumSymbols = [] ∧ resourceKind = "") ∧
    (byteWidth = 0 ↔ byteOrder = .notApplicable)

instance (kind : HarnessArgumentKind) (byteWidth : ℕ) (byteOrder : ByteOrder)
    (minimumValue maximumValue : ℤ) (enumSymbols : List String) (resourceKind : String) :
    Decidable (ArgumentShape kind byteWidth byteOrder minimumValue maximumValue enumSymbols
      resourceKind) := by
  cases kind <;> exact inferInstanceAs (Decidable (_ ∧ _ ∧ _))

structure HarnessArgumentSpec where
  name : String
  kind : HarnessArgumentKind
  byteWidth : ℕ
  signed : Bool
  byteOrder : ByteOrder
  minimumValue : ℤ
  maximumValue : ℤ
  enumSymbols : List String
  resourceKind : String
  byteWidth_le : byteWidth ≤ 8 := by decide
  length_enumSymbols : enumSymbols.length ≤ 64 := by decide
  shape : ArgumentShape kind byteWidth byteOrder minimumValue maximumValue enumSymbols resourceKind
    := by decide

structure HarnessProfile where
  profileId : String
  selectorValue : ℕ
  setupFlags : List String
  allowedLanes : List LaneKind
  selectorValue_le : selectorValue ≤ 255 := by decide
  length_setupFlags : setupFlags.length ≤ 16 := by decide
  allowedLanes_pos : 1 ≤ allowedLanes.length := by decide
  allowedLanes_le : allowedLanes.length ≤ 2 := by decide

structure HarnessResourceSpec where
  resourceKind : String
  maxInstances : ℕ
  maxInstances_pos : 1 ≤ maxInstances := by decide
  maxInstances_le : maxInstances ≤ 64 := by decide

structure HarnessFlagSpec where
  symbol : String
  bitValue : ℕ
  bitValue_pos : 1 ≤ bitValue := by decide
  bitValue_le : bitValue ≤ 4294967295 := by decide

structure HarnessOperation where
  symbol : String
  selectorModulusValue : ℕ
  arguments : List HarnessArgumentSpec
  allowedFlags : List String
  allowedProfiles : List String
  allowedLanes : List LaneKind
  expectedResultClasses : List String
  selectorModulusValue_le : selectorModulusValue ≤ 255 := by decide
  length_arguments : arguments.length ≤ 16 := by decide
  length_allowedFlags : allowedFlags.length ≤ 16 := by decide
  allowedProfiles_pos : 1 ≤ allowedProfiles.length := by decide
  allowedProfiles_le : allowedProfiles.length ≤ 16 := by decide
  allowedLanes_pos : 1 ≤ allowedLanes.length := by decide
  allowedLanes_le : allowedLanes.length ≤ 2 := by decide
  expectedResultClasses_pos : 1 ≤ expectedResultClasses.length := by decide
  expectedResultClasses_le : expectedResultClasses.length ≤ 16 := by decide

/-- The operation whose checks all hold. -/
def HarnessOperation.of (symbol : String) (selectorModulusValue : ℕ)
    (arguments : List HarnessArgumentSpec) (allowedFlags allowedProfiles : List String)
    (allowedLanes : List LaneKind) (expectedResultClasses : List String)
    (h : (selectorModulusValue ≤ 255 ∧ arguments.length ≤ 16 ∧ allowedFlags.length ≤ 16) ∧
      (1 ≤ allowedProfiles.length ∧ allowedProfiles.length ≤ 16) ∧
      (1 ≤ allowedLanes.length ∧ allowedLanes.length ≤ 2) ∧
      1 ≤ expectedResultClasses.length ∧ expectedResultClasses.length ≤ 16 := by decide) :
    HarnessOperation where
  symbol := symbol
  selectorModulusValue := selectorModulusValue
  arguments := arguments
  allowedFlags := allowedFlags
  allowedProfiles := allowedProfiles
  allowedLanes := allowedLanes
  expectedResultClasses := expectedResultClasses
  selectorModulusValue_le := h.1.1
  length_arguments := h.1.2.1
  length_allowedFlags := h.1.2.2
  allowedProfiles_pos := h.2.1.1
  allowedProfiles_le := h.2.1.2
  allowedLanes_pos := h.2.2.1.1
  allowedLanes_le := h.2.2.1.2
  expectedResultClasses_pos := h.2.2.2.1
  expectedResultClasses_le := h.2.2.2.2

/-- A harness contract that its model accepts: the tables have unique keys, every selector is below
the modulus, and every reference from an operation is to something declared. -/
structure HarnessContract where
  environment : HarnessEnvironment
  verified : Bool
  testOnly : Bool
  targetHashes : TargetHashes
  inputMaxBytes : ℕ
  operationMaxCount : ℕ
  operationSelectorModulus : ℕ
  deterministicCompiler : Bool
  decodeRoundTripVerified : Bool
  profiles : List HarnessProfile
  resources : List HarnessResourceSpec
  flags : List HarnessFlagSpec
  operations : List HarnessOperation
  forbiddenProfileIds : List String
  inputMaxBytes_pos : 1 ≤ inputMaxBytes := by decide
  inputMaxBytes_le : inputMaxBytes ≤ 1048576 := by decide
  operationMaxCount_pos : 1 ≤ operationMaxCount := by decide
  operationMaxCount_le : operationMaxCount ≤ 4096 := by decide
  operationSelectorModulus_pos : 1 ≤ operationSelectorModulus := by decide
  operationSelectorModulus_le : operationSelectorModulus ≤ 256 := by decide
  profiles_pos : 1 ≤ profiles.length := by decide
  profiles_le : profiles.length ≤ 16 := by decide
  resources_le : resources.length ≤ 32 := by decide
  flags_le : flags.length ≤ 64 := by decide
  operations_pos : 1 ≤ operations.length := by decide
  operations_le : operations.length ≤ 256 := by decide
  forbiddenProfileIds_le : forbiddenProfileIds.length ≤ 16 := by decide
  testOnly_iff : testOnly = true ↔ environment ≠ .production := by decide
  profileIds_nodup : (profiles.map HarnessProfile.profileId).Nodup := by decide
  profileSelectors_nodup : (profiles.map HarnessProfile.selectorValue).Nodup := by decide
  resourceKinds_nodup : (resources.map HarnessResourceSpec.resourceKind).Nodup := by decide
  flagSymbols_nodup : (flags.map HarnessFlagSpec.symbol).Nodup := by decide
  operationSymbols_nodup : (operations.map HarnessOperation.symbol).Nodup := by decide
  operationSelectors_nodup : (operations.map HarnessOperation.selectorModulusValue).Nodup
    := by decide
  operationSelectors_lt : ∀ operation ∈ operations,
    operation.selectorModulusValue < operationSelectorModulus := by decide
  allowedProfiles_known : ∀ operation ∈ operations, ∀ profile ∈ operation.allowedProfiles,
    profile ∈ profiles.map HarnessProfile.profileId := by decide
  allowedFlags_known : ∀ operation ∈ operations, ∀ flag ∈ operation.allowedFlags,
    flag ∈ flags.map HarnessFlagSpec.symbol := by decide
  argumentResources_known : ∀ operation ∈ operations, ∀ argument ∈ operation.arguments,
    argument.kind = .resource →
      argument.resourceKind ∈ resources.map HarnessResourceSpec.resourceKind := by decide
  forbiddenProfiles_unknown : ∀ profile ∈ forbiddenProfileIds,
    profile ∉ profiles.map HarnessProfile.profileId := by decide

/-- The contract with another table of operations, none of them on a resource. -/
def HarnessContract.withOperations (contract : HarnessContract) (operationSelectorModulus : ℕ)
    (operations : List HarnessOperation)
    (hmodulus : 1 ≤ operationSelectorModulus ∧ operationSelectorModulus ≤ 256 := by decide)
    (hlength : 1 ≤ operations.length ∧ operations.length ≤ 256 := by decide)
    (hnodup : (operations.map HarnessOperation.symbol).Nodup ∧
      (operations.map HarnessOperation.selectorModulusValue).Nodup := by decide)
    (hknown : ∀ operation ∈ operations,
      operation.selectorModulusValue < operationSelectorModulus ∧
      (∀ profile ∈ operation.allowedProfiles,
        profile ∈ contract.profiles.map HarnessProfile.profileId) ∧
      (∀ flag ∈ operation.allowedFlags, flag ∈ contract.flags.map HarnessFlagSpec.symbol) ∧
      ∀ argument ∈ operation.arguments, argument.kind ≠ .resource := by decide) :
    HarnessContract where
  __ := contract
  operationSelectorModulus := operationSelectorModulus
  operations := operations
  operationSelectorModulus_pos := hmodulus.1
  operationSelectorModulus_le := hmodulus.2
  operations_pos := hlength.1
  operations_le := hlength.2
  operationSymbols_nodup := hnodup.1
  operationSelectors_nodup := hnodup.2
  operationSelectors_lt operation hoperation := (hknown operation hoperation).1
  allowedProfiles_known operation hoperation := (hknown operation hoperation).2.1
  allowedFlags_known operation hoperation := (hknown operation hoperation).2.2.1
  argumentResources_known operation hoperation argument hargument hkind :=
    absurd hkind ((hknown operation hoperation).2.2.2 argument hargument)

end IouAi.Models
