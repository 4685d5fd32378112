import IouAi.Contract.Compiler

/-!
# The semantic validator

`validateProposal` is the gate between a planner's proposal and quarantine: the list of checks that
the source makes, in its order, each with its id, its condition and its message, and the report of
them. The checks of a program are in two groups, those of every contract and those of a production
contract (`nativeChecks`).
-/

namespace IouAi.Validator

open Compiler Models

structure ValidationIssue where
  checkId : String
  message : String
  deriving DecidableEq, Repr

structure ValidationReport where
  passedCheckIds : List String
  issues : List ValidationIssue
  deriving DecidableEq, Repr

def ValidationReport.valid (report : ValidationReport) : Prop := report.issues = []

instance (report : ValidationReport) : Decidable report.valid :=
  inferInstanceAs (Decidable (_ = _))

/-- One call of `checks.require`. -/
structure Check where
  checkId : String
  condition : Bool
  message : String

def require (checkId : String) (condition : Prop) [Decidable condition] (message : String) : Check :=
  ⟨checkId, condition, message⟩

/-- Record a check: a passed id once, a failed check with its message. -/
def record (report : ValidationReport) (check : Check) : ValidationReport :=
  if check.condition then
    if check.checkId ∈ report.passedCheckIds then report
    else { report with passedCheckIds := report.passedCheckIds ++ [check.checkId] }
  else
    { report with issues := report.issues ++ [⟨check.checkId, check.message⟩] }

def reportOf (checks : List Check) : ValidationReport := checks.foldl record ⟨[], []⟩

/-- The value of the first integer argument of that name. -/
def integerArgument (step : SymbolicStep) (name : String) : Option ℤ :=
  (step.arguments.find? fun argument => argument.name = name ∧ argument.kind = .integer).map
    SymbolicArgument.integerValue

/-- Whether the contract is authorized for the runtime mode. -/
def modeAuthorized (runtimeMode : String) (contract : HarnessContract) : Prop :=
  (runtimeMode = "mock" ∧ (contract.environment = .mock ∨ contract.environment = .test)) ∨
    (runtimeMode = "shadow" ∧ contract.environment = .production ∧ contract.testOnly = false)

instance (runtimeMode : String) (contract : HarnessContract) :
    Decidable (modeAuthorized runtimeMode contract) :=
  inferInstanceAs (Decidable (_ ∨ _))

section Checks

variable (compilerHash : String) (telemetry : TelemetryPacket) (proposal : PlannerProposal)
  (contract : HarnessContract)

def findProfile (name : String) : Option HarnessProfile :=
  Dict.get? HarnessProfile.profileId contract.profiles name

def findOperation (name : String) : Option HarnessOperation :=
  Dict.get? HarnessOperation.symbol contract.operations name

def findFlag (name : String) : Option HarnessFlagSpec :=
  Dict.get? HarnessFlagSpec.symbol contract.flags name

def findResource (kind : String) : Option HarnessResourceSpec :=
  Dict.get? HarnessResourceSpec.resourceKind contract.resources kind

/-- The checks of every proposal. -/
def bindingChecks (runtimeMode : String) : List Check := [
  require "binding.packet-id" (proposal.packetId = telemetry.packetId)
    "proposal packet_id does not match telemetry",
  require "binding.target-hashes"
    (proposal.targetHashes = telemetry.targetHashes ∧
      telemetry.targetHashes = contract.targetHashes)
    "telemetry, proposal, and harness target hashes differ",
  require "contract.mode" (modeAuthorized runtimeMode contract)
    "mock/test contract cannot authorize an external shadow run",
  require "contract.planner-view" contract.verified
    "semantic harness planner view is not independently verified",
  require "evidence.references"
    (∀ ref ∈ proposal.hypothesisEvidenceRefs ++
        proposal.researchPriorities.flatMap ResearchPriority.evidenceRefs,
      ref ∈ telemetry.evidenceRefs)
    "proposal cites evidence absent from telemetry"]

def abstentionChecks : List Check := [
  require "proposal.abstention"
    (proposal.analysisOnly = false ∧ proposal.researchPriorities.length = 0 ∧
      proposal.programs.length = 0)
    "abstaining proposal contains analysis or programs"]

def priorityChecks (priority : ResearchPriority) : List Check :=
  let idPrefix := "analysis." ++ priority.priorityId
  let selectedProfiles := priority.ringProfileIds.map (findProfile contract)
  [ require (idPrefix ++ ".operations")
      (∀ family ∈ priority.operationFamilies,
        family ∈ contract.operations.map HarnessOperation.symbol)
      "research priority references an unknown operation family",
    require (idPrefix ++ ".profiles")
      ((∀ profile ∈ selectedProfiles, profile.isSome) ∧
        ∀ name ∈ priority.ringProfileIds, name ∉ contract.forbiddenProfileIds)
      "research priority references an unknown or forbidden profile",
    require (idPrefix ++ ".lanes")
      (selectedProfiles.all fun profile => profile.any fun profile =>
        priority.preferredLanes.all fun lane => lane ∈ profile.allowedLanes)
      "research priority lane is not allowed by every selected profile" ]

def analysisChecks : List Check :=
  require "analysis.priority-count"
      (proposal.researchPriorities.length ≠ 0 ∧ proposal.programs.length = 0)
      "analysis-only proposal must contain priorities and no programs" ::
    proposal.researchPriorities.flatMap (priorityChecks contract)

/-! ### The checks of a program -/

/-- The total quantity that a program declares of a resource kind. -/
def resourceTotal (program : PlannerProgram) (kind : String) : ℕ :=
  ((program.resources.filter fun binding => binding.resourceKind = kind).map
    ResourceBinding.quantity).sum

def resourcesValid (program : PlannerProgram) : Bool :=
  program.resources.all fun binding =>
    (findResource contract binding.resourceKind).any fun spec =>
      binding.quantity ≤ spec.maxInstances ∧
        resourceTotal program binding.resourceKind ≤ spec.maxInstances

def linkFlags : List String := ["iosqe_io_link", "iosqe_io_hardlink", "iosqe_io_drain"]

def expectedLinkFlags : LinkMode → List String
  | .none => []
  | .link => ["iosqe_io_link"]
  | .hardLink => ["iosqe_io_hardlink"]
  | .drain => ["iosqe_io_drain"]

/-- Whether one proposed argument fits the specification of its name. -/
def argumentValid (program : PlannerProgram) (operation : HarnessOperation)
    (proposed : SymbolicArgument) : Bool :=
  match Dict.get? HarnessArgumentSpec.name operation.arguments proposed.name with
  | none => false
  | some expected =>
    match expected.kind with
    | .integer => proposed.kind = .integer ∧
        expected.minimumValue ≤ proposed.integerValue ∧
        proposed.integerValue ≤ expected.maximumValue
    | .boolean => proposed.kind = .boolean
    | .enum => proposed.kind = .symbol ∧ proposed.symbolValue ∈ expected.enumSymbols
    | .resource => proposed.kind = .resource ∧
        (Dict.get? ResourceBinding.resourceRef program.resources proposed.resourceRef).any
          fun binding => binding.resourceKind = expected.resourceKind

/-- Whether the arguments of a step are exactly those of the operation, and each of them fits. -/
def argumentsValid (program : PlannerProgram) (operation : HarnessOperation)
    (step : SymbolicStep) : Prop :=
  (∀ name ∈ step.arguments.map SymbolicArgument.name,
      name ∈ operation.arguments.map HarnessArgumentSpec.name) ∧
    (∀ name ∈ operation.arguments.map HarnessArgumentSpec.name,
      name ∈ step.arguments.map SymbolicArgument.name) ∧
    ∀ proposed ∈ step.arguments, argumentValid program operation proposed

instance (program : PlannerProgram) (operation : HarnessOperation) (step : SymbolicStep) :
    Decidable (argumentsValid program operation step) :=
  inferInstanceAs (Decidable (_ ∧ _ ∧ _))

def stepChecks (program : PlannerProgram) (step : SymbolicStep) : List Check :=
  let stepPrefix := "program." ++ program.programId ++ ".step." ++ step.stepId
  [ require (stepPrefix ++ ".ring-ref") (step.ringRef = program.ringProfileId)
      "step ring_ref differs from its program ring profile",
    require (stepPrefix ++ ".operation") (findOperation contract step.operation).isSome
      "unknown harness operation" ] ++
  match findOperation contract step.operation with
  | none => []
  | some operation => [
    require (stepPrefix ++ ".profile") (program.ringProfileId ∈ operation.allowedProfiles)
      "operation is not permitted for this profile",
    require (stepPrefix ++ ".lane") (program.lane ∈ operation.allowedLanes)
      "operation is not permitted in this lane",
    require (stepPrefix ++ ".flags")
      ((∀ flag ∈ step.flags, flag ∈ operation.allowedFlags) ∧
        ∀ flag ∈ step.flags, flag ∈ contract.flags.map HarnessFlagSpec.symbol)
      "step contains an unknown or disallowed flag",
    require (stepPrefix ++ ".link-mode")
      (∀ flag ∈ linkFlags, flag ∈ step.flags ↔ flag ∈ expectedLinkFlags step.linkMode)
      "link_mode conflicts with the selected SQE link flags",
    require (stepPrefix ++ ".outcomes")
      (∀ result ∈ step.expectedResultClasses, result ∈ operation.expectedResultClasses)
      "step expects a result class absent from the harness contract",
    require (stepPrefix ++ ".arguments") (argumentsValid program operation step)
      "operation arguments do not exactly match the typed harness contract" ]

/-! ### The checks of a production contract -/

/-- Link mode `link` or `hard_link`. -/
def isLinked (step : SymbolicStep) : Bool := step.linkMode = .link ∨ step.linkMode = .hardLink

/-- For an operation that refers to a prior request: the argument, the producer and the value. -/
def referenceRequirement : String → Option (String × String × ℤ)
  | "timeout_remove" => some ("user_data", "timeout", 8)
  | "timeout_update" => some ("user_data", "timeout", 8)
  | "poll_remove" => some ("user_data", "poll_add", 6)
  | "poll_update" => some ("old_user_data", "poll_add", 6)
  | _ => none

/-- The selectors of the prior steps whose operation the contract knows. -/
def selectorsOf (steps : List SymbolicStep) : List ℤ :=
  steps.filterMap fun step =>
    (findOperation contract step.operation).map fun operation => operation.selectorModulusValue

/-- Whether a prior step provides buffers in the group. -/
def providesGroup (prior : List SymbolicStep) (group : Option ℤ) : Prop :=
  ∃ item ∈ prior, item.operation = "provide_buffers" ∧
    integerArgument item "buffer_group" = group

instance (prior : List SymbolicStep) (group : Option ℤ) : Decidable (providesGroup prior group) :=
  inferInstanceAs (Decidable (∃ item ∈ prior, _))

/-- The sum of the bit values of a step's flags. -/
def flagSum (step : SymbolicStep) : ℕ :=
  (step.flags.map fun flag => ((findFlag contract flag).map HarnessFlagSpec.bitValue).getD 0).sum

def nativeStepChecks (program : PlannerProgram) (ordinal : ℕ) (step : SymbolicStep) : List Check :=
  let stepPrefix := "program." ++ program.programId ++ ".step." ++ step.stepId
  let prior := program.steps.take ordinal
  (if isLinked step then [
    require (stepPrefix ++ ".native.link-successor") (ordinal + 1 < program.steps.length)
      "a linked request must have a following request"] else []) ++
  (if step.linkMode = .drain then [
    require (stepPrefix ++ ".native.drain-predecessor") (0 < ordinal)
      "a drain request must have prior work to drain"] else []) ++
  (if step.operation = "link_timeout" then [
    require (stepPrefix ++ ".native.link-timeout-predecessor")
      (0 < ordinal ∧ (program.steps[ordinal - 1]?).any isLinked)
      "link_timeout must immediately follow a linked request"] else []) ++
  (match referenceRequirement step.operation with
    | none => []
    | some (argumentName, producer, expectedValue) => [
      require (stepPrefix ++ ".native.reference")
        (producer ∈ prior.map SymbolicStep.operation ∧
          integerArgument step argumentName = some expectedValue)
        "request reference does not match a prior canonical producer"]) ++
  (if step.operation = "cancel" then [
    require (stepPrefix ++ ".native.cancel-reference")
      (selectorsOf contract prior ≠ [] ∧
        (integerArgument step "user_data").any fun value => value ∈ selectorsOf contract prior)
      "cancel user_data must name a prior canonical operation selector"] else []) ++
  (if "iosqe_buffer_select" ∈ step.flags then [
    require (stepPrefix ++ ".native.buffer-provider")
      (providesGroup prior (some (flagSum contract step >>> 4 : ℕ)))
      "buffer selection requires a prior matching provide_buffers step"] else []) ++
  (if step.operation = "remove_buffers" then [
    require (stepPrefix ++ ".native.buffer-remove")
      (providesGroup prior (integerArgument step "buffer_group"))
      "remove_buffers requires a prior matching provider"] else [])

def nativeChecks (program : PlannerProgram) : List Check :=
  let idPrefix := "program." ++ program.programId
  [ -- variant expansion is a separate compiler: only the reviewed base program is accepted
    require (idPrefix ++ ".native.base-only")
      (program.requestedLocalVariants = 1 ∧ program.perturbations.length = 0)
      "production v1 accepts one reviewed base program and no perturbations",
    require (idPrefix ++ ".native.no-fixed-file")
      (∀ step ∈ program.steps, "iosqe_fixed_file" ∉ step.flags)
      "the current harness writes real descriptors before SQE fixed-file interpretation" ] ++
  (program.steps.zipIdx.flatMap fun (step, ordinal) =>
    nativeStepChecks contract program ordinal step) ++
  (if program.ringProfileId = "disabled_until_register" then [
    require (idPrefix ++ ".native.enable-ring")
      (program.steps.head?.any fun first => first.operation = "register_raw" ∧
        (integerArgument first "register_opcode").any fun opcode => opcode % 34 = 12)
      "the disabled ring must begin with IORING_REGISTER_ENABLE_RINGS"] else [])

def programChecks (program : PlannerProgram) : List Check :=
  let idPrefix := "program." ++ program.programId
  let profile := findProfile contract program.ringProfileId
  [ require (idPrefix ++ ".profile")
      (profile.isSome ∧ program.ringProfileId ∉ contract.forbiddenProfileIds)
      "unknown or forbidden ring profile" ] ++
  (match profile with
    | none => []
    | some profile => [
      require (idPrefix ++ ".profile-lane") (program.lane ∈ profile.allowedLanes)
        "program lane is not allowed by ring profile" ]) ++
  [ require (idPrefix ++ ".resources") (resourcesValid contract program)
      "resource declaration is unknown or exceeds harness maximum",
    require (idPrefix ++ ".step-count") (program.steps.length ≤ contract.operationMaxCount)
      "program exceeds harness operation maximum" ] ++
  program.steps.flatMap (stepChecks contract program) ++
  (if contract.environment = .production then nativeChecks contract program else [])

def programsChecks : List Check :=
  [ require "contract.program-gate"
      (contract.deterministicCompiler ∧ contract.decodeRoundTripVerified ∧
        (contract.environment ≠ .production ∨ (status compilerHash (some contract)).enabled))
      "program proposals require a deterministic compiler and verified decoder round trip",
    require "proposal.variant-bound"
      ((proposal.programs.map PlannerProgram.requestedLocalVariants).sum ≤ 64)
      "proposal asks for more than 64 deterministic local variants" ] ++
  proposal.programs.flatMap (programChecks contract)

def proposalChecks (runtimeMode : String) : List Check :=
  bindingChecks telemetry proposal contract runtimeMode ++
    if proposal.abstain then abstentionChecks proposal
    else if proposal.analysisOnly then analysisChecks proposal contract
    else programsChecks compilerHash proposal contract

def validateProposal (runtimeMode : String) : ValidationReport :=
  reportOf (proposalChecks compilerHash telemetry proposal contract runtimeMode)

end Checks

end IouAi.Validator
