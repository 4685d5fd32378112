import IouAi.Wire.Patterns

/-!
# Redacted events

The six kinds of events of the host outbox. An event carries the proofs of its own validators: a
challenge is bound to the material of its event, amounts and counters are consistent, and a severity
is the one that the evidence allows. `toJson` is the value that the host serializes.
-/

namespace IouAi.Wire

/-- The hash of a hexadecimal payload value. -/
def jsonDigest (sha256 : Sha256) (value : Json) : Digest := contentDigest sha256 (canonicalJson value)

/-! ## Shared parts -/

structure TargetHashes where
  harnessHash : Digest
  compilerHash : Digest
  opTableHash : Digest
  fleetConfigHash : Digest
  deriving DecidableEq

def TargetHashes.toJson (hashes : TargetHashes) : Json :=
  .obj [("harness_hash", .str hashes.harnessHash), ("compiler_hash", .str hashes.compilerHash),
    ("op_table_hash", .str hashes.opTableHash),
    ("fleet_config_hash", .str hashes.fleetConfigHash)]

inductive WorkerSet
  | nativeStable
  | kasanTriage
  deriving DecidableEq

inductive Destination
  | nativeAiSync
  | kasanAiSync
  deriving DecidableEq

def WorkerSet.text : WorkerSet → String
  | .nativeStable => "native_stable"
  | .kasanTriage => "kasan_triage"

def Destination.text : Destination → String
  | .nativeAiSync => "native_ai_sync"
  | .kasanAiSync => "kasan_ai_sync"

/-- The destination of a worker set. -/
def WorkerSet.destination : WorkerSet → Destination
  | .nativeStable => .nativeAiSync
  | .kasanTriage => .kasanAiSync

structure PromotionScope where
  campaignId : Identifier
  destinationId : Destination
  workerSet : WorkerSet
  destination_matches_workers : destinationId = workerSet.destination
  deriving DecidableEq

def PromotionScope.toJson (scope : PromotionScope) : Json :=
  .obj [("schema_version", .str "promotion-scope.v1"), ("campaign_id", .str scope.campaignId),
    ("destination_id", .str scope.destinationId.text), ("worker_set", .str scope.workerSet.text),
    ("mode", .str "afl_foreign_sync_seed"), ("max_artifacts", .num 1)]

/-- One-time material of an approval prompt. -/
structure ApprovalChallenge where
  nonce : Nonce256
  humanCode : HumanCode
  expiresAt : Timestamp
  bindingDigest : Digest
  deriving DecidableEq

def ApprovalChallenge.toJson (challenge : ApprovalChallenge) (positiveAction : String) : Json :=
  .obj [("nonce", .str challenge.nonce), ("human_code", .str challenge.humanCode),
    ("expires_at", .str challenge.expiresAt), ("binding_digest", .str challenge.bindingDigest),
    ("allowed_actions", .arr [.str positiveAction, .str "deny"])]

/-- A size between one byte and the size of the largest artifact. -/
abbrev ArtifactSize := {size : ℕ // 1 ≤ size ∧ size ≤ 2048}

/-! ## Approval events -/

def approvalBindingDigest (sha256 : Sha256) (envelopeDigest : Digest) (targetHashes : TargetHashes)
    (nonce : Nonce256) (humanCode : HumanCode) (expiresAt : Timestamp) : Digest :=
  jsonDigest sha256 (.obj [("envelope_digest", .str envelopeDigest),
    ("expires_at", .str expiresAt), ("human_code", .str humanCode), ("nonce", .str nonce),
    ("target_hashes", targetHashes.toJson)])

/-- What an execution challenge is bound to. -/
structure ExecutionBinding where
  candidateDigest : Digest
  envelopeDigest : Digest
  artifactManifestDigest : Digest
  artifactDigest : Digest
  artifactSizeBytes : ArtifactSize
  validationReportDigest : Digest
  canaryReportDigest : Digest
  targetHashes : TargetHashes
  promotionScope : PromotionScope
  deriving DecidableEq

/-- The binding of one exact live action, apart from every other digest. -/
def executionApprovalBindingDigest (sha256 : Sha256) (binding : ExecutionBinding)
    (nonce : Nonce256) (humanCode : HumanCode) (expiresAt : Timestamp) : Digest :=
  jsonDigest sha256 (.obj [("binding_version", .str "execution-approval-binding.v1"),
    ("event_kind", .str "execution_ready"), ("positive_action", .str "approve_for_live_execution"),
    ("candidate_digest", .str binding.candidateDigest),
    ("envelope_digest", .str binding.envelopeDigest),
    ("artifact_manifest_digest", .str binding.artifactManifestDigest),
    ("artifact_digest", .str binding.artifactDigest),
    ("artifact_size_bytes", .num binding.artifactSizeBytes.val),
    ("validation_report_digest", .str binding.validationReportDigest),
    ("canary_report_digest", .str binding.canaryReportDigest),
    ("target_hashes", binding.targetHashes.toJson),
    ("promotion_scope", binding.promotionScope.toJson), ("nonce", .str nonce),
    ("human_code", .str humanCode), ("expires_at", .str expiresAt)])

structure ProposalQuarantinedEvent (sha256 : Sha256) where
  createdAt : Timestamp
  envelopeDigest : Digest
  proposalHash : Digest
  targetHashes : TargetHashes
  approval : ApprovalChallenge
  challenge_binds_event : approval.bindingDigest = approvalBindingDigest sha256 envelopeDigest
    targetHashes approval.nonce approval.humanCode approval.expiresAt
  deriving DecidableEq

structure ExecutionReadyEvent (sha256 : Sha256) where
  createdAt : Timestamp
  binding : ExecutionBinding
  approval : ApprovalChallenge
  challenge_binds_execution : approval.bindingDigest = executionApprovalBindingDigest sha256
    binding approval.nonce approval.humanCode approval.expiresAt
  deriving DecidableEq

variable {sha256 : Sha256}

def ProposalQuarantinedEvent.toJson (event : ProposalQuarantinedEvent sha256) : Json :=
  .obj [("schema_version", .str "redacted-event.v1"), ("created_at", .str event.createdAt),
    ("event_kind", .str "proposal_quarantined"), ("severity", .str "action_required"),
    ("envelope_digest", .str event.envelopeDigest), ("proposal_hash", .str event.proposalHash),
    ("target_hashes", event.targetHashes.toJson),
    ("approval", event.approval.toJson "approve_for_offline_validation")]

def ExecutionReadyEvent.toJson (event : ExecutionReadyEvent sha256) : Json :=
  .obj [("schema_version", .str "redacted-event.v2"), ("event_kind", .str "execution_ready"),
    ("created_at", .str event.createdAt), ("severity", .str "action_required"),
    ("candidate_digest", .str event.binding.candidateDigest),
    ("envelope_digest", .str event.binding.envelopeDigest),
    ("artifact_manifest_digest", .str event.binding.artifactManifestDigest),
    ("artifact_digest", .str event.binding.artifactDigest),
    ("artifact_size_bytes", .num event.binding.artifactSizeBytes.val),
    ("validation_report_digest", .str event.binding.validationReportDigest),
    ("canary_report_digest", .str event.binding.canaryReportDigest),
    ("target_hashes", event.binding.targetHashes.toJson),
    ("promotion_scope", event.binding.promotionScope.toJson),
    ("approval", event.approval.toJson "approve_for_live_execution")]

/-! ## Budget events -/

inductive BudgetSeverity
  | warning
  | critical
  deriving DecidableEq

def BudgetSeverity.text : BudgetSeverity → String
  | .warning => "warning"
  | .critical => "critical"

structure BudgetThresholdEvent where
  createdAt : Timestamp
  severity : BudgetSeverity
  month : Month
  threshold : ℕ
  effectiveSpend : ℕ
  hardLimit : ℕ
  remaining : ℕ
  threshold_lt_hardLimit : threshold < hardLimit
  threshold_le_effectiveSpend : threshold ≤ effectiveSpend
  remaining_eq : remaining = hardLimit - effectiveSpend
  deriving DecidableEq

def BudgetThresholdEvent.toJson (event : BudgetThresholdEvent) : Json :=
  .obj [("schema_version", .str "redacted-event.v1"), ("created_at", .str event.createdAt),
    ("event_kind", .str "budget_threshold"), ("severity", .str event.severity.text),
    ("month", .str event.month), ("threshold_microdollars", .num event.threshold),
    ("effective_spend_microdollars", .num event.effectiveSpend),
    ("hard_limit_microdollars", .num event.hardLimit),
    ("remaining_microdollars", .num event.remaining)]

/-! ## Counter events -/

inductive Counter
  | crash
  | hang
  deriving DecidableEq

def Counter.eventKind : Counter → String
  | .crash => "crash_counter_increase"
  | .hang => "hang_counter_increase"

structure CounterIncreaseEvent where
  counter : Counter
  createdAt : Timestamp
  campaignId : Identifier
  telemetryPacketDigest : Digest
  targetHashes : TargetHashes
  previousCount : ℕ
  currentCount : ℕ
  increase : ℕ
  previousCount_lt : previousCount < currentCount
  increase_eq : increase = currentCount - previousCount
  deriving DecidableEq

def CounterIncreaseEvent.toJson (event : CounterIncreaseEvent) : Json :=
  .obj [("schema_version", .str "redacted-event.v1"), ("created_at", .str event.createdAt),
    ("severity", .str "attention"), ("campaign_id", .str event.campaignId),
    ("telemetry_packet_digest", .str event.telemetryPacketDigest),
    ("target_hashes", event.targetHashes.toJson), ("previous_count", .num event.previousCount),
    ("current_count", .num event.currentCount), ("increase", .num event.increase),
    ("event_kind", .str event.counter.eventKind)]

/-! ## Triage events -/

inductive BugClass
  | kasanUseAfterFree
  | kasanOutOfBounds
  | kasanDoubleFree
  | kernelNullDereference
  | kernelGeneralProtectionFault
  | kernelOopsOther
  | harnessExit
  | timeout
  | unknown
  deriving DecidableEq

def BugClass.text : BugClass → String
  | .kasanUseAfterFree => "kasan_use_after_free"
  | .kasanOutOfBounds => "kasan_out_of_bounds"
  | .kasanDoubleFree => "kasan_double_free"
  | .kernelNullDereference => "kernel_null_dereference"
  | .kernelGeneralProtectionFault => "kernel_general_protection_fault"
  | .kernelOopsOther => "kernel_oops_other"
  | .harnessExit => "harness_exit"
  | .timeout => "timeout"
  | .unknown => "unknown"

/-- The classes of memory-safety bugs. -/
def BugClass.isHighValue : BugClass → Bool
  | .kasanUseAfterFree | .kasanOutOfBounds | .kasanDoubleFree => true
  | _ => false

inductive TriageSeverity
  | attention
  | urgent
  deriving DecidableEq

def TriageSeverity.text : TriageSeverity → String
  | .attention => "attention"
  | .urgent => "urgent"

structure CrashTriageEvent where
  createdAt : Timestamp
  severity : TriageSeverity
  campaignId : Identifier
  telemetryPacketDigest : Digest
  targetHashes : TargetHashes
  stackSignature : Digest
  bugClass : BugClass
  reproductions : ℕ
  kernelContextConfirmed : Bool
  potentialHighValue : Bool
  reproductions_mem : 1 ≤ reproductions ∧ reproductions ≤ 16
  potentialHighValue_eq : potentialHighValue
    = (decide (2 ≤ reproductions) && kernelContextConfirmed && bugClass.isHighValue)
  urgent_iff : severity = .urgent ↔ potentialHighValue = true
  deriving DecidableEq

def CrashTriageEvent.toJson (event : CrashTriageEvent) : Json :=
  .obj [("schema_version", .str "redacted-event.v1"), ("created_at", .str event.createdAt),
    ("event_kind", .str "crash_triage"), ("severity", .str event.severity.text),
    ("campaign_id", .str event.campaignId),
    ("telemetry_packet_digest", .str event.telemetryPacketDigest),
    ("target_hashes", event.targetHashes.toJson),
    ("stack_signature", .str event.stackSignature), ("bug_class", .str event.bugClass.text),
    ("reproductions", .num event.reproductions),
    ("kernel_context_confirmed", .bool event.kernelContextConfirmed),
    ("potential_high_value", .bool event.potentialHighValue)]

/-! ## Events -/

/-- An event of the outbox. -/
inductive RedactedEvent (sha256 : Sha256)
  | proposalQuarantined (event : ProposalQuarantinedEvent sha256)
  | executionReady (event : ExecutionReadyEvent sha256)
  | budgetThreshold (event : BudgetThresholdEvent)
  | counterIncrease (event : CounterIncreaseEvent)
  | crashTriage (event : CrashTriageEvent)
  deriving DecidableEq

namespace RedactedEvent

def toJson : RedactedEvent sha256 → Json
  | .proposalQuarantined event => event.toJson
  | .executionReady event => event.toJson
  | .budgetThreshold event => event.toJson
  | .counterIncrease event => event.toJson
  | .crashTriage event => event.toJson

/-- `_event_digest`. -/
def digest (event : RedactedEvent sha256) : Digest := jsonDigest sha256 event.toJson

def createdAt : RedactedEvent sha256 → Timestamp
  | .proposalQuarantined event => event.createdAt
  | .executionReady event => event.createdAt
  | .budgetThreshold event => event.createdAt
  | .counterIncrease event => event.createdAt
  | .crashTriage event => event.createdAt

/-- The challenge of an event that asks for an approval. -/
def approval? : RedactedEvent sha256 → Option ApprovalChallenge
  | .proposalQuarantined event => some event.approval
  | .executionReady event => some event.approval
  | _ => none

/-- The integers that the event carries. -/
def integers : RedactedEvent sha256 → List ℕ
  | .proposalQuarantined _ => []
  | .executionReady event => [event.binding.artifactSizeBytes]
  | .budgetThreshold event =>
    [event.threshold, event.effectiveSpend, event.hardLimit, event.remaining]
  | .counterIncrease event => [event.previousCount, event.currentCount, event.increase]
  | .crashTriage event => [event.reproductions]

end RedactedEvent

end IouAi.Wire
