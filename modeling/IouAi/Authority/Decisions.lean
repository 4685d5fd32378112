import IouAi.Foundations.Archive
import IouAi.Foundations.Checks
import IouAi.Wire.Prompts

/-!
# Signed decisions

The decisions of operators on approval events, signed under the shared key, and the archive that
they are imported into (`importSigned`). A decision that the archive knows is accepted again without
further checks; another one on the same event is refused; a new one must agree with its event in
every field and come in time.
-/

namespace IouAi.Authority

open Calendar Checks Wire

/-! ## Decisions -/

inductive Channel
  | sms | telegram | operator
  deriving DecidableEq

def Channel.text : Channel → String
  | .sms => "sms"
  | .telegram => "telegram"
  | .operator => "operator"

/-- Who signs a decision. The unattended signer is never taken for a human one, and signs no offline
decisions. -/
inductive SignerId
  | relaySms | relayTelegram | operatorLocal | operatorAuto
  deriving DecidableEq

def SignerId.text : SignerId → String
  | .relaySms => "relay:sms-v1"
  | .relayTelegram => "relay:telegram-v1"
  | .operatorLocal => "operator:local-v1"
  | .operatorAuto => "operator:auto-v1"

/-- What a decision says of its event, whatever the kind of the event. -/
structure DecisionCore where
  signerId : SignerId
  channel : Channel
  eventDigest : Digest
  approvalBindingDigest : Digest
  decisionNonce : Nonce256
  humanCode : HumanCode
  senderBinding : Digest
  issuedAt : Timestamp
  expiresAt : Timestamp
  deriving DecidableEq

inductive OfflineAction
  | approveForOfflineValidation | deny
  deriving DecidableEq

inductive OfflineReason
  | operatorApproved | operatorDenied
  deriving DecidableEq

structure HumanDecision where
  core : DecisionCore
  envelopeDigest : Digest
  targetHashes : TargetHashes
  action : OfflineAction
  reasonCode : OfflineReason
  signer_human : core.signerId ≠ .operatorAuto
  deriving DecidableEq

inductive ExecutionAction
  | approveForLiveExecution | deny
  deriving DecidableEq

inductive ExecutionReason
  | operatorApprovedLiveExecution | operatorDenied
  deriving DecidableEq

structure ExecutionDecision where
  core : DecisionCore
  binding : ExecutionBinding
  action : ExecutionAction
  reasonCode : ExecutionReason
  deriving DecidableEq

def OfflineAction.text : OfflineAction → String
  | .approveForOfflineValidation => "approve_for_offline_validation"
  | .deny => "deny"

def OfflineReason.text : OfflineReason → String
  | .operatorApproved => "operator_approved"
  | .operatorDenied => "operator_denied"

def ExecutionAction.text : ExecutionAction → String
  | .approveForLiveExecution => "approve_for_live_execution"
  | .deny => "deny"

def ExecutionReason.text : ExecutionReason → String
  | .operatorApprovedLiveExecution => "operator_approved_live_execution"
  | .operatorDenied => "operator_denied"

inductive Decision
  | human (decision : HumanDecision)
  | execution (decision : ExecutionDecision)
  deriving DecidableEq

namespace Decision

def core : Decision → DecisionCore
  | human decision => decision.core
  | execution decision => decision.core

def envelopeDigest : Decision → Digest
  | human decision => decision.envelopeDigest
  | execution decision => decision.binding.envelopeDigest

def targetHashes : Decision → TargetHashes
  | human decision => decision.targetHashes
  | execution decision => decision.binding.targetHashes

def toJson : Decision → Json
  | human decision => .obj [("schema_version", .str "human-decision.v1"),
      ("signer_id", .str decision.core.signerId.text),
      ("channel", .str decision.core.channel.text), ("event_digest", .str decision.core.eventDigest),
      ("envelope_digest", .str decision.envelopeDigest),
      ("target_hashes", decision.targetHashes.toJson),
      ("approval_binding_digest", .str decision.core.approvalBindingDigest),
      ("decision_nonce", .str decision.core.decisionNonce),
      ("human_code", .str decision.core.humanCode),
      ("sender_binding", .str decision.core.senderBinding), ("action", .str decision.action.text),
      ("reason_code", .str decision.reasonCode.text), ("issued_at", .str decision.core.issuedAt),
      ("expires_at", .str decision.core.expiresAt)]
  | execution decision => .obj [("schema_version", .str "human-decision.v2"),
      ("signer_id", .str decision.core.signerId.text),
      ("channel", .str decision.core.channel.text), ("event_digest", .str decision.core.eventDigest),
      ("candidate_digest", .str decision.binding.candidateDigest),
      ("envelope_digest", .str decision.binding.envelopeDigest),
      ("artifact_manifest_digest", .str decision.binding.artifactManifestDigest),
      ("artifact_digest", .str decision.binding.artifactDigest),
      ("artifact_size_bytes", .num decision.binding.artifactSizeBytes.val),
      ("validation_report_digest", .str decision.binding.validationReportDigest),
      ("canary_report_digest", .str decision.binding.canaryReportDigest),
      ("target_hashes", decision.binding.targetHashes.toJson),
      ("promotion_scope", decision.binding.promotionScope.toJson),
      ("approval_binding_digest", .str decision.core.approvalBindingDigest),
      ("decision_nonce", .str decision.core.decisionNonce),
      ("human_code", .str decision.core.humanCode),
      ("sender_binding", .str decision.core.senderBinding), ("action", .str decision.action.text),
      ("reason_code", .str decision.reasonCode.text), ("issued_at", .str decision.core.issuedAt),
      ("expires_at", .str decision.core.expiresAt)]

end Decision

abbrev Signature := {text : String // isHex64 text = true}

structure SignedDecision where
  decision : Decision
  signatureHmacSha256 : Signature
  deriving DecidableEq

namespace SignedDecision

variable (signed : SignedDecision)

def toJson : Json :=
  .obj [("decision", signed.decision.toJson),
    ("signature_hmac_sha256", .str signed.signatureHmacSha256)]

def payload : Bytes := canonicalJson signed.toJson

/-- The event that the decision is on. -/
def eventDigest : Digest := signed.decision.core.eventDigest

end SignedDecision

/-! ## Signatures -/

/-- HMAC-SHA256 of a message under a key. -/
abbrev HmacSha256 := Bytes → Bytes → Vector UInt8 32

/-- A shared secret of at least thirty-two bytes. -/
abbrev VerificationKey := {key : Bytes // 32 ≤ key.length}

section Signatures

variable (hmac : HmacSha256) (key : VerificationKey)

/-- `_signature`. -/
def signatureOf (decision : Decision) : Signature := nonceOf (hmac key (canonicalJson decision.toJson))

def signDecision (decision : Decision) : SignedDecision := ⟨decision, signatureOf hmac key decision⟩

def verifySignature (signed : SignedDecision) : Prop :=
  signatureOf hmac key signed.decision = signed.signatureHmacSha256

instance (signed : SignedDecision) : Decidable (verifySignature hmac key signed) :=
  inferInstanceAs (Decidable (_ = _))

theorem verifySignature_signDecision (decision : Decision) :
    verifySignature hmac key (signDecision hmac key decision) := rfl

end Signatures

/-! ## The import of a decision -/

inductive DecisionError
  | signature
  | itemUnavailable
  | itemUnbounded
  | itemDigest
  | itemInvalid
  | itemNotCanonical
  | terminalDecision
  | outbox
  | unknownEvent
  | executionOnOffline
  | offlineOnExecution
  | envelope
  | targets
  | approvalBinding
  | nonce
  | code
  | expiration
  | executionFields
  | reason
  | timestamp
  | issueTime
  | expired
  | dateOverflow
  | digestCollision
  | interrupted
  deriving DecidableEq

variable {sha256 : Sha256}

/-- An event that asks for an approval. -/
inductive ApprovalEvent (sha256 : Sha256)
  | offline (event : ProposalQuarantinedEvent sha256)
  | execution (event : ExecutionReadyEvent sha256)
  deriving DecidableEq

namespace ApprovalEvent

def toEvent : ApprovalEvent sha256 → RedactedEvent sha256
  | offline event => .proposalQuarantined event
  | execution event => .executionReady event

def digest (event : ApprovalEvent sha256) : Digest := event.toEvent.digest

def createdAt : ApprovalEvent sha256 → Timestamp
  | offline event => event.createdAt
  | execution event => event.createdAt

def approval : ApprovalEvent sha256 → ApprovalChallenge
  | offline event => event.approval
  | execution event => event.approval

def envelopeDigest : ApprovalEvent sha256 → Digest
  | offline event => event.envelopeDigest
  | execution event => event.binding.envelopeDigest

def targetHashes : ApprovalEvent sha256 → TargetHashes
  | offline event => event.targetHashes
  | execution event => event.binding.targetHashes

end ApprovalEvent

def approvalEvent? : RedactedEvent sha256 → Option (ApprovalEvent sha256)
  | .proposalQuarantined event => some (.offline event)
  | .executionReady event => some (.execution event)
  | _ => none

/-- `_find_event`. The events are read in the order of their file names. -/
def findEvent (outbox : Outbox sha256) (digest : Digest) :
    Except DecisionError (ApprovalEvent sha256) :=
  match (outbox.filterMap approvalEvent?).find? fun event => event.digest = digest with
  | some event => .ok event
  | none => .error .unknownEvent

theorem findEvent_singleton (event : ApprovalEvent sha256) :
    findEvent [event.toEvent] event.digest = .ok event := by
  cases event <;> simp [findEvent, approvalEvent?, ApprovalEvent.toEvent]

/-- The decision is of the kind of its event. -/
def checkKind : ApprovalEvent sha256 → Decision → Except DecisionError Unit
  | .offline _, .execution _ => .error .executionOnOffline
  | .execution _, .human _ => .error .offlineOnExecution
  | _, _ => .ok ()

def HumanDecision.expectedReason (decision : HumanDecision) : OfflineReason :=
  match decision.action with
  | .approveForOfflineValidation => .operatorApproved
  | .deny => .operatorDenied

def ExecutionDecision.expectedReason (decision : ExecutionDecision) : ExecutionReason :=
  match decision.action with
  | .approveForLiveExecution => .operatorApprovedLiveExecution
  | .deny => .operatorDenied

/-- `execution_fields_match`. The envelope and the targets are compared before. -/
structure ExecutionFieldsMatch (binding other : ExecutionBinding) : Prop where
  candidate : binding.candidateDigest = other.candidateDigest
  manifest : binding.artifactManifestDigest = other.artifactManifestDigest
  artifact : binding.artifactDigest = other.artifactDigest
  size : binding.artifactSizeBytes = other.artifactSizeBytes
  validation : binding.validationReportDigest = other.validationReportDigest
  canary : binding.canaryReportDigest = other.canaryReportDigest
  scope : binding.promotionScope = other.promotionScope

instance (binding other : ExecutionBinding) : Decidable (ExecutionFieldsMatch binding other) :=
  decidable_of_iff (binding.candidateDigest = other.candidateDigest
      ∧ binding.artifactManifestDigest = other.artifactManifestDigest
      ∧ binding.artifactDigest = other.artifactDigest
      ∧ binding.artifactSizeBytes = other.artifactSizeBytes
      ∧ binding.validationReportDigest = other.validationReportDigest
      ∧ binding.canaryReportDigest = other.canaryReportDigest
      ∧ binding.promotionScope = other.promotionScope)
    ⟨fun ⟨h₁, h₂, h₃, h₄, h₅, h₆, h₇⟩ => ⟨h₁, h₂, h₃, h₄, h₅, h₆, h₇⟩,
      fun ⟨h₁, h₂, h₃, h₄, h₅, h₆, h₇⟩ => ⟨h₁, h₂, h₃, h₄, h₅, h₆, h₇⟩⟩

/-- The fields of a live execution and the reason of a decision. The kinds are compared before. -/
def checkReason : ApprovalEvent sha256 → Decision → Except DecisionError Unit
  | .execution event, .execution decision => do
    raiseIf (¬ ExecutionFieldsMatch decision.binding event.binding) .executionFields
    raiseIf (decision.reasonCode ≠ decision.expectedReason) .reason
  | .offline _, .execution _ => .error .executionOnOffline
  | _, .human decision => raiseIf (decision.reasonCode ≠ decision.expectedReason) .reason

/-- The decision agrees with its event. -/
def checkBinding (event : ApprovalEvent sha256) (decision : Decision) :
    Except DecisionError Unit := do
  checkKind event decision
  raiseIf (decision.envelopeDigest ≠ event.envelopeDigest) .envelope
  raiseIf (decision.targetHashes ≠ event.targetHashes) .targets
  raiseIf (decision.core.approvalBindingDigest ≠ event.approval.bindingDigest) .approvalBinding
  raiseIf (decision.core.decisionNonce ≠ event.approval.nonce) .nonce
  raiseIf (decision.core.humanCode ≠ event.approval.humanCode) .code
  raiseIf (decision.core.expiresAt ≠ event.approval.expiresAt) .expiration
  checkReason event decision

/-- `_parse_time`. -/
def parseTime (value : Timestamp) : Except DecisionError Datetime :=
  match instantOf value with
  | some instant => .ok instant
  | none => .error .timestamp

/-- What a decision may be ahead of the host's clock. -/
def clockSkew : ℕ := 5 * 60 * microsPerSecond

/-- The decision comes in time. -/
def checkWindow (event : ApprovalEvent sha256) (decision : Decision) (current : Datetime) :
    Except DecisionError Unit := do
  let issued ← parseTime decision.core.issuedAt
  let expires ← parseTime decision.core.expiresAt
  let created ← parseTime event.createdAt
  raiseIf (issued < created) .issueTime
  match current.add? clockSkew with
  | none => throw .dateOverflow
  | some latest =>
    raiseIf (latest < issued) .issueTime
    raiseIf (expires < current ∨ expires < issued) .expired

/-- What a new decision needs before it is stored. -/
def checkDecision (outbox : Outbox sha256) (signed : SignedDecision) (current : Datetime) :
    Except DecisionError Unit := do
  let event ← findEvent outbox signed.eventDigest
  checkBinding event signed.decision
  checkWindow event signed.decision current

/-! ## When the checks pass -/

section Checked

variable {event : ApprovalEvent sha256} {decision : Decision} {current : Datetime}

/-- The decision is on an event of its own kind. -/
inductive SameKind : ApprovalEvent sha256 → Decision → Prop
  | offline (event : ProposalQuarantinedEvent sha256) (decision : HumanDecision) :
      SameKind (.offline event) (.human decision)
  | execution (event : ExecutionReadyEvent sha256) (decision : ExecutionDecision) :
      SameKind (.execution event) (.execution decision)

/-- The decision repeats what its event says, and its reason goes with its action. -/
structure Agrees (event : ApprovalEvent sha256) (decision : Decision) : Prop where
  kind : SameKind event decision
  envelope : decision.envelopeDigest = event.envelopeDigest
  targets : decision.targetHashes = event.targetHashes
  approvalBinding : decision.core.approvalBindingDigest = event.approval.bindingDigest
  nonce : decision.core.decisionNonce = event.approval.nonce
  code : decision.core.humanCode = event.approval.humanCode
  expiration : decision.core.expiresAt = event.approval.expiresAt
  human : ∀ human, decision = .human human → human.reasonCode = human.expectedReason
  execution : ∀ ready execution, event = .execution ready → decision = .execution execution →
    execution.binding = ready.binding ∧ execution.reasonCode = execution.expectedReason

theorem checkKind_eq_ok {u : Unit} : checkKind event decision = .ok u ↔ SameKind event decision := by
  constructor
  · intro h
    cases event <;> cases decision
    · exact .offline _ _
    · cases h
    · cases h
    · exact .execution _ _
  · rintro (_ | _) <;> rfl

/-- With the envelope and the targets the fields of a live execution make up its whole binding. -/
theorem binding_eq_iff {binding other : ExecutionBinding} :
    binding = other ↔ binding.envelopeDigest = other.envelopeDigest ∧
      binding.targetHashes = other.targetHashes ∧ ExecutionFieldsMatch binding other := by
  constructor
  · rintro rfl
    exact ⟨rfl, rfl, rfl, rfl, rfl, rfl, rfl, rfl, rfl⟩
  · rintro ⟨henvelope, htargets, hfields⟩
    obtain ⟨h₁, h₂, h₃, h₄, h₅, h₆, h₇⟩ := hfields
    cases binding
    cases other
    simp_all

theorem checkReason_eq_ok (hkind : SameKind event decision) :
    checkReason event decision = .ok () ↔
      (∀ human, decision = .human human → human.reasonCode = human.expectedReason) ∧
      ∀ ready execution, event = .execution ready → decision = .execution execution →
        ExecutionFieldsMatch execution.binding ready.binding ∧
          execution.reasonCode = execution.expectedReason := by
  cases hkind with
  | offline event decision => simp [checkReason]
  | execution event decision => simp [checkReason]

theorem checkBinding_eq_ok : checkBinding event decision = .ok () ↔ Agrees event decision := by
  have hreason : SameKind event decision → decision.envelopeDigest = event.envelopeDigest →
      decision.targetHashes = event.targetHashes → (checkReason event decision = .ok () ↔
        (∀ human, decision = .human human → human.reasonCode = human.expectedReason) ∧
        ∀ ready execution, event = .execution ready → decision = .execution execution →
          execution.binding = ready.binding ∧ execution.reasonCode = execution.expectedReason) := by
    intro hkind henvelope htargets
    rw [checkReason_eq_ok hkind]
    refine and_congr_right fun _ => forall₄_congr fun ready execution hready hexecution => ?_
    subst hready hexecution
    rw [binding_eq_iff]
    exact and_congr_left fun _ => ⟨fun h => ⟨henvelope, htargets, h⟩, fun h => h.2.2⟩
  simp only [checkBinding, bind_eq_ok, raiseIf_eq_ok, not_not, checkKind_eq_ok]
  constructor
  · rintro ⟨_, hkind, _, henvelope, _, htargets, _, hbinding, _, hnonce, _, hcode, _, hexpires, h⟩
    obtain ⟨hhuman, hexecution⟩ := (hreason hkind henvelope htargets).mp h
    exact ⟨hkind, henvelope, htargets, hbinding, hnonce, hcode, hexpires, hhuman, hexecution⟩
  · intro h
    exact ⟨(), h.kind, (), h.envelope, (), h.targets, (), h.approvalBinding, (), h.nonce, (), h.code,
      (), h.expiration, (hreason h.kind h.envelope h.targets).mpr ⟨h.human, h.execution⟩⟩

/-- The decision is issued after its event and at most five minutes ahead of the host's clock, and
neither of the two is past its expiration. -/
structure InWindow (event : ApprovalEvent sha256) (decision : Decision) (current : Datetime) :
    Prop where
  times : ∃ issued expires created latest, instantOf decision.core.issuedAt = some issued ∧
    instantOf decision.core.expiresAt = some expires ∧ instantOf event.createdAt = some created ∧
    current.add? clockSkew = some latest ∧
    created ≤ issued ∧ issued ≤ latest ∧ current ≤ expires ∧ issued ≤ expires

theorem not_lt_datetime {instant other : Datetime} : ¬ instant < other ↔ other ≤ instant := Nat.not_lt

theorem parseTime_eq_ok {value : Timestamp} {instant : Datetime} :
    parseTime value = .ok instant ↔ instantOf value = some instant := by
  unfold parseTime
  split <;> simp_all

theorem checkWindow_eq_ok :
    checkWindow event decision current = .ok () ↔ InWindow event decision current := by
  simp only [checkWindow, bind_eq_ok, parseTime_eq_ok, raiseIf_eq_ok, not_lt_datetime]
  constructor
  · rintro ⟨issued, hissued, expires, hexpires, created, hcreated, _, hle, h⟩
    split at h
    · simp at h
    · rename_i latest hlatest
      simp only [raiseIf_bind_eq_ok, raiseIf_eq_ok, not_or, not_lt_datetime] at h
      exact ⟨issued, expires, created, latest, hissued, hexpires, hcreated, hlatest, hle, h.1, h.2⟩
  · rintro ⟨issued, expires, created, latest, hissued, hexpires, hcreated, hlatest, hle, h⟩
    refine ⟨issued, hissued, expires, hexpires, created, hcreated, (), hle, ?_⟩
    rw [hlatest]
    simp only [raiseIf_bind_eq_ok, raiseIf_eq_ok, not_or, not_lt_datetime]
    exact h

end Checked

/-! ## The archive -/

/-- Decisions under the digests of their texts. -/
abbrev DecisionArchive := Archive Digest SignedDecision

section Import

variable (sha256) (hmac : HmacSha256) (key : VerificationKey)

/-- `_decision_file_digest`. -/
def decisionFileDigest (signed : SignedDecision) : Digest := contentDigest sha256 signed.payload

/-- `_read_archive`, in the order of the file names. -/
def readArchive (archive : DecisionArchive) : Except DecisionError (List SignedDecision) :=
  (archive.entries.insertionSort fun entry other => entry.1.val ≤ other.1.val).mapM fun entry => do
    raiseIf (decisionFileDigest sha256 entry.2 ≠ entry.1) .itemDigest
    raiseIf (¬ verifySignature hmac key entry.2) .signature
    return entry.2

/-- What the decisions that are there make of another one: it is among them, it is refused, or it is
new. -/
def scanDecisions (decisions : List SignedDecision) (signed : SignedDecision) :
    Except DecisionError Bool :=
  match decisions.find? fun existing => existing.eventDigest = signed.eventDigest with
  | none => .ok false
  | some existing =>
    if existing.payload = signed.payload then .ok true else .error .terminalDecision

/-- `import_signed`: verify and append one decision. -/
def importSigned (outbox : Outbox sha256) (archive : DecisionArchive) (signed : SignedDecision)
    (current : Datetime) : Except DecisionError DecisionArchive := do
  raiseIf (¬ verifySignature hmac key signed) .signature
  let decisions ← readArchive sha256 hmac key archive
  let known ← scanDecisions decisions signed
  if known then return archive
  checkDecision outbox signed current
  match archive.put (decisionFileDigest sha256 signed) signed with
  | some archive' => return archive'
  | none => throw .digestCollision

end Import

end IouAi.Authority
