import IouAi.Authority.Decisions
import IouAi.Relay.Agreement
import IouAi.Relay.Operations
import IouAi.Storage.Imports

/-!
# The relay decides for the host

The relay makes the decision of an operator in its own way from the stored event and signs it
(`decisionForEvent`). On an event of the host it says what the host's model of a decision says, field
by field, and its signature is the one that the host computes (`encode_signedDecision`). So the host
verifies what the relay has signed and finds that it agrees with its event; it can refuse it for its
time only (`relay_decision_verifies`).
-/

namespace IouAi.Relay

open Calendar Checks Json Storage.DecisionArchive Threads Wire

variable {sha256 : Sha256} {hmac : Hmac} {env : Env}

/-! ## Rulings -/

def Channel.host : Channel → Authority.Channel
  | .sms => .sms
  | .telegram => .telegram

def Channel.signer : Channel → Authority.SignerId
  | .sms => .relaySms
  | .telegram => .relayTelegram

/-- What an operator decides by a channel: whether the event is denied, who sent it and when it was
issued. -/
structure Ruling where
  channel : Channel
  denied : Bool
  issuedAt : Datetime
  sender : Digest

namespace Ruling

variable (ruling : Ruling)

/-- The part of the decision that is the same for both kinds of events. -/
def core (event : Authority.ApprovalEvent sha256) : Authority.DecisionCore where
  signerId := ruling.channel.signer
  channel := ruling.channel.host
  eventDigest := event.digest
  approvalBindingDigest := event.approval.bindingDigest
  decisionNonce := event.approval.nonce
  humanCode := event.approval.humanCode
  senderBinding := ruling.sender
  issuedAt := timestamp ruling.issuedAt
  expiresAt := event.approval.expiresAt

/-- The decision that the host reads. -/
def decision : Authority.ApprovalEvent sha256 → Authority.Decision
  | .offline event => .human {
      core := ruling.core (.offline event)
      envelopeDigest := event.envelopeDigest
      targetHashes := event.targetHashes
      action := if ruling.denied then .deny else .approveForOfflineValidation
      reasonCode := if ruling.denied then .operatorDenied else .operatorApproved
      signer_human := by
        change ruling.channel.signer ≠ .operatorAuto
        cases ruling.channel <;> decide }
  | .execution event => .execution {
      core := ruling.core (.execution event)
      binding := event.binding
      action := if ruling.denied then .deny else .approveForLiveExecution
      reasonCode := if ruling.denied then .operatorDenied else .operatorApprovedLiveExecution }

theorem eventDigest_decision (event : Authority.ApprovalEvent sha256) :
    (ruling.decision event).core.eventDigest = event.digest := by
  cases event <;> rfl

/-- It agrees with its event. -/
theorem agrees (event : Authority.ApprovalEvent sha256) :
    Authority.Agrees event (ruling.decision event) := by
  cases event with
  | offline event =>
    refine ⟨.offline _ _, rfl, rfl, rfl, rfl, rfl, rfl, ?_, ?_⟩
    · rintro human heq
      cases heq
      cases ruling.denied <;> rfl
    · rintro ready execution heq
      cases heq
  | execution event =>
    refine ⟨.execution _ _, rfl, rfl, rfl, rfl, rfl, rfl, ?_, ?_⟩
    · rintro human heq
      cases heq
    · rintro ready execution hready heq
      cases hready
      cases heq
      refine ⟨rfl, ?_⟩
      cases ruling.denied <;> rfl

end Ruling

/-! ## What the relay says -/

section Says

variable {event : Authority.ApprovalEvent sha256} {command : Command} {ruling : Ruling}
  {fields : List (String × Option Json)} {decision : Json}

/-- The options of a ruling. -/
def Ruling.options (ruling : Ruling) (command : Command) : DecisionOptions where
  channel := ruling.channel
  command := command
  issuedAt := timestampText ruling.issuedAt
  senderBinding := ruling.sender.val

/-- What the relay writes on a quarantined proposal, in its order. -/
def Ruling.offlineFields (ruling : Ruling) (event : ProposalQuarantinedEvent sha256) :
    List (String × Json) :=
  [("action", .str (if ruling.denied then "deny" else "approve_for_offline_validation")),
    ("approval_binding_digest", .str event.approval.bindingDigest),
    ("channel", .str ruling.channel.text), ("decision_nonce", .str event.approval.nonce),
    ("envelope_digest", .str event.envelopeDigest),
    ("event_digest", .str (Authority.ApprovalEvent.offline event).digest),
    ("expires_at", .str event.approval.expiresAt), ("human_code", .str event.approval.humanCode),
    ("issued_at", .str (timestampText ruling.issuedAt)), ("sender_binding", .str ruling.sender),
    ("signer_id", .str ruling.channel.signerId), ("target_hashes", event.targetHashes.toJson),
    ("reason_code", .str (if ruling.denied then "operator_denied" else "operator_approved")),
    ("schema_version", .str "human-decision.v1")]

/-- What the relay writes on an execution, in its order. -/
def Ruling.executionFields (ruling : Ruling) (event : ExecutionReadyEvent sha256) :
    List (String × Json) :=
  [("action", .str (if ruling.denied then "deny" else "approve_for_live_execution")),
    ("artifact_digest", .str event.binding.artifactDigest),
    ("artifact_manifest_digest", .str event.binding.artifactManifestDigest),
    ("artifact_size_bytes", .num event.binding.artifactSizeBytes.val),
    ("candidate_digest", .str event.binding.candidateDigest),
    ("canary_report_digest", .str event.binding.canaryReportDigest),
    ("approval_binding_digest", .str event.approval.bindingDigest),
    ("channel", .str ruling.channel.text), ("decision_nonce", .str event.approval.nonce),
    ("envelope_digest", .str event.binding.envelopeDigest),
    ("event_digest", .str (Authority.ApprovalEvent.execution event).digest),
    ("expires_at", .str event.approval.expiresAt), ("human_code", .str event.approval.humanCode),
    ("issued_at", .str (timestampText ruling.issuedAt)), ("sender_binding", .str ruling.sender),
    ("signer_id", .str ruling.channel.signerId), ("target_hashes", event.binding.targetHashes.toJson),
    ("promotion_scope", event.binding.promotionScope.toJson),
    ("reason_code",
      .str (if ruling.denied then "operator_denied" else "operator_approved_live_execution")),
    ("schema_version", .str "human-decision.v2"),
    ("validation_report_digest", .str event.binding.validationReportDigest)]

def Ruling.written (ruling : Ruling) : Authority.ApprovalEvent sha256 → List (String × Json)
  | .offline event => ruling.offlineFields event
  | .execution event => ruling.executionFields event

/-- On an event of the host the relay writes these fields, or the command is none for the event. -/
theorem decisionForEvent_toJson (hdenied : ruling.denied = (command == .deny))
    (hfields : decisionForEvent event.toEvent.toJson event.digest.val (ruling.options command)
      = .ok fields) (hobject : object fields = .ok decision) :
    decision = .obj (ruling.written event) := by
  obtain ⟨channel, denied, issuedAt, sender⟩ := ruling
  simp only at hdenied
  subst hdenied
  cases event <;> cases command <;> cases hfields <;> cases hobject <;> rfl

/-- The host's model of the decision has the same text. -/
theorem Ruling.encode_written (ruling : Ruling) (event : Authority.ApprovalEvent sha256) :
    python.encode (.obj (ruling.written event)) = python.encode (ruling.decision event).toJson := by
  obtain ⟨channel, denied, issuedAt, sender⟩ := ruling
  cases event with
  | offline event =>
    refine python.encode_obj_congr ?_ ?_
    · change python.sortKeys ["action", "approval_binding_digest", "channel", "decision_nonce",
          "envelope_digest", "event_digest", "expires_at", "human_code", "issued_at",
          "sender_binding", "signer_id", "target_hashes", "reason_code", "schema_version"]
        = python.sortKeys ["schema_version", "signer_id", "channel", "event_digest",
          "envelope_digest", "target_hashes", "approval_binding_digest", "decision_nonce",
          "human_code", "sender_binding", "action", "reason_code", "issued_at", "expires_at"]
      decide +kernel
    · intro key hkey
      simp only [written, offlineFields, List.map_cons, List.map_nil, List.mem_cons,
        List.not_mem_nil, or_false] at hkey
      rcases hkey with rfl | rfl | rfl | rfl | rfl | rfl | rfl | rfl | rfl | rfl | rfl | rfl
        | rfl | rfl <;> cases channel <;> cases denied <;> rfl
  | execution event =>
    refine python.encode_obj_congr ?_ ?_
    · change python.sortKeys ["action", "artifact_digest", "artifact_manifest_digest",
          "artifact_size_bytes", "candidate_digest", "canary_report_digest",
          "approval_binding_digest", "channel", "decision_nonce", "envelope_digest", "event_digest",
          "expires_at", "human_code", "issued_at", "sender_binding", "signer_id", "target_hashes",
          "promotion_scope", "reason_code", "schema_version", "validation_report_digest"]
        = python.sortKeys ["schema_version", "signer_id", "channel", "event_digest",
          "candidate_digest", "envelope_digest", "artifact_manifest_digest", "artifact_digest",
          "artifact_size_bytes", "validation_report_digest", "canary_report_digest",
          "target_hashes", "promotion_scope", "approval_binding_digest", "decision_nonce",
          "human_code", "sender_binding", "action", "reason_code", "issued_at", "expires_at"]
      decide +kernel
    · intro key hkey
      simp only [written, executionFields, List.map_cons, List.map_nil, List.mem_cons,
        List.not_mem_nil, or_false] at hkey
      rcases hkey with rfl | rfl | rfl | rfl | rfl | rfl | rfl | rfl | rfl | rfl | rfl | rfl
        | rfl | rfl | rfl | rfl | rfl | rfl | rfl | rfl | rfl <;> cases channel <;> cases denied
        <;> rfl

theorem isPrintable_timestampText (instant : Datetime) :
    isPrintable (timestampText instant) = true := by
  refine isPrintable_of_timestampFields ?_
  rw [timestampFields_timestampText]
  rfl

theorem Ruling.printable_written (ruling : Ruling) (event : Authority.ApprovalEvent sha256)
    (hexpiry : isPrintable event.approval.expiresAt = true) :
    Printable (.obj (ruling.written event)) := by
  have hissued := isPrintable_timestampText ruling.issuedAt
  have hchannel : isPrintable ruling.channel.text = true ∧
      isPrintable ruling.channel.signerId = true := by
    cases ruling.channel <;> decide
  have htexts : isPrintable "deny" = true ∧ isPrintable "approve_for_offline_validation" = true ∧
      isPrintable "approve_for_live_execution" = true ∧ isPrintable "operator_denied" = true ∧
      isPrintable "operator_approved" = true ∧
      isPrintable "operator_approved_live_execution" = true ∧
      isPrintable "human-decision.v1" = true ∧ isPrintable "human-decision.v2" = true := by
    decide
  cases event with
  | offline event =>
    refine printable_obj ["action", "approval_binding_digest", "channel", "decision_nonce",
      "envelope_digest", "event_digest", "expires_at", "human_code", "issued_at", "sender_binding",
      "signer_id", "target_hashes", "reason_code", "schema_version"] rfl (by decide) ?_
    cases hdenied : ruling.denied <;>
      simp_all [written, offlineFields, Printable, isPrintable_digest, isPrintable_nonce,
        isPrintable_humanCode, printable_targetHashes, Authority.ApprovalEvent.approval]
  | execution event =>
    refine printable_obj ["action", "artifact_digest", "artifact_manifest_digest",
      "artifact_size_bytes", "candidate_digest", "canary_report_digest", "approval_binding_digest",
      "channel", "decision_nonce", "envelope_digest", "event_digest", "expires_at", "human_code",
      "issued_at", "sender_binding", "signer_id", "target_hashes", "promotion_scope", "reason_code",
      "schema_version", "validation_report_digest"] rfl (by decide) ?_
    cases hdenied : ruling.denied <;>
      simp_all [written, executionFields, Printable, isPrintable_digest, isPrintable_nonce,
        isPrintable_humanCode, printable_targetHashes, printable_promotionScope,
        Authority.ApprovalEvent.approval]

/-- The relay's signed decision is, as text, the host's decision under the host's signature. -/
theorem encode_signedDecision {key : Authority.VerificationKey} {secret : String}
    (hkey : key.val = utf8 secret) (hexpiry : isPrintable event.approval.expiresAt = true)
    (hdenied : ruling.denied = (command == .deny))
    (hfields : decisionForEvent event.toEvent.toJson event.digest.val (ruling.options command)
      = .ok fields) (hobject : object fields = .ok decision) :
    python.encode (signedDecision hmac secret decision)
      = python.encode (Authority.signDecision hmac key (ruling.decision event)).toJson := by
  have hdecision := decisionForEvent_toJson hdenied hfields hobject
  have htext : python.encode decision = python.encode (ruling.decision event).toJson := by
    rw [hdecision, ruling.encode_written]
  have hcanonical : canonical decision = python.encode (ruling.decision event).toJson := by
    rw [canonical, ← encode_python_eq_javascript decision
      (hdecision ▸ ruling.printable_written event hexpiry), htext]
  have hsignature : hmacHex hmac secret (canonical decision)
      = (Authority.signatureOf hmac key (ruling.decision event)).val := by
    rw [hmacHex, hcanonical, ← hkey]
    rfl
  rw [signedDecision, hsignature]
  refine python.encode_obj_congr rfl fun key' hkey' => ?_
  simp only [List.map_cons, List.map_nil, List.mem_cons, List.not_mem_nil, or_false] at hkey'
  rcases hkey' with rfl | rfl
  · exact congrArg some htext
  · rfl

/-- Whatever the operator answers on an event of the host, by whatever channel: what the relay signs is
the text of a signed decision that the host verifies under the shared secret, is on the event, and
meets no check of an import but those of its time. -/
theorem relay_decision_verifies {channel : Channel} {instant : Datetime} {sender : Digest}
    {key : Authority.VerificationKey} {secret : String} (hkey : key.val = utf8 secret)
    (hexpiry : isPrintable event.approval.expiresAt = true)
    (hfields : decisionForEvent event.toEvent.toJson event.digest.val
      ⟨channel, command, timestampText instant, sender.val⟩ = .ok fields)
    (hobject : object fields = .ok decision) :
    ∃ signed : Authority.SignedDecision,
      python.encode (signedDecision hmac secret decision) = python.encode signed.toJson ∧
      Authority.verifySignature hmac key signed ∧ signed.eventDigest = event.digest ∧
      ∀ outbox current, Authority.findEvent outbox event.digest = .ok event →
        Authority.checkDecision outbox signed current
          = Authority.checkWindow event signed.decision current := by
  obtain ⟨ruling, hdenied, hoptions⟩ : ∃ ruling : Ruling, ruling.denied = (command == .deny) ∧
      ruling.options command = ⟨channel, command, timestampText instant, sender.val⟩ :=
    ⟨⟨channel, command == .deny, instant, sender⟩, rfl, rfl⟩
  rw [← hoptions] at hfields
  refine ⟨Authority.signDecision hmac key (ruling.decision event),
    encode_signedDecision hkey hexpiry hdenied hfields hobject,
    Authority.verifySignature_signDecision hmac key _, ruling.eventDigest_decision event, ?_⟩
  intro outbox current hevent
  have hfound : Authority.findEvent outbox (ruling.decision event).core.eventDigest = .ok event := by
    rwa [ruling.eventDigest_decision]
  have hbinding := Authority.checkBinding_eq_ok.mpr (ruling.agrees event)
  simp only [Authority.checkDecision, Authority.SignedDecision.eventDigest, Authority.signDecision,
    hfound, ok_bind, hbinding]

theorem isKey_sample : 32 ≤ (utf8 "0123456789abcdef0123456789abcdef").length := by decide +kernel

/-- An approval of the sample proposal by SMS. -/
theorem relay_decision_verifies_sample : ∃ fields decision,
    decisionForEvent (Authority.ApprovalEvent.offline sampleEvent).toEvent.toJson
      (Authority.ApprovalEvent.offline sampleEvent).digest.val
      ⟨.sms, .approve, timestampText sampleInstant, sampleEvent.envelopeDigest.val⟩ = .ok fields ∧
    object fields = .ok decision ∧
    ∃ signed : Authority.SignedDecision,
      python.encode (signedDecision zeroHmac "0123456789abcdef0123456789abcdef" decision)
        = python.encode signed.toJson ∧
      Authority.verifySignature zeroHmac ⟨utf8 "0123456789abcdef0123456789abcdef", isKey_sample⟩
        signed ∧
      signed.eventDigest = (Authority.ApprovalEvent.offline sampleEvent).digest ∧
      ∀ outbox current,
        Authority.findEvent outbox (Authority.ApprovalEvent.offline sampleEvent).digest
          = .ok (.offline sampleEvent) →
        Authority.checkDecision outbox signed current
          = Authority.checkWindow (.offline sampleEvent) signed.decision current := by
  obtain ⟨fields, decision, hfields, hobject⟩ : ∃ fields decision,
      decisionForEvent (Authority.ApprovalEvent.offline sampleEvent).toEvent.toJson
        (Authority.ApprovalEvent.offline sampleEvent).digest.val
        ⟨.sms, .approve, timestampText sampleInstant, sampleEvent.envelopeDigest.val⟩ = .ok fields ∧
      object fields = .ok decision := ⟨_, _, rfl, rfl⟩
  exact ⟨fields, decision, hfields, hobject,
    relay_decision_verifies rfl (isPrintable_timestampText _) hfields hobject⟩

end Says

end IouAi.Relay
