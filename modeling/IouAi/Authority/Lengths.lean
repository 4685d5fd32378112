import IouAi.Authority.Decisions
import IouAi.Wire.Texts

/-!
# How long decisions are

Every text in a signed decision is bounded by its pattern, so the decision fits into the bounded
files that the archive reads (`length_payload_le`).
-/

namespace IouAi.Authority

open Wire

/-! ## Texts of a pattern -/

theorem length_of_isDigest (digest : Digest) : digest.val.toList.length = 71 := by
  have h := digest.property
  simp only [isDigest, Bool.and_eq_true, decide_eq_true_eq] at h
  have hsplit := congrArg List.length (List.take_append_drop 7 digest.val.toList)
  rw [List.length_append, h.1.1, h.1.2] at hsplit
  exact hsplit.symm

theorem length_of_isHex64 (text : {text : String // isHex64 text = true}) :
    text.val.toList.length = 64 := by
  have h := text.property
  simp only [isHex64, Bool.and_eq_true, decide_eq_true_eq] at h
  exact h.1

theorem length_of_isHumanCode (code : HumanCode) : code.val.toList.length = 8 := by
  have h := code.property
  simp only [isHumanCode, Bool.and_eq_true, decide_eq_true_eq] at h
  exact h.1

theorem length_of_isTimestamp (time : Timestamp) : time.val.toList.length ≤ 35 := by
  have h := time.property
  simp only [isTimestamp, Bool.and_eq_true, decide_eq_true_eq] at h
  exact h.1.2

theorem length_of_isIdentifier (name : Identifier) : name.val.toList.length ≤ 96 := by
  have h := name.property
  unfold isIdentifier at h
  split at h
  · cases h
  · rename_i c cs hcs
    simp only [Bool.and_eq_true, decide_eq_true_eq] at h
    rw [hcs, List.length_cons]
    omega

/-- An identifier is quoted as it stands. -/
theorem length_identifier (name : Identifier) : (canonicalJson (.str name)).length ≤ 98 := by
  have hall : ∀ n < 128, isIdentifierChar (Char.ofNat n) = true →
      Json.python.escape (Char.ofNat n) = [Char.ofNat n] := by decide +kernel
  have hhead : ∀ c, isIdentifierHead c = true → c.toNat < 128 := by
    intro c h
    simp only [isIdentifierHead, Bool.or_eq_true, Bool.and_eq_true, decide_eq_true_eq] at h
    have hle : ∀ d : Char, c ≤ d → c.toNat ≤ d.toNat := fun d hd => hd
    rcases h with ⟨-, h⟩ | ⟨-, h⟩
    · exact (hle _ h).trans_lt (by decide)
    · exact (hle _ h).trans_lt (by decide)
  have hother : ∀ d ∈ ['.', '_', ':', '-'], d.toNat < 128 := by decide
  have hchar : ∀ c ∈ name.val.toList, c.toNat < 128 ∧ isIdentifierChar c = true := by
    have h := name.property
    unfold isIdentifier at h
    split at h
    · cases h
    · rename_i first rest htext
      simp only [Bool.and_eq_true, List.all_eq_true] at h
      rw [htext, List.forall_mem_cons]
      refine ⟨⟨hhead first h.1.1, by simp [isIdentifierChar, h.1.1]⟩, fun c hc => ⟨?_, h.2 c hc⟩⟩
      have hc := h.2 c hc
      simp only [isIdentifierChar, Bool.or_eq_true, decide_eq_true_eq] at hc
      exact hc.elim (hhead c) (hother c)
  have hescape : ∀ c ∈ name.val.toList, Json.python.escape c = [c] := by
    intro c hc
    obtain ⟨hlt, hidentifier⟩ := hchar c hc
    have h := hall c.toNat hlt
    rw [Char.ofNat_toNat] at h
    exact h hidentifier
  have htext : (Json.python.quote name.val).toList = '"' :: (name.val.toList ++ ['"']) := by
    rw [Json.Encoder.quote, String.toList_ofList, List.flatMap_def, List.map_congr_left hescape,
      ← List.flatMap_def, List.flatMap_singleton', List.cons_append]
  have hascii : ∀ c ∈ (Json.python.quote name.val).toList, c.toNat < 128 := by
    intro c hc
    rw [htext, List.mem_cons, List.mem_append, List.mem_singleton] at hc
    rcases hc with rfl | hc | rfl
    · decide
    · exact (hchar c hc).1
    · decide
  have hlength := length_of_isIdentifier name
  rw [canonicalJson, Json.Encoder.encode, utf8_eq_map hascii, List.length_map, htext,
    List.length_cons, List.length_append, List.length_singleton]
  omega

/-- A text of at most ninety-six characters. -/
theorem length_short {text : String} (h : text.toList.length ≤ 96) :
    (canonicalJson (.str text)).length ≤ 1154 := by
  have hlength := length_canonicalJson_str text
  omega

theorem length_digest (digest : Digest) : (canonicalJson (.str digest)).length ≤ 1154 :=
  length_short (by rw [length_of_isDigest]; decide)

theorem length_nonce (text : {text : String // isHex64 text = true}) :
    (canonicalJson (.str text)).length ≤ 1154 :=
  length_short (by rw [length_of_isHex64]; decide)

theorem length_humanCode (code : HumanCode) : (canonicalJson (.str code)).length ≤ 1154 :=
  length_short (by rw [length_of_isHumanCode]; decide)

theorem length_timestamp (time : Timestamp) : (canonicalJson (.str time)).length ≤ 1154 :=
  length_short ((length_of_isTimestamp time).trans (by decide))

theorem length_targetHashes (hashes : TargetHashes) :
    (canonicalJson hashes.toJson).length ≤ 5786 := by
  have hkeys : ["harness_hash", "compiler_hash", "op_table_hash", "fleet_config_hash"].Nodup ∧
      ∀ key ∈ ["harness_hash", "compiler_hash", "op_table_hash", "fleet_config_hash"],
        key.toList.length ≤ 24 := by decide +kernel
  refine le_trans (length_canonicalJson_obj hkeys.1 hkeys.2 rfl
    (B := [1154, 1154, 1154, 1154]) ?_) (by decide)
  exact .cons (length_digest hashes.harnessHash) (.cons (length_digest hashes.compilerHash)
      (.cons (length_digest hashes.opTableHash) (.cons (length_digest hashes.fleetConfigHash) .nil)))

theorem length_promotionScope (scope : PromotionScope) :
    (canonicalJson scope.toJson).length ≤ 7540 := by
  have hdestination : scope.destinationId.text.toList.length ≤ 96 := by
    cases scope.destinationId <;> decide
  have hworkers : scope.workerSet.text.toList.length ≤ 96 := by
    cases scope.workerSet <;> decide
  have hversion : (canonicalJson (.str "promotion-scope.v1")).length ≤ 1154 :=
    length_short (by decide)
  have hmode : (canonicalJson (.str "afl_foreign_sync_seed")).length ≤ 1154 :=
    length_short (by decide)
  have hone : (canonicalJson (.num (1 : ℕ))).length ≤ 16 := length_canonicalJson_num (by decide)
  have hkeys : ["schema_version", "campaign_id", "destination_id", "worker_set", "mode",
        "max_artifacts"].Nodup ∧ ∀ key ∈ ["schema_version", "campaign_id", "destination_id",
        "worker_set", "mode", "max_artifacts"], key.toList.length ≤ 24 := by decide +kernel
  refine le_trans (length_canonicalJson_obj hkeys.1 hkeys.2 rfl
    (B := [1154, 1154, 1154, 1154, 1154, 16]) ?_) (by decide)
  exact .cons hversion
      (.cons (length_short (length_of_isIdentifier scope.campaignId))
        (.cons (length_short hdestination) (.cons (length_short hworkers)
          (.cons hmode
            (.cons hone .nil)))))

theorem length_core (core : DecisionCore) :
    core.signerId.text.toList.length ≤ 96 ∧ core.channel.text.toList.length ≤ 96 := by
  constructor
  · cases core.signerId <;> decide
  · cases core.channel <;> decide

theorem length_human (decision : HumanDecision) :
    (canonicalJson (Decision.human decision).toJson).length ≤ 40248 := by
  have hversion : (canonicalJson (.str "human-decision.v1")).length ≤ 1154 :=
    length_short (by decide)
  have haction : decision.action.text.toList.length ≤ 96 := by
    cases decision.action <;> decide
  have hreason : decision.reasonCode.text.toList.length ≤ 96 := by
    cases decision.reasonCode <;> decide
  obtain ⟨hsigner, hchannel⟩ := length_core decision.core
  have hkeys : ["schema_version", "signer_id", "channel", "event_digest", "envelope_digest",
        "target_hashes", "approval_binding_digest", "decision_nonce", "human_code",
        "sender_binding", "action", "reason_code", "issued_at", "expires_at"].Nodup ∧
      ∀ key ∈ ["schema_version", "signer_id", "channel", "event_digest", "envelope_digest",
        "target_hashes", "approval_binding_digest", "decision_nonce", "human_code",
        "sender_binding", "action", "reason_code", "issued_at", "expires_at"],
        key.toList.length ≤ 24 := by decide +kernel
  refine le_trans (length_canonicalJson_obj hkeys.1 hkeys.2 rfl
    (B := [1154, 1154, 1154, 1154, 1154, 5786, 1154, 1154, 1154, 1154, 1154, 1154, 1154, 1154]) ?_) (by decide)
  exact .cons hversion (.cons (length_short hsigner)
      (.cons (length_short hchannel) (.cons (length_digest decision.core.eventDigest)
      (.cons (length_digest decision.envelopeDigest) (.cons (length_targetHashes decision.targetHashes)
      (.cons (length_digest decision.core.approvalBindingDigest)
      (.cons (length_nonce decision.core.decisionNonce)
      (.cons (length_humanCode decision.core.humanCode)
      (.cons (length_digest decision.core.senderBinding) (.cons (length_short haction)
      (.cons (length_short hreason) (.cons (length_timestamp decision.core.issuedAt)
      (.cons (length_timestamp decision.core.expiresAt) .nil)))))))))))))

theorem length_execution (decision : ExecutionDecision) :
    (canonicalJson (Decision.execution decision).toJson).length ≤ 40248 := by
  have hversion : (canonicalJson (.str "human-decision.v2")).length ≤ 1154 :=
    length_short (by decide)
  have haction : decision.action.text.toList.length ≤ 96 := by
    cases decision.action <;> decide
  have hreason : decision.reasonCode.text.toList.length ≤ 96 := by
    cases decision.reasonCode <;> decide
  have hsize : decision.binding.artifactSizeBytes.val < 10000 :=
    decision.binding.artifactSizeBytes.property.2.trans_lt (by decide)
  obtain ⟨hsigner, hchannel⟩ := length_core decision.core
  have hkeys : ["schema_version", "signer_id", "channel", "event_digest", "candidate_digest",
        "envelope_digest", "artifact_manifest_digest", "artifact_digest", "artifact_size_bytes",
        "validation_report_digest", "canary_report_digest", "target_hashes", "promotion_scope",
        "approval_binding_digest", "decision_nonce", "human_code", "sender_binding", "action",
        "reason_code", "issued_at", "expires_at"].Nodup ∧
      ∀ key ∈ ["schema_version", "signer_id", "channel", "event_digest", "candidate_digest",
        "envelope_digest", "artifact_manifest_digest", "artifact_digest", "artifact_size_bytes",
        "validation_report_digest", "canary_report_digest", "target_hashes", "promotion_scope",
        "approval_binding_digest", "decision_nonce", "human_code", "sender_binding", "action",
        "reason_code", "issued_at", "expires_at"], key.toList.length ≤ 24 := by decide +kernel
  refine le_trans (length_canonicalJson_obj hkeys.1 hkeys.2 rfl
    (B := [1154, 1154, 1154, 1154, 1154, 1154, 1154, 1154, 16, 1154, 1154, 5786, 7540, 1154, 1154, 1154, 1154, 1154, 1154, 1154, 1154]) ?_) (by decide)
  exact .cons hversion (.cons (length_short hsigner)
      (.cons (length_short hchannel) (.cons (length_digest decision.core.eventDigest)
      (.cons (length_digest decision.binding.candidateDigest)
      (.cons (length_digest decision.binding.envelopeDigest)
      (.cons (length_digest decision.binding.artifactManifestDigest)
      (.cons (length_digest decision.binding.artifactDigest) (.cons (length_canonicalJson_num hsize)
      (.cons (length_digest decision.binding.validationReportDigest)
      (.cons (length_digest decision.binding.canaryReportDigest)
      (.cons (length_targetHashes decision.binding.targetHashes)
      (.cons (length_promotionScope decision.binding.promotionScope)
      (.cons (length_digest decision.core.approvalBindingDigest)
      (.cons (length_nonce decision.core.decisionNonce)
      (.cons (length_humanCode decision.core.humanCode)
      (.cons (length_digest decision.core.senderBinding) (.cons (length_short haction)
      (.cons (length_short hreason) (.cons (length_timestamp decision.core.issuedAt)
      (.cons (length_timestamp decision.core.expiresAt) .nil))))))))))))))))))))

/-- A decision fits into the files that the archive reads. -/
theorem length_payload_le (signed : SignedDecision) : signed.payload.length ≤ 64 * 1024 := by
  have hdecision : (canonicalJson signed.decision.toJson).length ≤ 40248 := by
    cases signed.decision with
    | human decision => exact length_human decision
    | execution decision => exact length_execution decision
  have hkeys : ["decision", "signature_hmac_sha256"].Nodup ∧
      ∀ key ∈ ["decision", "signature_hmac_sha256"], key.toList.length ≤ 24 := by decide +kernel
  refine le_trans (length_canonicalJson_obj hkeys.1 hkeys.2 rfl
    (B := [40248, 1154]) ?_) (by decide)
  exact .cons hdecision (.cons (length_nonce signed.signatureHmacSha256) .nil)

end IouAi.Authority
