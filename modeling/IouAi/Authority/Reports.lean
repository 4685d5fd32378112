import IouAi.Authority.Envelopes
import IouAi.Harness.RoundTrip
import Mathlib.Data.List.Dedup

/-!
# Deterministic validation reports

Before a canary runs, the bridge reads the artifact of an envelope back and checks every binding of
it again (`buildValidationReport`). The report lists the checks of all validation records and five of
its own, under a bound of its own.
-/

namespace IouAi.Authority

open Checks Compiler HarnessCodec Models Validator
open Wire hiding TargetHashes Bytes

/-! ## The envelope as text -/

def ValidationRecord.toJson (record : ValidationRecord) : Json :=
  .obj [("validator_version", .str record.validatorVersion),
    ("validator_hash", .str record.validatorHash),
    ("passed_check_ids", .arr (record.passedCheckIds.map fun id => .str id)),
    ("failed_check_ids", .arr (record.failedCheckIds.map fun id => .str id))]

namespace QuarantineEnvelope

def toJson (envelope : QuarantineEnvelope) : Json :=
  .obj [("schema_version", .str "quarantine-envelope.v1"),
    ("envelope_id", .str envelope.fields.envelopeId),
    ("created_at", .str envelope.fields.createdAt), ("promotion_state", .str "quarantined"),
    ("human_approval_required", .bool true), ("isolated_canary_required", .bool true),
    ("telemetry_packet_hash", .str envelope.fields.telemetryPacketHash),
    ("proposal_hash", .str envelope.fields.proposalHash),
    ("reviewer_verdict_hash", .str envelope.fields.reviewerVerdictHash),
    ("auditor_verdict_hash",
      (envelope.fields.auditorVerdictHash.map fun digest => Json.str digest.val).getD .null),
    ("harness_contract_hash", .str envelope.fields.harnessContractHash),
    ("compiled_artifact_hashes",
      .arr (envelope.fields.compiledArtifactHashes.map fun digest => .str digest)),
    ("target_hashes", envelope.fields.targetHashes.toJson),
    ("proposal", envelope.fields.proposal.dump),
    ("reviewer_verdict", envelope.fields.reviewerVerdict.dump),
    ("auditor_verdict", (envelope.fields.auditorVerdict.map Dumped.dump).getD .null),
    ("validations", .arr (envelope.fields.validations.map ValidationRecord.toJson)),
    ("provider_traces", .arr (envelope.fields.providerTraces.map Dumped.dump))]

def digest (sha256 : Sha256) (envelope : QuarantineEnvelope) : Digest :=
  jsonDigest sha256 envelope.toJson

end QuarantineEnvelope

/-! ## Reports -/

inductive ExecutionAuthorityError
  | envelopeDigest
  | manifestDigest
  | manifestAbsent
  | payloadDigest
  | payloadSize
  | proposalBinding
  | contractBinding
  | targetBinding
  | compilerAuthority
  | proposalDigest
  | reviewerDigest
  | auditorDigest
  | failedValidation
  | validatorAbsent
  | codec
  | reencodeEquality
  | operationCount
  | invalidReport
  | artifact (error : ArtifactError)
  deriving DecidableEq

/-- The checks that a report adds to those of the validation records. -/
def authorityCheckIds : List Identifier := [
  ⟨"authority.envelope-digest", by decide⟩, ⟨"authority.manifest-binding", by decide⟩,
  ⟨"authority.payload-digest", by decide⟩, ⟨"authority.target-binding", by decide⟩,
  ⟨"codec.decode-reencode-equality", by decide⟩]

structure DeterministicValidationReport where
  reportId : Identifier
  createdAt : Timestamp
  envelopeDigest : Digest
  artifactManifestDigest : Digest
  artifactDigest : Digest
  artifactSizeBytes : ArtifactSize
  operationCount : OperationCount
  proposalDigest : Digest
  programDigest : Digest
  harnessContractDigest : Digest
  targetHashes : Wire.TargetHashes
  compilerVersion : Identifier
  compilerHash : Digest
  validatorVersion : Identifier
  validatorHash : Digest
  sourceValidationCount : ℕ
  passedCheckIds : List Identifier
  sourceValidationCount_mem : 1 ≤ sourceValidationCount ∧ sourceValidationCount ≤ 16
  passed_mem : 4 ≤ passedCheckIds.length ∧ passedCheckIds.length ≤ 128
  passed_nodup : passedCheckIds.Nodup
  compilerHash_eq : compilerHash = targetHashes.compilerHash

def DeterministicValidationReport.toJson (report : DeterministicValidationReport) : Json :=
  .obj [("schema_version", .str "deterministic-validation-report.v1"),
    ("report_id", .str report.reportId), ("created_at", .str report.createdAt),
    ("envelope_digest", .str report.envelopeDigest),
    ("artifact_manifest_digest", .str report.artifactManifestDigest),
    ("artifact_digest", .str report.artifactDigest),
    ("artifact_size_bytes", .num report.artifactSizeBytes.val),
    ("operation_count", .num report.operationCount.val),
    ("proposal_digest", .str report.proposalDigest),
    ("program_digest", .str report.programDigest),
    ("harness_contract_digest", .str report.harnessContractDigest),
    ("target_hashes", report.targetHashes.toJson),
    ("compiler_version", .str report.compilerVersion),
    ("compiler_hash", .str report.compilerHash),
    ("validator_version", .str report.validatorVersion),
    ("validator_hash", .str report.validatorHash),
    ("source_validation_count", .num report.sourceValidationCount),
    ("passed_check_ids", .arr (report.passedCheckIds.map fun id => .str id)),
    ("failed_check_ids", .arr []), ("decode_reencode_equal", .bool true), ("valid", .bool true),
    ("live_fleet_touched", .bool false)]

/-- `sorted(passed)`: the checks of the records and of the report, each once, in order. -/
def passedIds (validations : List ValidationRecord) : List Identifier :=
  (validations.flatMap ValidationRecord.passedCheckIds ++ authorityCheckIds).dedup.insertionSort
    fun id other => id.val ≤ other.val

/-- Independently revalidate one compiled artifact before any canary starts. -/
def buildValidationReport (sha256 : Sha256) (envelopeDigest : Digest)
    (envelope : QuarantineEnvelope) (artifactManifestDigest : Digest) (manifest : ArtifactManifest)
    (payload : Bytes) (createdAt : Timestamp) :
    Except ExecutionAuthorityError DeterministicValidationReport := do
  raiseIf (envelopeDigest ≠ envelope.digest sha256) .envelopeDigest
  raiseIf (artifactManifestDigest ≠ jsonDigest sha256 manifest.toJson) .manifestDigest
  raiseIf (artifactManifestDigest ∉ envelope.fields.compiledArtifactHashes) .manifestAbsent
  raiseIf (contentDigest sha256 payload ≠ manifest.payloadDigest) .payloadDigest
  raiseIf (payload.length ≠ manifest.payloadSizeBytes) .payloadSize
  raiseIf (manifest.proposalDigest ≠ envelope.fields.proposalHash) .proposalBinding
  raiseIf (manifest.harnessContractDigest ≠ envelope.fields.harnessContractHash) .contractBinding
  raiseIf (manifest.targetHashes ≠ envelope.fields.targetHashes) .targetBinding
  raiseIf (manifest.compilerHash ≠ envelope.fields.targetHashes.compilerHash) .compilerAuthority
  raiseIf (envelope.fields.proposal.digest sha256 ≠ envelope.fields.proposalHash) .proposalDigest
  raiseIf (envelope.fields.reviewerVerdict.digest sha256 ≠ envelope.fields.reviewerVerdictHash)
    .reviewerDigest
  raiseIf (∃ verdict ∈ envelope.fields.auditorVerdict,
    some (verdict.digest sha256) ≠ envelope.fields.auditorVerdictHash) .auditorDigest
  raiseIf (∃ record ∈ envelope.fields.validations, record.failedCheckIds ≠ []) .failedValidation
  raiseIf (¬ ∃ record ∈ envelope.fields.validations,
    record.validatorVersion = manifest.validatorVersion ∧
      record.validatorHash = manifest.validatorHash) .validatorAbsent
  match decodeProgram payload manifest.targetHashes.harnessHash with
  | .error _ => .error .codec
  | .ok decoded =>
    match encodeProgram decoded manifest.targetHashes.harnessHash with
    | .error _ => .error .codec
    | .ok reencoded =>
      raiseIf (reencoded ≠ payload) .reencodeEquality
      raiseIf (decoded.operations.length ≠ manifest.operationCount) .operationCount
      let passed := passedIds envelope.fields.validations
      if h : (1 ≤ envelope.fields.validations.length ∧ envelope.fields.validations.length ≤ 16) ∧
          (4 ≤ passed.length ∧ passed.length ≤ 128) ∧ passed.Nodup ∧
          manifest.compilerHash = manifest.targetHashes.compilerHash then
        .ok {
          reportId := taggedId "validation-" artifactManifestDigest (by decide)
          createdAt := createdAt
          envelopeDigest := envelopeDigest
          artifactManifestDigest := artifactManifestDigest
          artifactDigest := manifest.payloadDigest
          artifactSizeBytes := manifest.payloadSizeBytes
          operationCount := manifest.operationCount
          proposalDigest := manifest.proposalDigest
          programDigest := manifest.programDigest
          harnessContractDigest := manifest.harnessContractDigest
          targetHashes := manifest.targetHashes
          compilerVersion := compilerVersion
          compilerHash := manifest.compilerHash
          validatorVersion := manifest.validatorVersion
          validatorHash := manifest.validatorHash
          sourceValidationCount := envelope.fields.validations.length
          passedCheckIds := passed
          sourceValidationCount_mem := h.1
          passed_mem := h.2.1
          passed_nodup := h.2.2.1
          compilerHash_eq := h.2.2.2 }
      else .error .invalidReport

/-- The first steps of `_process_artifact`: the artifact is read back and validated. -/
def validateArtifact (sha256 : Sha256) (store : ArtifactStore) (envelopeDigest : Digest)
    (envelope : QuarantineEnvelope) (manifestDigest : Digest) (now : Timestamp) :
    Except ExecutionAuthorityError DeterministicValidationReport :=
  match store.getManifest sha256 manifestDigest with
  | .error error => .error (.artifact error)
  | .ok manifest =>
    match store.getPayload sha256 manifest with
    | .error error => .error (.artifact error)
    | .ok payload =>
      buildValidationReport sha256 envelopeDigest envelope manifestDigest manifest payload now

/-! ## When a report is built -/

section Build

variable {sha256 : Sha256} {envelopeDigest : Digest} {envelope : QuarantineEnvelope}
  {artifactManifestDigest : Digest} {manifest : ArtifactManifest} {payload : Bytes}
  {createdAt : Timestamp}

/-- The bindings that the report attests. -/
structure Revalidates (sha256 : Sha256) (envelopeDigest : Digest) (envelope : QuarantineEnvelope)
    (artifactManifestDigest : Digest) (manifest : ArtifactManifest) (payload : Bytes) : Prop where
  envelope_digest : envelopeDigest = envelope.digest sha256
  manifest_digest : artifactManifestDigest = jsonDigest sha256 manifest.toJson
  manifest_mem : artifactManifestDigest ∈ envelope.fields.compiledArtifactHashes
  payload_digest : contentDigest sha256 payload = manifest.payloadDigest
  payload_size : payload.length = manifest.payloadSizeBytes
  proposal : manifest.proposalDigest = envelope.fields.proposalHash
  contract : manifest.harnessContractDigest = envelope.fields.harnessContractHash
  targets : manifest.targetHashes = envelope.fields.targetHashes
  compiler : manifest.compilerHash = envelope.fields.targetHashes.compilerHash
  proposal_digest : envelope.fields.proposal.digest sha256 = envelope.fields.proposalHash
  reviewer_digest :
    envelope.fields.reviewerVerdict.digest sha256 = envelope.fields.reviewerVerdictHash
  auditor_digest : ∀ verdict ∈ envelope.fields.auditorVerdict,
    some (verdict.digest sha256) = envelope.fields.auditorVerdictHash
  validator : ∃ record ∈ envelope.fields.validations,
    record.validatorVersion = manifest.validatorVersion ∧
      record.validatorHash = manifest.validatorHash
  harness : manifest.targetHashes.harnessHash.val = auditedHarnessHash
  decoded : ∃ native : NativeProgram, native.IsCanonical ∧ payload = programBytes native ∧
    native.operations.length = manifest.operationCount

theorem nodup_passedIds (validations : List ValidationRecord) :
    (passedIds validations).Nodup :=
  (List.perm_insertionSort _ _).nodup_iff.mpr (List.nodup_dedup _)

theorem four_le_length_passedIds (validations : List ValidationRecord) :
    4 ≤ (passedIds validations).length := by
  have hsub : authorityCheckIds ⊆ passedIds validations := by
    intro id hid
    rw [passedIds, List.mem_insertionSort, List.mem_dedup]
    exact List.mem_append_right _ hid
  have hnodup : authorityCheckIds.Nodup := by decide
  exact Nat.le_of_succ_le (List.subperm_of_subset hnodup hsub).length_le

/-- **When a report is built**: the bindings hold and the checks fit in it. -/
theorem buildValidationReport_iff :
    (∃ report, buildValidationReport sha256 envelopeDigest envelope artifactManifestDigest manifest
        payload createdAt = .ok report) ↔
      Revalidates sha256 envelopeDigest envelope artifactManifestDigest manifest payload ∧
        (passedIds envelope.fields.validations).length ≤ 128 := by
  unfold buildValidationReport
  simp only [raiseIf_bind_eq_ok, ne_eq, not_not, exists_and_left]
  constructor
  · rintro ⟨henvelope, hmanifest, hmem, hpayload, hsize, hproposal, hcontract, htargets, hcompiler,
      hproposalDigest, hreviewer, hauditor, -, hvalidator, report, hreport⟩
    split at hreport
    · cases hreport
    · rename_i native hdecode
      obtain ⟨hharness, hcanonical, hbytes⟩ := decodeProgram_eq_ok.mp hdecode
      split at hreport
      · cases hreport
      · simp only [raiseIf_bind_eq_ok, not_not] at hreport
        obtain ⟨-, hcount, hreport⟩ := hreport
        split at hreport
        · rename_i hbounds
          refine ⟨⟨henvelope, hmanifest, hmem, hpayload, hsize, hproposal, hcontract, htargets,
            hcompiler, hproposalDigest, hreviewer, ?_, hvalidator, hharness,
            native, hcanonical, hbytes, hcount⟩, hbounds.2.1.2⟩
          exact fun verdict hverdict => by_contra fun hne => hauditor ⟨verdict, hverdict, hne⟩
        · cases hreport
  · rintro ⟨h, hlength⟩
    obtain ⟨native, hcanonical, hbytes, hcount⟩ := h.decoded
    have hdecode : decodeProgram payload manifest.targetHashes.harnessHash = .ok native :=
      decodeProgram_eq_ok.mpr ⟨h.harness, hcanonical, hbytes⟩
    have hencode : encodeProgram native manifest.targetHashes.harnessHash = .ok payload :=
      encodeProgram_eq_ok.mpr ⟨h.harness, hcanonical, hbytes⟩
    refine ⟨h.envelope_digest, h.manifest_digest, h.manifest_mem, h.payload_digest, h.payload_size,
      h.proposal, h.contract, h.targets, h.compiler, h.proposal_digest, h.reviewer_digest, ?_, ?_,
      h.validator, ?_⟩
    · rintro ⟨verdict, hverdict, hne⟩
      exact hne (h.auditor_digest verdict hverdict)
    · rintro ⟨record, hrecord, hne⟩
      exact hne (envelope.valid.no_failure record hrecord)
    · have hbounds : (1 ≤ envelope.fields.validations.length ∧
            envelope.fields.validations.length ≤ 16) ∧
          (4 ≤ (passedIds envelope.fields.validations).length ∧
            (passedIds envelope.fields.validations).length ≤ 128) ∧
          (passedIds envelope.fields.validations).Nodup ∧
          manifest.compilerHash = manifest.targetHashes.compilerHash :=
        ⟨⟨envelope.valid.validations_pos, envelope.valid.validations_le⟩,
          ⟨four_le_length_passedIds _, hlength⟩, nodup_passedIds _,
          h.compiler.trans (congrArg Wire.TargetHashes.compilerHash h.targets).symm⟩
      simp only [hdecode, hencode, raiseIf_bind_eq_ok, not_true_eq_false, not_false_eq_true,
        true_and, hcount]
      rw [dif_pos hbounds]
      exact ⟨_, rfl⟩

end Build

end IouAi.Authority
