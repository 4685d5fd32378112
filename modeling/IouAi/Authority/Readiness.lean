import IouAi.Authority.Bridge
import IouAi.Authority.Lengths
import IouAi.Authority.Promotion
import IouAi.Foundations.JsonText

/-!
# From the bridge to the promoter

What the bridge writes for an artifact whose canary has passed: a validation report, a canary report
and a candidate. Each of them fits into the files that the promoter reads (`length_validation_le`,
`length_canary_le`, `length_candidate_le`), and the promoter builds the same report and the same
candidate from them again (`reproduces_of_recorded`).
-/

namespace IouAi.Authority

open Calendar Checks Wire
open Json (toString_negSucc)

/-! ## How long records are -/

theorem length_bool (value : Bool) : (canonicalJson (.bool value)).length ≤ 5 := by
  have htext : ∀ text : String, (∀ c ∈ text.toList, c.toNat < 128) →
      (utf8 text).length = text.toList.length := by
    intro text h
    rw [utf8_eq_map h, List.length_map]
  cases value with
  | true => exact (htext "true" (by decide)).trans_le (by decide)
  | false => exact (htext "false" (by decide)).trans_le (by decide)

/-- The text of an integer of at most `k` digits. -/
theorem length_int {n : ℤ} {k : ℕ} (hk : 0 < k) (h : n.natAbs < 10 ^ k) :
    (canonicalJson (.num n)).length ≤ 4 * (k + 1) := by
  have hfour : ∀ text : String, (utf8 text).length ≤ 4 * text.toList.length := by
    intro text
    rw [utf8_eq, List.utf8Encode, List.toList_data_toByteArray, List.length_flatMap]
    refine (List.sum_le_card_nsmul _ 4 ?_).trans (by simp [Nat.mul_comm])
    intro k hk
    obtain ⟨c, -, rfl⟩ := List.mem_map.mp hk
    exact (String.length_utf8EncodeChar c).trans_le c.utf8Size_le_four
  refine (hfour _).trans (Nat.mul_le_mul_left 4 ?_)
  cases n with
  | ofNat m => exact (Nat.repr_length m k hk h).trans (Nat.le_succ k)
  | negSucc m =>
    change (toString (Int.negSucc m)).toList.length ≤ _
    rw [toString_negSucc, List.length_cons]
    exact Nat.succ_le_succ (Nat.repr_length (m + 1) k hk h)

def validationKeys : List String :=
  ["schema_version", "report_id", "created_at", "envelope_digest", "artifact_manifest_digest",
    "artifact_digest", "artifact_size_bytes", "operation_count", "proposal_digest", "program_digest",
    "harness_contract_digest", "target_hashes", "compiler_version", "compiler_hash",
    "validator_version", "validator_hash", "source_validation_count", "passed_check_ids",
    "failed_check_ids", "decode_reencode_equal", "valid", "live_fleet_touched"]

theorem length_validation_le (report : DeterministicValidationReport) :
    (canonicalJson report.toJson).length ≤ 64 * 1024 := by
  have hkeys : validationKeys.Nodup ∧ ∀ key ∈ validationKeys, key.toList.length ≤ 24 := by
    decide +kernel
  have hversion : (canonicalJson (.str "deterministic-validation-report.v1")).length ≤ 1154 :=
    length_short (by decide)
  have hsize : report.artifactSizeBytes.val < 10000 :=
    report.artifactSizeBytes.property.2.trans_lt (by decide)
  have hcount : report.operationCount.val < 10000 :=
    report.operationCount.property.2.trans_lt (by decide)
  have hsources : report.sourceValidationCount < 10000 :=
    report.sourceValidationCount_mem.2.trans_lt (by decide)
  have hpassed : (canonicalJson (.arr (report.passedCheckIds.map fun id => .str id))).length
      ≤ 12674 := by
    refine (length_canonicalJson_arr (n := 98) ?_).trans ?_
    · intro item hitem
      obtain ⟨text, htext, rfl⟩ := List.mem_map.mp hitem
      obtain ⟨id, -, hid⟩ := List.mem_flatMap.mp htext
      rw [List.mem_singleton.mp hid]
      exact length_identifier id
    · have hle := report.passed_mem.2
      have hlength : (do let id ← report.passedCheckIds; pure id.val : List String).length
          = report.passedCheckIds.length := by simp
      rw [List.length_map, hlength]
      omega
  have hfailed : (canonicalJson (.arr [])).length ≤ 2 :=
    length_canonicalJson_arr (n := 0) (by simp)
  refine le_trans (length_canonicalJson_obj hkeys.1 hkeys.2 rfl
    (B := [1154, 98, 1154, 1154, 1154, 1154, 16, 16, 1154, 1154, 1154, 5786, 98, 1154, 98, 1154, 16,
      12674, 2, 5, 5, 5]) ?_) (by decide +kernel)
  exact .cons hversion (.cons (length_identifier report.reportId)
    (.cons (length_timestamp report.createdAt) (.cons (length_digest report.envelopeDigest)
    (.cons (length_digest report.artifactManifestDigest)
    (.cons (length_digest report.artifactDigest) (.cons (length_canonicalJson_num hsize)
    (.cons (length_canonicalJson_num hcount) (.cons (length_digest report.proposalDigest)
    (.cons (length_digest report.programDigest)
    (.cons (length_digest report.harnessContractDigest)
    (.cons (length_targetHashes report.targetHashes)
    (.cons (length_identifier report.compilerVersion) (.cons (length_digest report.compilerHash)
    (.cons (length_identifier report.validatorVersion) (.cons (length_digest report.validatorHash)
    (.cons (length_canonicalJson_num hsources) (.cons hpassed (.cons hfailed
    (.cons (length_bool true) (.cons (length_bool true) (.cons (length_bool false)
    .nil)))))))))))))))))))))

def canaryKeys : List String :=
  ["schema_version", "report_id", "started_at", "finished_at", "envelope_digest",
    "validation_report_digest", "artifact_manifest_digest", "artifact_digest", "target_hashes",
    "runner_hash", "runner_result_digest", "outcome", "exact_seed_dry_runs", "executions_total",
    "timeout_seconds", "harness_accepted", "infrastructure_error", "runner_exit_code", "timed_out",
    "signal_number", "fleet_snapshot_before", "fleet_snapshot_after", "live_fleet_touched"]

theorem length_canary_le (report : CanaryReport) :
    (canonicalJson report.val.toJson).length ≤ 64 * 1024 := by
  have hkeys : canaryKeys.Nodup ∧ ∀ key ∈ canaryKeys, key.toList.length ≤ 24 := by decide +kernel
  have hversion : (canonicalJson (.str "nyx-canary-report.v1")).length ≤ 1154 :=
    length_short (by decide)
  have houtcome : report.val.outcome.text.toList.length ≤ 96 := by
    cases report.val.outcome <;> decide
  have hvalid := report.property
  simp only [CanaryReportFields.validate, CanaryReportFields.checkFields, bind_eq_ok, raiseIf_eq_ok,
    not_not, exists_const] at hvalid
  obtain ⟨⟨hdryRuns, htotal, htimeout, hexit, hsignal, -⟩, -⟩ := hvalid
  have hshort : ∀ {n : ℤ}, -255 ≤ n → n ≤ 255 → (canonicalJson (.num n)).length ≤ 16 :=
    fun hlow hhigh => length_int (k := 3) (by decide) (by omega)
  have hlong : (canonicalJson (.num report.val.executionsTotal)).length ≤ 32 :=
    length_int (k := 7) (by decide) (by omega)
  refine le_trans (length_canonicalJson_obj hkeys.1 hkeys.2 rfl
    (B := [1154, 98, 1154, 1154, 1154, 1154, 1154, 1154, 5786, 1154, 1154, 1154, 16, 32, 16, 5, 5, 16,
      5, 16, 1154, 1154, 5]) ?_) (by decide +kernel)
  exact .cons hversion (.cons (length_identifier report.val.reportId)
    (.cons (length_timestamp report.val.startedAt) (.cons (length_timestamp report.val.finishedAt)
    (.cons (length_digest report.val.envelopeDigest)
    (.cons (length_digest report.val.validationReportDigest)
    (.cons (length_digest report.val.artifactManifestDigest)
    (.cons (length_digest report.val.artifactDigest)
    (.cons (length_targetHashes report.val.targetHashes)
    (.cons (length_digest report.val.runnerHash)
    (.cons (length_digest report.val.runnerResultDigest) (.cons (length_short houtcome)
    (.cons (hshort (by omega) (by omega)) (.cons hlong (.cons (hshort (by omega) (by omega))
    (.cons (length_bool _) (.cons (length_bool _) (.cons (hshort hexit.1 hexit.2)
    (.cons (length_bool _) (.cons (hshort (by omega) (by omega))
    (.cons (length_digest report.val.fleetSnapshotBefore)
    (.cons (length_digest report.val.fleetSnapshotAfter) (.cons (length_bool _)
    .nil))))))))))))))))))))))

def candidateKeys : List String :=
  ["schema_version", "candidate_id", "ready_at", "envelope_digest", "artifact_manifest_digest",
    "artifact_digest", "artifact_size_bytes", "validation_report_digest", "canary_report_digest",
    "target_hashes", "promotion_scope", "canary_outcome", "human_execution_approval_required",
    "live_promotion_authorized"]

theorem length_candidate_le (candidate : ExecutionCandidate) :
    (canonicalJson candidate.toJson).length ≤ 64 * 1024 := by
  have hkeys : candidateKeys.Nodup ∧ ∀ key ∈ candidateKeys, key.toList.length ≤ 33 := by
    decide +kernel
  have hversion : (canonicalJson (.str "execution-candidate.v1")).length ≤ 1154 :=
    length_short (by decide)
  have houtcome : (canonicalJson (.str "passed")).length ≤ 1154 := length_short (by decide)
  have hsize : candidate.artifactSizeBytes.val < 10000 :=
    candidate.artifactSizeBytes.property.2.trans_lt (by decide)
  refine le_trans (length_canonicalJson_obj hkeys.1 hkeys.2 rfl
    (B := [1154, 98, 1154, 1154, 1154, 1154, 16, 1154, 1154, 5786, 7540, 1154, 5, 5]) ?_)
    (by decide +kernel)
  exact .cons hversion (.cons (length_identifier candidate.candidateId)
    (.cons (length_timestamp candidate.readyAt) (.cons (length_digest candidate.envelopeDigest)
    (.cons (length_digest candidate.artifactManifestDigest)
    (.cons (length_digest candidate.artifactDigest) (.cons (length_canonicalJson_num hsize)
    (.cons (length_digest candidate.validationReportDigest)
    (.cons (length_digest candidate.canaryReportDigest)
    (.cons (length_targetHashes candidate.targetHashes)
    (.cons (length_promotionScope candidate.promotionScope) (.cons houtcome
    (.cons (length_bool true) (.cons (length_bool false) .nil)))))))))))))

/-! ## What the bridge writes -/

section Bridge

variable {sha256 : Sha256} {loads : Bytes → Option Json} {bridge : CanaryBridge} {turn : Turn}
  {envelopeDigest : Digest} {envelope : QuarantineEnvelope} {manifestDigest : Digest}
  {manifest : ArtifactManifest} {payload : Bytes} {validation : DeterministicValidationReport}
  {canary : CanaryReport} {candidate : ExecutionCandidate}

/-- The records of an artifact that the bridge has made a candidate of. -/
structure Recorded (sha256 : Sha256) (loads : Bytes → Option Json) (bridge : CanaryBridge)
    (turn : Turn) (envelopeDigest : Digest) (envelope : QuarantineEnvelope) (manifestDigest : Digest)
    (manifest : ArtifactManifest) (payload : Bytes) (validation : DeterministicValidationReport)
    (canary : CanaryReport) (candidate : ExecutionCandidate) : Prop where
  manifest_stored : bridge.artifacts.getManifest sha256 manifestDigest = .ok manifest
  payload_stored : bridge.artifacts.getPayload sha256 manifest = .ok payload
  validation_built : buildValidationReport sha256 envelopeDigest envelope manifestDigest manifest
    payload turn.createdAt = .ok validation
  canary_run : runCanary sha256 loads
    (CanaryBridge.binding sha256 envelopeDigest manifestDigest validation manifest)
    bridge.canaryConfig turn.seedPath turn.world = .ok canary
  candidate_built : buildExecutionCandidate sha256 (jsonDigest sha256 validation.toJson) validation
    (jsonDigest sha256 canary.val.toJson) canary.val manifestDigest manifest bridge.promotionScope
    turn.readyAt bridge.allowedRunnerHashes = .ok candidate

/-- The candidate, as the projector of events reads it. -/
def ExecutionCandidate.record (candidate : ExecutionCandidate) : Wire.ExecutionCandidate :=
  { candidate with }

theorem ExecutionCandidate.toJson_record (candidate : ExecutionCandidate) :
    candidate.record.toJson = candidate.toJson := rfl

/-- A decision on the challenge of a candidate matches the candidate. -/
theorem matches_of_binding {decision : ExecutionDecision} {candidateDigest : Digest}
    (h : decision.binding = candidate.record.binding candidateDigest) :
    CandidateMatchesDecision candidate decision := by
  rw [CandidateMatchesDecision, h]
  exact ⟨rfl, rfl, rfl, rfl, rfl, rfl, rfl, rfl⟩

/-- An artifact whose candidate is ready has such records, under the digests of the result. -/
theorem exists_recorded {result : ArtifactResult} {candidateDigest : Digest}
    (h : bridge.processArtifact sha256 loads turn envelopeDigest envelope manifestDigest = .ok result)
    (hready : result.candidateDigest = some candidateDigest) :
    ∃ manifest payload validation canary candidate, Recorded sha256 loads bridge turn envelopeDigest
        envelope manifestDigest manifest payload validation canary candidate ∧
      result.canaryReportDigest = jsonDigest sha256 canary.val.toJson ∧
      candidateDigest = jsonDigest sha256 candidate.toJson := by
  simp only [CanaryBridge.processArtifact, bind_eq_ok, mapError_eq_ok, raiseIf_eq_ok,
    exists_const] at h
  obtain ⟨manifest, hmanifest, payload, hpayload, validation, hvalidation, -, -, canary, hcanary,
    hrecord⟩ := h
  unfold CanaryBridge.recordCanary at hrecord
  obtain ⟨-, hrecord⟩ := raiseIf_bind_eq_ok.mp hrecord
  cases houtcome : canary.val.outcome with
  | passed =>
    simp only [houtcome, bind_eq_ok, mapError_eq_ok, raiseIf_eq_ok, exists_const] at hrecord
    obtain ⟨candidate, hcandidate, -, hresult⟩ := hrecord
    cases hresult
    cases hready
    exact ⟨manifest, payload, validation, canary, candidate,
      ⟨hmanifest, hpayload, hvalidation, hcanary, hcandidate⟩, rfl, rfl⟩
  | rejected =>
    simp only [houtcome] at hrecord
    cases hrecord
    cases hready
  | infrastructureFailure =>
    simp only [houtcome] at hrecord
    cases hrecord
    cases hready

/-- A candidate is made of such records when every file is written. -/
theorem Recorded.processArtifact (h : Recorded sha256 loads bridge turn envelopeDigest envelope
    manifestDigest manifest payload validation canary candidate)
    (hwritten : ∀ file, turn.raises file = false) :
    bridge.processArtifact sha256 loads turn envelopeDigest envelope manifestDigest
      = .ok ⟨.candidateReady, jsonDigest sha256 canary.val.toJson,
          some (jsonDigest sha256 candidate.toJson)⟩ := by
  have hpassed : canary.val.outcome = .passed := by
    have hbuilt := h.candidate_built
    simp only [buildExecutionCandidate, raiseIf_bind_eq_ok, not_not] at hbuilt
    exact hbuilt.2.2.2.2.1
  have hrecord : bridge.recordCanary sha256 turn manifestDigest validation manifest canary
      = .ok ⟨.candidateReady, jsonDigest sha256 canary.val.toJson,
          some (jsonDigest sha256 candidate.toJson)⟩ := by
    unfold CanaryBridge.recordCanary
    simp only [raiseIf_bind_eq_ok, hwritten, Bool.false_eq_true, not_false_eq_true, true_and, hpassed]
    exact bind_eq_ok.mpr ⟨candidate, mapError_eq_ok.mpr h.candidate_built,
      bind_eq_ok.mpr ⟨(), rfl, rfl⟩⟩
  simp only [CanaryBridge.processArtifact, bind_eq_ok, mapError_eq_ok, raiseIf_eq_ok, hwritten,
    Bool.false_eq_true, not_false_eq_true, exists_const, true_and]
  exact ⟨manifest, h.manifest_stored, payload, h.payload_stored, validation, h.validation_built,
    canary, h.canary_run, hrecord⟩

theorem createdAt_of_buildValidationReport {createdAt : Timestamp}
    (h : buildValidationReport sha256 envelopeDigest envelope manifestDigest manifest payload createdAt
      = .ok validation) : validation.createdAt = createdAt := by
  unfold buildValidationReport at h
  simp only [raiseIf_bind_eq_ok] at h
  obtain ⟨-, -, -, -, -, -, -, -, -, -, -, -, -, -, h⟩ := h
  split at h
  · cases h
  · split at h
    · cases h
    · simp only [raiseIf_bind_eq_ok] at h
      obtain ⟨-, -, h⟩ := h
      split at h
      · cases h
        rfl
      · cases h

/-- What a candidate repeats of the records that it was built from. -/
theorem fields_of_buildExecutionCandidate {validationReportDigest canaryReportDigest : Digest}
    {fields : CanaryReportFields} {scope : PromotionScope} {readyAt : Timestamp}
    {allowed : List Digest}
    (h : buildExecutionCandidate sha256 validationReportDigest validation canaryReportDigest fields
      manifestDigest manifest scope readyAt allowed = .ok candidate) :
    candidate.readyAt = readyAt ∧ candidate.envelopeDigest = validation.envelopeDigest ∧
      candidate.artifactManifestDigest = manifestDigest ∧
      candidate.validationReportDigest = validationReportDigest ∧
      candidate.canaryReportDigest = canaryReportDigest ∧ candidate.promotionScope = scope := by
  simp only [buildExecutionCandidate, raiseIf_bind_eq_ok, pure_eq_ok] at h
  obtain ⟨-, -, -, -, -, -, -, rfl⟩ := h
  exact ⟨rfl, rfl, rfl, rfl, rfl, rfl⟩

/-! ## What the promoter reads -/

theorem getManifest_grows {store store' : ArtifactStore} (h : store.Within store') {digest : Digest}
    {manifest : ArtifactManifest} (hget : store.getManifest sha256 digest = .ok manifest) :
    store'.getManifest sha256 digest = .ok manifest := by
  unfold ArtifactStore.getManifest at hget ⊢
  cases hfound : store.manifests.get? digest with
  | none => simp [hfound] at hget
  | some found =>
    rw [hfound] at hget
    rw [h.manifest hfound]
    exact hget

theorem getPayload_grows {store store' : ArtifactStore} (h : store.Within store')
    {manifest : ArtifactManifest} {payload : Bytes}
    (hget : store.getPayload sha256 manifest = .ok payload) :
    store'.getPayload sha256 manifest = .ok payload := by
  unfold ArtifactStore.getPayload at hget ⊢
  cases hfound : store.payloads.get? manifest.payloadDigest with
  | none => simp [hfound] at hget
  | some found =>
    rw [hfound] at hget
    rw [h.payload hfound]
    exact hget

/-- The record is in its store, under its digest, and the parser of the promoter reads it. -/
structure Stored {α : Type} (sha256 : Sha256) (model : Storage.AuthorityModel α)
    (objects : Archive Digest Bytes) (value : α) : Prop where
  object : objects.get? (jsonDigest sha256 (model.toJson value))
    = some (canonicalJson (model.toJson value))
  parsed : model.validate (canonicalJson (model.toJson value)) = some value

/-- A stored record of a bounded length is read back. -/
theorem Stored.getAuthority {α : Type} {model : Storage.AuthorityModel α}
    {objects : Archive Digest Bytes} {value : α} (h : Stored sha256 model objects value)
    (hlength : (canonicalJson (model.toJson value)).length ≤ 64 * 1024) :
    Promoter.getAuthority sha256 model objects (jsonDigest sha256 (model.toJson value))
      = .ok value := by
  unfold Promoter.getAuthority
  rw [mapError_eq_ok, h.object]
  unfold Storage.ExecutionAuthorityStore.decode Storage.ExecutionAuthorityStore.readRegular
  simp only [bind_eq_ok, raiseIf_eq_ok, exists_const, pure_eq_ok, not_lt, not_not]
  refine ⟨_, ⟨hlength, rfl⟩, rfl, ?_⟩
  simp only [h.parsed, raiseIf_bind_eq_ok, not_not, pure_eq_ok, true_and]

/-- The promoter finds what the bridge has written, and the destination allows what the bridge
allows. -/
structure Handed (promoter : Promoter) (stores : HostStores sha256) (bridge : CanaryBridge)
    (envelopeDigest : Digest) (envelope : QuarantineEnvelope)
    (validation : DeterministicValidationReport) (canary : CanaryReport)
    (candidate : ExecutionCandidate) (spec : DestinationSpec) : Prop where
  validation_stored : Stored sha256 promoter.validationModel stores.validations validation
  canary_stored : Stored sha256 promoter.reportModel stores.reports canary
  candidate_stored : Stored sha256 promoter.candidateModel stores.candidates candidate
  artifacts : bridge.artifacts.Within stores.artifacts
  envelope_stored : loadEnvelope sha256 promoter.parsers.loads promoter.parsers.envelope
    stores.quarantine envelopeDigest = .ok envelope
  destination : promoter.destinations.get? bridge.promotionScope.destinationId = some spec
  scope : spec.scope? = some bridge.promotionScope
  runners : spec.allowedRunnerHashes = bridge.allowedRunnerHashes

/-- The promoter builds the report and the candidate of the bridge again. -/
theorem reproduces_of_recorded {promoter : Promoter} {stores : HostStores sha256}
    {spec : DestinationSpec} (h : Recorded sha256 loads bridge turn envelopeDigest envelope
      manifestDigest manifest payload validation canary candidate)
    (hhanded : Handed promoter stores bridge envelopeDigest envelope validation canary candidate
      spec) :
    Reproduces promoter stores candidate spec payload validation canary manifest envelope := by
  obtain ⟨hreadyAt, henvelope, hmanifest, hvalidation, hcanary, hscope⟩ :=
    fields_of_buildExecutionCandidate h.candidate_built
  obtain ⟨henvelope', -⟩ := fields_of_buildValidationReport h.validation_built
  constructor
  case validation_stored =>
    rw [hvalidation]
    exact hhanded.validation_stored.getAuthority (length_validation_le validation)
  case canary_stored =>
    rw [hcanary]
    exact hhanded.canary_stored.getAuthority (length_canary_le canary)
  case manifest_stored =>
    rw [hmanifest]
    exact getManifest_grows hhanded.artifacts h.manifest_stored
  case payload_stored => exact getPayload_grows hhanded.artifacts h.payload_stored
  case envelope_stored =>
    rw [henvelope, henvelope']
    exact hhanded.envelope_stored
  case validation_rebuilt =>
    rw [henvelope, henvelope', hmanifest, createdAt_of_buildValidationReport h.validation_built]
    exact h.validation_built
  case destination =>
    rw [hscope]
    exact hhanded.destination
  case scope =>
    rw [hscope]
    exact hhanded.scope
  case candidate_rebuilt =>
    rw [hvalidation, hcanary, hmanifest, hscope, hreadyAt, hhanded.runners]
    exact h.candidate_built

end Bridge

/-! ## An artifact that is ready -/

theorem contentDigest_zeroHash (payload : Bytes) : contentDigest zeroHash payload = digestOf 0 := rfl

theorem jsonDigest_zeroHash (value : Json) : jsonDigest zeroHash value = digestOf 0 := rfl

theorem isIdentifier_native : isIdentifier "native" = true := by decide

def readyScope : PromotionScope := ⟨⟨"native", isIdentifier_native⟩, .nativeAiSync, .nativeStable, rfl⟩

def readyBridge (store : ArtifactStore) : CanaryBridge :=
  ⟨store, cleanConfig, readyScope, [digestOf 0]⟩

def readyTurn : Turn := ⟨nopsTime, "seed", cleanWorld, nopsTime, fun _ => false⟩

/-- The artifact of one step is made a candidate. -/
theorem recorded_ready : ∃ store envelope manifest payload validation canary candidate,
    Recorded zeroHash cleanLoads (readyBridge store) readyTurn (digestOf 0) envelope (digestOf 0)
      manifest payload validation canary candidate ∧ canary.val.runnerHash = digestOf 0 := by
  obtain ⟨haccepted, store, envelope, hstore, henvelope⟩ := exists_nopsEnvelope
  obtain ⟨hlength, manifest, payload, hmanifest, hpayload, hrevalidates⟩ := And.intro
    (validateArtifact_stored rfl haccepted hstore henvelope (.refl _)
      (mem_artifacts_of_buildEnvelope henvelope) nopsTime).1
    (revalidates_of_mem haccepted hstore henvelope (.refl _)
      (mem_artifacts_of_buildEnvelope henvelope))
  have hbuilt : ∃ validation, buildValidationReport zeroHash (digestOf 0) envelope (digestOf 0)
      manifest payload nopsTime = .ok validation := by
    refine buildValidationReport_iff.mpr ⟨hrevalidates, ?_⟩
    rw [hlength]
    decide +kernel
  obtain ⟨validation, hvalidation⟩ := hbuilt
  have hrunner : cleanWorld.readBytes cleanConfig.runnerPath = some [] := rfl
  obtain ⟨canary, hcanary, resultDigest, hfields⟩ := runCanary_eq_ok zeroHash cleanLoads
    (CanaryBridge.binding zeroHash (digestOf 0) (digestOf 0) validation manifest) "seed" hrunner
    (by decide) rfl
  have hpassed : canary.val.outcome = .passed := by
    rw [hfields]
    exact outcomeOf_eq_passed.mpr (passedOf_measuredOf.mpr cleanOutput_passes)
  have hready : ∃ candidate, buildExecutionCandidate zeroHash
      (jsonDigest zeroHash validation.toJson) validation (jsonDigest zeroHash canary.val.toJson)
      canary.val (digestOf 0) manifest (readyBridge store).promotionScope nopsTime
      (readyBridge store).allowedRunnerHashes = .ok candidate :=
    (buildExecutionCandidate_isOk_iff nopsTime hvalidation hfields hpassed).mpr
      (List.mem_singleton_self _)
  obtain ⟨candidate, hcandidate⟩ := hready
  refine ⟨store, envelope, manifest, payload, validation, canary, candidate,
    ⟨hmanifest, hpayload, hvalidation, hcanary, hcandidate⟩, ?_⟩
  rw [hfields]
  rfl

end IouAi.Authority
