import IouAi.Authority.Canary
import IouAi.Authority.Reports
import IouAi.Storage.Quarantine

/-!
# The canary bridge

`_process_artifact` takes one compiled artifact of an envelope through its validation report, its
canary and, when the canary passed, an execution candidate. Each of these steps raises an error of its
own class; `processArtifact_isOk_iff` says when none does. `process_envelope` loads the envelope and
processes its artifacts in order, until one raises.
-/

namespace IouAi.Authority

open Calendar Checks Wire

variable (sha256 : Sha256) (loads : Bytes → Option Json)

/-! ## Execution candidates -/

def CanaryOutcome.text : CanaryOutcome → String
  | .passed => "passed"
  | .rejected => "rejected"
  | .infrastructureFailure => "infrastructure_failure"

def CanaryReportFields.toJson (report : CanaryReportFields) : Json :=
  .obj [("schema_version", .str "nyx-canary-report.v1"), ("report_id", .str report.reportId),
    ("started_at", .str report.startedAt), ("finished_at", .str report.finishedAt),
    ("envelope_digest", .str report.envelopeDigest),
    ("validation_report_digest", .str report.validationReportDigest),
    ("artifact_manifest_digest", .str report.artifactManifestDigest),
    ("artifact_digest", .str report.artifactDigest), ("target_hashes", report.targetHashes.toJson),
    ("runner_hash", .str report.runnerHash),
    ("runner_result_digest", .str report.runnerResultDigest),
    ("outcome", .str report.outcome.text), ("exact_seed_dry_runs", .num report.exactSeedDryRuns),
    ("executions_total", .num report.executionsTotal),
    ("timeout_seconds", .num report.timeoutSeconds),
    ("harness_accepted", .bool report.harnessAccepted),
    ("infrastructure_error", .bool report.infrastructureError),
    ("runner_exit_code", .num report.runnerExitCode), ("timed_out", .bool report.timedOut),
    ("signal_number", .num report.signalNumber),
    ("fleet_snapshot_before", .str report.fleetSnapshotBefore),
    ("fleet_snapshot_after", .str report.fleetSnapshotAfter),
    ("live_fleet_touched", .bool report.liveFleetTouched)]

structure ExecutionCandidate where
  candidateId : Identifier
  readyAt : Timestamp
  envelopeDigest : Digest
  artifactManifestDigest : Digest
  artifactDigest : Digest
  artifactSizeBytes : ArtifactSize
  validationReportDigest : Digest
  canaryReportDigest : Digest
  targetHashes : TargetHashes
  promotionScope : PromotionScope

def ExecutionCandidate.toJson (candidate : ExecutionCandidate) : Json :=
  .obj [("schema_version", .str "execution-candidate.v1"),
    ("candidate_id", .str candidate.candidateId), ("ready_at", .str candidate.readyAt),
    ("envelope_digest", .str candidate.envelopeDigest),
    ("artifact_manifest_digest", .str candidate.artifactManifestDigest),
    ("artifact_digest", .str candidate.artifactDigest),
    ("artifact_size_bytes", .num candidate.artifactSizeBytes.val),
    ("validation_report_digest", .str candidate.validationReportDigest),
    ("canary_report_digest", .str candidate.canaryReportDigest),
    ("target_hashes", candidate.targetHashes.toJson),
    ("promotion_scope", candidate.promotionScope.toJson), ("canary_outcome", .str "passed"),
    ("human_execution_approval_required", .bool true), ("live_promotion_authorized", .bool false)]

inductive CandidateError
  | validationDigest
  | canaryDigest
  | manifestDigest
  | canaryUnbound
  | notPassed
  | runnerNotAllowlisted
  | bindingsDisagree
  deriving DecidableEq

/-- Cross-bind a passed canary to one exact, locally validated artifact. -/
def buildExecutionCandidate (validationReportDigest : Digest)
    (validation : DeterministicValidationReport) (canaryReportDigest : Digest)
    (canary : CanaryReportFields) (artifactManifestDigest : Digest) (manifest : ArtifactManifest)
    (promotionScope : PromotionScope) (readyAt : Timestamp) (allowedRunnerHashes : List Digest) :
    Except CandidateError ExecutionCandidate := do
  raiseIf (jsonDigest sha256 validation.toJson ≠ validationReportDigest) .validationDigest
  raiseIf (jsonDigest sha256 canary.toJson ≠ canaryReportDigest) .canaryDigest
  raiseIf (jsonDigest sha256 manifest.toJson ≠ artifactManifestDigest) .manifestDigest
  raiseIf (validationReportDigest ≠ canary.validationReportDigest) .canaryUnbound
  raiseIf (canary.outcome ≠ .passed) .notPassed
  raiseIf (canary.runnerHash ∉ allowedRunnerHashes) .runnerNotAllowlisted
  raiseIf (¬ (validation.envelopeDigest = canary.envelopeDigest
    ∧ validation.artifactManifestDigest = canary.artifactManifestDigest
    ∧ canary.artifactManifestDigest = artifactManifestDigest
    ∧ validation.artifactDigest = canary.artifactDigest
    ∧ canary.artifactDigest = manifest.payloadDigest
    ∧ validation.artifactSizeBytes = manifest.payloadSizeBytes
    ∧ validation.targetHashes = canary.targetHashes
    ∧ canary.targetHashes = manifest.targetHashes)) .bindingsDisagree
  return {
    candidateId := taggedId "candidate-" canaryReportDigest (by decide)
    readyAt := readyAt
    envelopeDigest := validation.envelopeDigest
    artifactManifestDigest := artifactManifestDigest
    artifactDigest := manifest.payloadDigest
    artifactSizeBytes := manifest.payloadSizeBytes
    validationReportDigest := validationReportDigest
    canaryReportDigest := canaryReportDigest
    targetHashes := manifest.targetHashes
    promotionScope := promotionScope }

/-! ## One artifact -/

/-- What is written while an artifact is processed: two reports, the seed of the canary, and the
candidate. -/
inductive AuthorityWrite
  | validation
  | seed
  | report
  | candidate
  deriving DecidableEq

/-- The exceptions of `_process_artifact`. -/
inductive ProcessError
  | artifact (error : ArtifactError)
  | authority (error : ExecutionAuthorityError)
  | canary (error : CanaryError)
  | candidate (error : CandidateError)
  | write (file : AuthorityWrite)
  deriving DecidableEq

/-- What the world does while an artifact is processed: the times, the path of the seed, what the
canary sees, and the writes that raise. -/
structure Turn where
  createdAt : Timestamp
  seedPath : String
  world : CanaryWorld
  readyAt : Timestamp
  raises : AuthorityWrite → Bool

inductive ServiceOutcome
  | candidateReady
  | rejected
  | infrastructureFailure
  deriving DecidableEq

structure ArtifactResult where
  outcome : ServiceOutcome
  canaryReportDigest : Digest
  candidateDigest : Option Digest
  deriving DecidableEq

structure CanaryBridge where
  artifacts : ArtifactStore
  canaryConfig : CanaryConfig
  promotionScope : PromotionScope
  allowedRunnerHashes : List Digest

namespace CanaryBridge

variable (bridge : CanaryBridge) (turn : Turn) (envelopeDigest : Digest)
  (envelope : QuarantineEnvelope) (manifestDigest : Digest)

/-- What the canary of an artifact is stamped against. -/
def binding (validation : DeterministicValidationReport) (manifest : ArtifactManifest) :
    CanaryBinding where
  envelopeDigest := envelopeDigest
  validationReportDigest := jsonDigest sha256 validation.toJson
  artifactManifestDigest := manifestDigest
  artifactDigest := manifest.payloadDigest
  targetHashes := manifest.targetHashes

/-- The end of `_process_artifact`, when the canary has a report. -/
def recordCanary (validation : DeterministicValidationReport) (manifest : ArtifactManifest)
    (canary : CanaryReport) : Except ProcessError ArtifactResult := do
  raiseIf (turn.raises .report = true) (.write .report)
  let canaryReportDigest := jsonDigest sha256 canary.val.toJson
  match canary.val.outcome with
  | .passed =>
    let candidate ← (buildExecutionCandidate sha256 (jsonDigest sha256 validation.toJson) validation
      canaryReportDigest canary.val manifestDigest manifest bridge.promotionScope turn.readyAt
      bridge.allowedRunnerHashes).mapError .candidate
    raiseIf (turn.raises .candidate = true) (.write .candidate)
    return ⟨.candidateReady, canaryReportDigest, some (jsonDigest sha256 candidate.toJson)⟩
  | .infrastructureFailure => return ⟨.infrastructureFailure, canaryReportDigest, none⟩
  | .rejected => return ⟨.rejected, canaryReportDigest, none⟩

/-- `_process_artifact`. -/
def processArtifact : Except ProcessError ArtifactResult := do
  let manifest ← (bridge.artifacts.getManifest sha256 manifestDigest).mapError .artifact
  let payload ← (bridge.artifacts.getPayload sha256 manifest).mapError .artifact
  let validation ← (buildValidationReport sha256 envelopeDigest envelope manifestDigest manifest
    payload turn.createdAt).mapError .authority
  raiseIf (turn.raises .validation = true) (.write .validation)
  raiseIf (turn.raises .seed = true) (.write .seed)
  let canary ← (runCanary sha256 loads
    (binding sha256 envelopeDigest manifestDigest validation manifest) bridge.canaryConfig
    turn.seedPath turn.world).mapError .canary
  recordCanary sha256 bridge turn manifestDigest validation manifest canary

end CanaryBridge

/-! ## When an artifact is processed -/

section Processable

variable (bridge : CanaryBridge) (turn : Turn) (envelopeDigest : Digest)
  (envelope : QuarantineEnvelope) (manifestDigest : Digest)

/-- The artifact is stored, agrees with its envelope, and its checks fit in a report. -/
def Intact : Prop :=
  ∃ manifest payload, bridge.artifacts.getManifest sha256 manifestDigest = .ok manifest ∧
    bridge.artifacts.getPayload sha256 manifest = .ok payload ∧
    Revalidates sha256 envelopeDigest envelope manifestDigest manifest payload ∧
    (passedIds envelope.fields.validations).length ≤ 128

/-- The canary starts: the artifact is intact, the report and the seed are written, and the runner is
there. -/
structure Starts (program : Bytes) : Prop where
  intact : Intact sha256 bridge envelopeDigest envelope manifestDigest
  validation_written : turn.raises .validation = false
  seed_written : turn.raises .seed = false
  runner : turn.world.readBytes bridge.canaryConfig.runnerPath = some program

/-- The canary passes. -/
def PassesCanary : Prop :=
  Passes loads bridge.canaryConfig (turn.world.result bridge.canaryConfig turn.seedPath)

/-- The canary starts and leaves the fleet alone, its clock does not go back, its report is written,
and when it passes its runner is an allowed one and its candidate is written. -/
structure Processable (program : Bytes) : Prop
    extends Starts sha256 bridge turn envelopeDigest envelope manifestDigest program where
  fleet : turn.world.snapshotBefore = turn.world.snapshotAfter
  clock : turn.world.started.floorSecond ≤ turn.world.finished.floorSecond
  report_written : turn.raises .report = false
  allowed : PassesCanary loads bridge turn →
    contentDigest sha256 program ∈ bridge.allowedRunnerHashes
  candidate_written : PassesCanary loads bridge turn → turn.raises .candidate = false

/-- The canary starts and the fleet changes. -/
structure Disturbs (program : Bytes) : Prop
    extends Starts sha256 bridge turn envelopeDigest envelope manifestDigest program where
  fleet : turn.world.snapshotBefore ≠ turn.world.snapshotAfter

end Processable

section Cases

variable {sha256 : Sha256} {loads : Bytes → Option Json} {bridge : CanaryBridge} {turn : Turn}
  {envelopeDigest : Digest} {envelope : QuarantineEnvelope} {manifestDigest : Digest}
  {validation : DeterministicValidationReport} {manifest : ArtifactManifest} {payload : Bytes}
  {canary : CanaryReport}

theorem mapError_eq_ok {ε ε' α : Type} {x : Except ε α} {f : ε → ε'} {a : α} :
    x.mapError f = .ok a ↔ x = .ok a := by
  cases x <;> simp [Except.mapError]

theorem mapError_eq_error {ε ε' α : Type} {x : Except ε α} {f : ε → ε'} {e : ε'} :
    x.mapError f = .error e ↔ ∃ e', x = .error e' ∧ f e' = e := by
  cases x <;> simp [Except.mapError]

/-- What a validation report says of the artifact. -/
theorem fields_of_buildValidationReport {createdAt : Timestamp}
    (h : buildValidationReport sha256 envelopeDigest envelope manifestDigest manifest payload createdAt
      = .ok validation) :
    validation.envelopeDigest = envelopeDigest ∧
      validation.artifactManifestDigest = manifestDigest ∧
      validation.artifactDigest = manifest.payloadDigest ∧
      validation.artifactSizeBytes = manifest.payloadSizeBytes ∧
      validation.targetHashes = manifest.targetHashes := by
  unfold buildValidationReport at h
  simp only [raiseIf_bind_eq_ok] at h
  obtain ⟨-, -, -, -, -, -, -, -, -, -, -, -, -, -, h⟩ := h
  split at h
  · cases h
  · split at h
    · cases h
    · simp only [raiseIf_bind_eq_ok] at h
      obtain ⟨-, -, h⟩ := h
      split at h
      · cases h
        exact ⟨rfl, rfl, rfl, rfl, rfl⟩
      · cases h

/-- The candidate of a passed canary is built when the runner is an allowed one: every other check
compares what was just copied. -/
theorem buildExecutionCandidate_isOk_iff (readyAt : Timestamp) {createdAt : Timestamp}
    {world : CanaryWorld}
    {program : Bytes} {resultDigest : Digest} {exitCode : ℤ} {measured : Measurement}
    (hvalidation : buildValidationReport sha256 envelopeDigest envelope manifestDigest manifest
      payload createdAt = .ok validation)
    (hcanary : canary.val = reportFields sha256
      (CanaryBridge.binding sha256 envelopeDigest manifestDigest validation manifest)
      bridge.canaryConfig world (contentDigest sha256 program) resultDigest exitCode measured)
    (hpassed : canary.val.outcome = .passed) :
    (∃ candidate, buildExecutionCandidate sha256 (jsonDigest sha256 validation.toJson) validation
        (jsonDigest sha256 canary.val.toJson) canary.val manifestDigest manifest
        bridge.promotionScope readyAt bridge.allowedRunnerHashes = .ok candidate)
      ↔ contentDigest sha256 program ∈ bridge.allowedRunnerHashes := by
  obtain ⟨henvelope, hmanifest, hartifact, hsize, htargets⟩ :=
    fields_of_buildValidationReport hvalidation
  have hdigest : jsonDigest sha256 manifest.toJson = manifestDigest :=
    (buildValidationReport_iff.mp ⟨_, hvalidation⟩).1.manifest_digest.symm
  have hbindings : canary.val.envelopeDigest = envelopeDigest ∧
      canary.val.validationReportDigest = jsonDigest sha256 validation.toJson ∧
      canary.val.artifactManifestDigest = manifestDigest ∧
      canary.val.artifactDigest = manifest.payloadDigest ∧
      canary.val.targetHashes = manifest.targetHashes ∧
      canary.val.runnerHash = contentDigest sha256 program := by
    rw [hcanary]
    exact ⟨rfl, rfl, rfl, rfl, rfl, rfl⟩
  obtain ⟨h₁, h₂, h₃, h₄, h₅, h₆⟩ := hbindings
  unfold buildExecutionCandidate
  simp only [raiseIf_bind_eq_ok, ne_eq, not_true_eq_false, not_false_eq_true, true_and, hdigest, h₁,
    h₂, h₃, h₄, h₅, h₆, hpassed, henvelope, hmanifest, hartifact, hsize, htargets, and_self,
    not_not, exists_and_left]
  exact and_iff_left ⟨_, rfl⟩

/-- What follows the canary. -/
theorem recordCanary_isOk_iff {createdAt : Timestamp} {program : Bytes} {resultDigest : Digest}
    (hvalidation : buildValidationReport sha256 envelopeDigest envelope manifestDigest manifest
      payload createdAt = .ok validation)
    (hcanary : canary.val = reportFields sha256
      (CanaryBridge.binding sha256 envelopeDigest manifestDigest validation manifest)
      bridge.canaryConfig turn.world (contentDigest sha256 program) resultDigest
      (turn.world.result bridge.canaryConfig turn.seedPath).exitCode
      (measuredOf loads (turn.world.result bridge.canaryConfig turn.seedPath))) :
    (∃ result, bridge.recordCanary sha256 turn manifestDigest validation manifest canary = .ok result)
      ↔ turn.raises .report = false ∧
        (PassesCanary loads bridge turn → contentDigest sha256 program ∈ bridge.allowedRunnerHashes)
        ∧ (PassesCanary loads bridge turn → turn.raises .candidate = false) := by
  have hpasses : canary.val.outcome = .passed ↔ PassesCanary loads bridge turn := by
    rw [hcanary]
    exact outcomeOf_eq_passed.trans passedOf_measuredOf
  have hcandidate := buildExecutionCandidate_isOk_iff turn.readyAt hvalidation hcanary
  unfold CanaryBridge.recordCanary
  rw [← hpasses]
  simp only [raiseIf_bind_eq_ok, Bool.not_eq_true, exists_and_left]
  refine and_congr_right fun _ => ?_
  cases houtcome : canary.val.outcome with
  | passed =>
    simp only [bind_eq_ok, mapError_eq_ok, raiseIf_eq_ok, Bool.not_eq_true, true_imp_iff]
    constructor
    · rintro ⟨result, candidate, hbuilt, -, hwritten, -⟩
      exact ⟨(hcandidate houtcome).mp ⟨candidate, hbuilt⟩, hwritten⟩
    · rintro ⟨hallowed, hwritten⟩
      obtain ⟨candidate, hbuilt⟩ := (hcandidate houtcome).mpr hallowed
      exact ⟨_, candidate, hbuilt, (), hwritten, rfl⟩
  | rejected => simp [pure, Except.pure]
  | infrastructureFailure => simp [pure, Except.pure]

theorem recordCanary_ne_canary {error : CanaryError} :
    bridge.recordCanary sha256 turn manifestDigest validation manifest canary
      ≠ .error (.canary error) := by
  unfold CanaryBridge.recordCanary
  intro h
  rcases raiseIf_bind_eq_error.mp h with ⟨-, h⟩ | ⟨-, h⟩
  · cases h
  split at h
  · rcases bind_eq_error.mp h with h | ⟨candidate, -, h⟩
    · obtain ⟨_, -, h⟩ := mapError_eq_error.mp h
      cases h
    · rcases raiseIf_bind_eq_error.mp h with ⟨-, h⟩ | ⟨-, h⟩ <;> cases h
  · cases h
  · cases h

/-- An artifact that does not get as far as its validation report. -/
theorem processArtifact_of_not_intact (loads : Bytes → Option Json) (turn : Turn)
    (h : ¬ Intact sha256 bridge envelopeDigest envelope manifestDigest) :
    ∃ error, bridge.processArtifact sha256 loads turn envelopeDigest envelope manifestDigest
      = .error error ∧ ∀ error', error ≠ .canary error' := by
  unfold CanaryBridge.processArtifact
  cases hmanifest : bridge.artifacts.getManifest sha256 manifestDigest with
  | error error => exact ⟨_, rfl, fun _ h => nomatch h⟩
  | ok manifest =>
    cases hpayload : bridge.artifacts.getPayload sha256 manifest with
    | error error =>
      refine ⟨.artifact error, ?_, fun _ h => nomatch h⟩
      simp [Except.mapError, bind, Except.bind, hpayload]
    | ok payload =>
      cases hreport : buildValidationReport sha256 envelopeDigest envelope manifestDigest manifest
          payload turn.createdAt with
      | error error =>
        refine ⟨.authority error, ?_, fun _ h => nomatch h⟩
        simp [Except.mapError, bind, Except.bind, hpayload, hreport]
      | ok report =>
        obtain ⟨hrevalidates, hfit⟩ := buildValidationReport_iff.mp ⟨report, hreport⟩
        exact absurd ⟨manifest, payload, hmanifest, hpayload, hrevalidates, hfit⟩ h

/-- An intact artifact gets as far as the writes that precede its canary. -/
theorem processArtifact_of_intact (loads : Bytes → Option Json) (turn : Turn)
    (h : Intact sha256 bridge envelopeDigest envelope manifestDigest) :
    ∃ manifest payload validation, buildValidationReport sha256 envelopeDigest envelope
        manifestDigest manifest payload turn.createdAt = .ok validation ∧
      bridge.processArtifact sha256 loads turn envelopeDigest envelope manifestDigest = (do
        raiseIf (turn.raises .validation = true) (.write .validation)
        raiseIf (turn.raises .seed = true) (.write .seed)
        let canary ← (runCanary sha256 loads
          (CanaryBridge.binding sha256 envelopeDigest manifestDigest validation manifest)
          bridge.canaryConfig turn.seedPath turn.world).mapError .canary
        bridge.recordCanary sha256 turn manifestDigest validation manifest canary) := by
  obtain ⟨manifest, payload, hmanifest, hpayload, hrevalidates, hfit⟩ := h
  have hbuilt : ∃ validation, buildValidationReport sha256 envelopeDigest envelope manifestDigest
      manifest payload turn.createdAt = .ok validation :=
    buildValidationReport_iff.mpr ⟨hrevalidates, hfit⟩
  obtain ⟨validation, hreport⟩ := hbuilt
  refine ⟨manifest, payload, validation, hreport, ?_⟩
  unfold CanaryBridge.processArtifact
  simp only [hmanifest, Except.mapError, bind, Except.bind, hpayload, hreport]

/-- **When an artifact is processed.** -/
theorem processArtifact_isOk_iff :
    (∃ result, bridge.processArtifact sha256 loads turn envelopeDigest envelope manifestDigest
        = .ok result)
      ↔ ∃ program, Processable sha256 loads bridge turn envelopeDigest envelope manifestDigest
          program := by
  by_cases hintact : Intact sha256 bridge envelopeDigest envelope manifestDigest
  swap
  · obtain ⟨error, herror, -⟩ := processArtifact_of_not_intact loads turn hintact
    simp only [herror, reduceCtorEq, exists_false, false_iff, not_exists]
    exact fun program h => hintact h.intact
  obtain ⟨manifest, payload, validation, hvalidation, hprocess⟩ :=
    processArtifact_of_intact loads turn hintact
  rw [hprocess]
  simp only [raiseIf_bind_eq_ok, Bool.not_eq_true]
  simp only [bind_eq_ok, mapError_eq_ok]
  constructor
  · rintro ⟨result, hreport, hseed, canary, hcanary, hrecord⟩
    cases hrunner : turn.world.readBytes bridge.canaryConfig.runnerPath with
    | none =>
      rw [runCanary_unavailable hrunner] at hcanary
      cases hcanary
    | some program =>
      have hfleet : turn.world.snapshotBefore = turn.world.snapshotAfter := by
        by_contra hne
        rw [runCanary_disturbed hrunner hne] at hcanary
        cases hcanary
      obtain ⟨resultDigest, hrun⟩ := runCanary_of_fleet sha256 loads
        (CanaryBridge.binding sha256 envelopeDigest manifestDigest validation manifest)
        turn.seedPath hrunner hfleet
      rw [hrun, mapError_eq_ok] at hcanary
      obtain ⟨hvalid, hfields⟩ := CanaryReport.create_eq_ok_iff.mp hcanary
      obtain ⟨hwritten, hallowed, hcandidate⟩ :=
        (recordCanary_isOk_iff hvalidation hfields).mp ⟨result, hrecord⟩
      exact ⟨program, ⟨hintact, hreport, hseed, hrunner⟩, hfleet, floorSecond_le_of_validate hvalid,
        hwritten, hallowed, hcandidate⟩
  · rintro ⟨program, h⟩
    obtain ⟨canary, hcanary, resultDigest, hfields⟩ := runCanary_eq_ok sha256 loads
      (CanaryBridge.binding sha256 envelopeDigest manifestDigest validation manifest)
      turn.seedPath h.runner h.clock h.fleet
    obtain ⟨result, hrecord⟩ := (recordCanary_isOk_iff hvalidation hfields).mpr
      ⟨h.report_written, h.allowed, h.candidate_written⟩
    exact ⟨result, h.validation_written, h.seed_written, canary, hcanary, hrecord⟩

/-- **When an artifact's canary is stopped for the sake of the fleet.** -/
theorem processArtifact_disturbed_iff :
    bridge.processArtifact sha256 loads turn envelopeDigest envelope manifestDigest
        = .error (.canary (.canaryRun .fleetDisturbed))
      ↔ ∃ program, Disturbs sha256 bridge turn envelopeDigest envelope manifestDigest program := by
  by_cases hintact : Intact sha256 bridge envelopeDigest envelope manifestDigest
  swap
  · obtain ⟨error, herror, hne⟩ :=
      processArtifact_of_not_intact loads turn hintact
    rw [herror, Except.error.injEq]
    exact iff_of_false (hne _) fun ⟨program, h⟩ => hintact h.intact
  obtain ⟨manifest, payload, validation, hvalidation, hprocess⟩ :=
    processArtifact_of_intact loads turn hintact
  rw [hprocess, raiseIf_bind_eq_error, raiseIf_bind_eq_error, bind_eq_error, mapError_eq_error]
  simp only [reduceCtorEq, and_false, false_or, Bool.not_eq_true]
  constructor
  · rintro ⟨hreport, hseed, ⟨error, herror, hcanary⟩ | ⟨canary, -, hrecord⟩⟩
    · obtain rfl := ProcessError.canary.inj hcanary
      obtain ⟨⟨program, hrunner⟩, hfleet⟩ := runCanary_eq_fleetDisturbed.mp herror
      exact ⟨program, ⟨hintact, hreport, hseed, hrunner⟩, hfleet⟩
    · exact absurd hrecord recordCanary_ne_canary
  · rintro ⟨program, h⟩
    exact ⟨h.validation_written, h.seed_written,
      .inl ⟨_, runCanary_eq_fleetDisturbed.mpr ⟨⟨program, h.runner⟩, h.fleet⟩, rfl⟩⟩

end Cases

/-! ## One envelope -/

inductive CanaryServiceError
  | unavailable (error : Storage.QuarantineError)
  | invalid
  deriving DecidableEq

/-- The exceptions of `process_envelope`. -/
inductive BridgeError
  | service (error : CanaryServiceError)
  | process (error : ProcessError)
  deriving DecidableEq

/-- The limit of `QuarantineStore.get`. -/
def maxEnvelopeBytes : ℕ := 2 * 1024 * 1024

/-- The envelope under a digest. The parser of the model takes the fields of a stored object. -/
def loadEnvelope (parseEnvelope : Storage.QuarantineStore.Envelope → Option QuarantineEnvelope)
    (quarantine : Storage.Quarantine) (digest : Digest) : Except CanaryServiceError QuarantineEnvelope :=
  match Storage.QuarantineStore.get sha256 loads maxEnvelopeBytes quarantine digest with
  | .error error => .error (.unavailable error)
  | .ok raw =>
    match parseEnvelope raw with
    | none => .error .invalid
    | some envelope => .ok envelope

/-- How the processing of an artifact ends, for the digest of its envelope, the envelope, the position
of the artifact in it and the digest of its manifest. -/
abbrev Attempt := Digest → QuarantineEnvelope → ℕ → Digest → Except ProcessError ArtifactResult

/-- Process the artifacts in order, until one raises. -/
def processArtifacts (attempt : ℕ → Digest → Except ProcessError ArtifactResult) :
    ℕ → List Digest → List (Digest × ArtifactResult) × Option ProcessError
  | _, [] => ([], none)
  | position, manifestDigest :: manifestDigests =>
    match attempt position manifestDigest with
    | .error error => ([], some error)
    | .ok result =>
      let (results, error?) := processArtifacts attempt (position + 1) manifestDigests
      ((manifestDigest, result) :: results, error?)

/-- What the processing of an envelope leaves: the results of its artifacts, up to the one that
raised. -/
structure Visit where
  envelopeDigest : Digest
  results : List (Digest × ArtifactResult)
  error? : Option BridgeError

/-- `process_envelope`. -/
def processEnvelope (parseEnvelope : Storage.QuarantineStore.Envelope → Option QuarantineEnvelope)
    (attempt : Attempt) (quarantine : Storage.Quarantine) (digest : Digest) : Visit :=
  match loadEnvelope sha256 loads parseEnvelope quarantine digest with
  | .error error => ⟨digest, [], some (.service error)⟩
  | .ok envelope =>
    let (results, error?) :=
      processArtifacts (attempt digest envelope) 0 envelope.fields.compiledArtifactHashes
    ⟨digest, results, error?.map .process⟩

end IouAi.Authority
