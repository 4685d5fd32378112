import IouAi.Authority.Processing

/-!
# What a promotion rests on

The first half of `Promoter.promote`. It takes the one execution decision on a candidate from the
archive, reads every record that the decision names back from its store, builds the report and the
candidate from them again, and compares the targets with the current ones (`authorize`). The lemmas
say when all of this passes (`authorize_eq_ok`); the time of the promotion plays no part in it.
-/

namespace IouAi.Authority

open Calendar Checks Wire

/-! ## Destinations -/

/-- A destination of the root-owned policy. -/
structure DestinationSpec where
  destinationId : Destination
  campaignId : String
  workerSet : WorkerSet
  inbox : String
  allowedRunnerHashes : List Digest
  destination_matches_workers : destinationId = workerSet.destination
  campaignId_ne : campaignId ≠ ""
  campaignId_le : campaignId.toList.length ≤ 96
  runners_ne : allowedRunnerHashes ≠ []

/-- The scope that the policy of a destination allows. The campaign of a policy need not be an
identifier. -/
def DestinationSpec.scope? (spec : DestinationSpec) : Option PromotionScope :=
  if h : isIdentifier spec.campaignId = true then
    some ⟨⟨spec.campaignId, h⟩, spec.destinationId, spec.workerSet, spec.destination_matches_workers⟩
  else none

/-- The destinations of a promoter. The keys are the identifiers of the values. -/
structure Destinations where
  get? : Destination → Option DestinationSpec
  consistent : ∀ id, (get? id).isSome ↔ ∃ key spec, get? key = some spec ∧ spec.destinationId = id

/-! ## Receipts -/

structure PromotionReceipt where
  candidateDigest : String
  decisionDigest : String
  eventDigest : String
  envelopeDigest : String
  artifactManifestDigest : String
  artifactDigest : String
  validationReportDigest : String
  canaryReportDigest : String
  targetHashes : TargetHashes
  destinationId : Destination
  destinationEntryId : String
  promotedAt : Timestamp
  deriving DecidableEq

namespace PromotionReceipt

variable (receipt : PromotionReceipt)

def toJson : Json :=
  .obj [("schema_version", .str "promotion-receipt.v1"),
    ("candidate_digest", .str receipt.candidateDigest),
    ("decision_digest", .str receipt.decisionDigest), ("event_digest", .str receipt.eventDigest),
    ("envelope_digest", .str receipt.envelopeDigest),
    ("artifact_manifest_digest", .str receipt.artifactManifestDigest),
    ("artifact_digest", .str receipt.artifactDigest),
    ("validation_report_digest", .str receipt.validationReportDigest),
    ("canary_report_digest", .str receipt.canaryReportDigest),
    ("target_hashes", receipt.targetHashes.toJson),
    ("destination_id", .str receipt.destinationId.text),
    ("destination_entry_id", .str receipt.destinationEntryId),
    ("promoted_at", .str receipt.promotedAt)]

def payload : Bytes := canonicalJson receipt.toJson

end PromotionReceipt

/-- `removeprefix("sha256:")`. -/
def removePrefix (text : String) : String :=
  if text.toList.take 7 = "sha256:".toList then String.ofList (text.toList.drop 7) else text

theorem isHex64_removePrefix (digest : Digest) : isHex64 (removePrefix digest.val) = true := by
  have h := digest.2
  simp only [isDigest, Bool.and_eq_true, decide_eq_true_eq] at h
  rw [removePrefix, if_pos h.1.1, isHex64, String.toList_ofList, h.2, h.1.2]
  rfl

/-- The name of the receipt of a candidate, without its suffix. -/
def stemOf (digest : Digest) : Nonce256 := ⟨removePrefix digest.val, isHex64_removePrefix digest⟩

/-- A digest is told by its hexadecimal part. -/
theorem stemOf_injective : Function.Injective stemOf := by
  intro digest other h
  have htext : ∀ d : Digest, d.val.toList = "sha256:".toList ++ (stemOf d).val.toList := by
    intro d
    have hd := d.2
    simp only [isDigest, Bool.and_eq_true, decide_eq_true_eq] at hd
    have hstem : (stemOf d).val.toList = d.val.toList.drop 7 := by
      change (removePrefix d.val).toList = _
      rw [removePrefix, if_pos hd.1.1, String.toList_ofList]
    rw [hstem, ← hd.1.1, List.take_append_drop]
  refine Subtype.ext (String.toList_inj.mp ?_)
  rw [htext digest, htext other, h]

/-! ## Errors -/

/-- The exceptions of the class `PromotionError`. -/
inductive PromotionError
  | oneDecision
  | decisionInvalid (error : DecisionError)
  | offlineDecision
  | notApproved
  | eventVersion
  | candidateDiffers
  | envelopeInvalid (error : CanaryServiceError)
  | validationDiffers
  | notAllowlisted
  | scopeDiffers
  | candidateNotReproduced
  | contract
  | drifted
  | lockHeld
  | unbounded
  | receiptInvalid
  | receiptNotCanonical
  | receiptFilename
  | alreadyPublished
  | driftedDuringPromotion
  | directory
  | wrongBytes
  | receiptCollision
  deriving DecidableEq

/-- The exceptions of `promote`. A scope that the model refuses, an operation that raises and a kill
are of no class of the program. -/
inductive PromoteError
  | promotion (error : PromotionError)
  | decision (error : DecisionError)
  | authorityStore (error : Storage.AuthorityStoreError)
  | artifact (error : ArtifactError)
  | validation (error : ExecutionAuthorityError)
  | candidate (error : CandidateError)
  | scope
  | interrupted
  deriving DecidableEq

/-! ## Records that can be compared -/

attribute [ext] DeterministicValidationReport ExecutionCandidate

instance : DecidableEq DeterministicValidationReport := fun _ _ =>
  decidable_of_iff _ DeterministicValidationReport.ext_iff.symm

instance : DecidableEq ExecutionCandidate := fun _ _ =>
  decidable_of_iff _ ExecutionCandidate.ext_iff.symm

/-! ## Authorization -/

variable (sha256 : Sha256)

/-- The stores that a promoter reads. -/
structure HostStores where
  events : Outbox sha256
  decisions : DecisionArchive
  quarantine : Storage.Quarantine
  artifacts : ArtifactStore
  validations : Archive Digest Bytes
  reports : Archive Digest Bytes
  candidates : Archive Digest Bytes

/-- What the parsers of the models make of texts. -/
structure PromotionParsers where
  loads : Storage.Parse Json
  envelope : Storage.QuarantineStore.Envelope → Option QuarantineEnvelope
  validation : Storage.Parse DeterministicValidationReport
  report : Storage.Parse CanaryReport
  candidate : Storage.Parse ExecutionCandidate
  receipt : Storage.Parse PromotionReceipt

/-- What does not change from one promotion to the next. -/
structure Promoter where
  hmac : HmacSha256
  key : VerificationKey
  parsers : PromotionParsers
  destinations : Destinations

/-- What a promoter has found when every check has passed. -/
structure Authorization where
  signed : SignedDecision
  decision : ExecutionDecision
  candidate : ExecutionCandidate
  spec : DestinationSpec
  payload : Bytes

/-- The digest of the candidate, which its decision is on. -/
def Authorization.candidateDigest (auth : Authorization) : Digest :=
  auth.decision.binding.candidateDigest

/-- The execution decisions on a candidate. -/
def decisionsOn (candidateDigest : String) (decisions : List SignedDecision) :
    List (SignedDecision × ExecutionDecision) :=
  decisions.filterMap fun signed =>
    match signed.decision with
    | .human _ => none
    | .execution decision =>
      if decision.binding.candidateDigest.val = candidateDigest then some (signed, decision) else none

/-- `_decision_for_candidate`. -/
def decisionForCandidate (decisions : List SignedDecision) (candidateDigest : String) :
    Except PromotionError (SignedDecision × ExecutionDecision) :=
  match decisionsOn candidateDigest decisions with
  | [found] => .ok found
  | _ => .error .oneDecision

/-- `_candidate_matches_decision`. -/
def CandidateMatchesDecision (candidate : ExecutionCandidate) (decision : ExecutionDecision) : Prop :=
  candidate.envelopeDigest = decision.binding.envelopeDigest ∧
    candidate.artifactManifestDigest = decision.binding.artifactManifestDigest ∧
    candidate.artifactDigest = decision.binding.artifactDigest ∧
    candidate.artifactSizeBytes = decision.binding.artifactSizeBytes ∧
    candidate.validationReportDigest = decision.binding.validationReportDigest ∧
    candidate.canaryReportDigest = decision.binding.canaryReportDigest ∧
    candidate.targetHashes = decision.binding.targetHashes ∧
    candidate.promotionScope = decision.binding.promotionScope

instance (candidate : ExecutionCandidate) (decision : ExecutionDecision) :
    Decidable (CandidateMatchesDecision candidate decision) :=
  inferInstanceAs (Decidable (_ ∧ _))

namespace Promoter

variable (promoter : Promoter)

/-- An object of the authority store. -/
def getAuthority {α : Type} (model : Storage.AuthorityModel α) (objects : Archive Digest Bytes)
    (digest : Digest) : Except PromoteError α :=
  (Storage.ExecutionAuthorityStore.decode sha256 model digest (objects.get? digest)).mapError
    .authorityStore

def candidateModel : Storage.AuthorityModel ExecutionCandidate :=
  ⟨ExecutionCandidate.toJson, promoter.parsers.candidate⟩

def validationModel : Storage.AuthorityModel DeterministicValidationReport :=
  ⟨DeterministicValidationReport.toJson, promoter.parsers.validation⟩

def reportModel : Storage.AuthorityModel CanaryReport :=
  ⟨fun report => report.val.toJson, promoter.parsers.report⟩

/-- The decision that the promotion rests on: the one execution decision on the candidate, imported
again, an approval, and on an event of a live execution. -/
def approvedDecision (stores : HostStores sha256) (candidateDigest : String) (current : Datetime) :
    Except PromoteError (SignedDecision × ExecutionDecision) := do
  let decisions ← (readArchive sha256 promoter.hmac promoter.key stores.decisions).mapError .decision
  let (signed, decision) ←
    (decisionForCandidate decisions candidateDigest).mapError .promotion
  let _ ← (importSigned sha256 promoter.hmac promoter.key stores.events stores.decisions signed
    current).mapError fun error => .promotion (.decisionInvalid error)
  raiseIf (decision.action ≠ .approveForLiveExecution
    ∨ decision.reasonCode ≠ .operatorApprovedLiveExecution) (.promotion .notApproved)
  let event ← (findEvent stores.events decision.core.eventDigest).mapError .decision
  match event with
  | .offline _ => throw (.promotion .eventVersion)
  | .execution _ => return (signed, decision)

/-- The records of a candidate are read back, the report and the candidate are built again from them,
and the seed is returned. -/
def reproduce (stores : HostStores sha256) (candidate : ExecutionCandidate) :
    Except PromoteError (DestinationSpec × Bytes) := do
  let validation ← getAuthority sha256 promoter.validationModel stores.validations
    candidate.validationReportDigest
  let canary ← getAuthority sha256 promoter.reportModel stores.reports candidate.canaryReportDigest
  let manifest ← (stores.artifacts.getManifest sha256 candidate.artifactManifestDigest).mapError
    .artifact
  let payload ← (stores.artifacts.getPayload sha256 manifest).mapError .artifact
  let envelope ← (loadEnvelope sha256 promoter.parsers.loads promoter.parsers.envelope
    stores.quarantine candidate.envelopeDigest).mapError fun error =>
      .promotion (.envelopeInvalid error)
  let rebuiltValidation ← (buildValidationReport sha256 candidate.envelopeDigest envelope
    candidate.artifactManifestDigest manifest payload validation.createdAt).mapError .validation
  raiseIf (rebuiltValidation ≠ validation) (.promotion .validationDiffers)
  match promoter.destinations.get? candidate.promotionScope.destinationId with
  | none => throw (.promotion .notAllowlisted)
  | some spec =>
    match spec.scope? with
    | none => throw .scope
    | some expectedScope =>
      raiseIf (candidate.promotionScope ≠ expectedScope) (.promotion .scopeDiffers)
      let rebuiltCandidate ← (buildExecutionCandidate sha256 candidate.validationReportDigest
        validation candidate.canaryReportDigest canary.val candidate.artifactManifestDigest manifest
        expectedScope candidate.readyAt spec.allowedRunnerHashes).mapError .candidate
      raiseIf (rebuiltCandidate ≠ candidate) (.promotion .candidateNotReproduced)
      return (spec, payload)

/-- `load_current_target_contract`, as what it returns, compared with the targets of the
candidate. -/
def checkTargets (probe : Option TargetHashes) (candidate : ExecutionCandidate)
    (drift : PromotionError) : Except PromoteError Unit :=
  match probe with
  | none => .error (.promotion .contract)
  | some targets => raiseIf (targets ≠ candidate.targetHashes) (.promotion drift)

/-- `promote`, up to the lock. -/
def authorize (stores : HostStores sha256) (candidateDigest : String) (current : Datetime)
    (probe : Option TargetHashes) : Except PromoteError Authorization := do
  let (signed, decision) ← approvedDecision sha256 promoter stores candidateDigest current
  let candidate ← getAuthority sha256 promoter.candidateModel stores.candidates
    decision.binding.candidateDigest
  raiseIf (¬ CandidateMatchesDecision candidate decision) (.promotion .candidateDiffers)
  let (spec, payload) ← reproduce sha256 promoter stores candidate
  checkTargets probe candidate .drifted
  return ⟨signed, decision, candidate, spec, payload⟩

end Promoter

/-! ## What is authorized -/

section Authorized

variable {sha256 : Sha256} {promoter : Promoter} {stores : HostStores sha256}

theorem mem_decisionsOn {candidateDigest : String} {decisions : List SignedDecision}
    {signed : SignedDecision} {decision : ExecutionDecision} :
    (signed, decision) ∈ decisionsOn candidateDigest decisions ↔ signed ∈ decisions ∧
      signed.decision = .execution decision ∧
      decision.binding.candidateDigest.val = candidateDigest := by
  rw [decisionsOn, List.mem_filterMap]
  constructor
  · rintro ⟨other, hother, h⟩
    cases hdecision : other.decision with
    | human human => simp [hdecision] at h
    | execution execution =>
      simp only [hdecision, Option.ite_none_right_eq_some, Option.some.injEq, Prod.mk.injEq] at h
      obtain ⟨hcandidate, rfl, rfl⟩ := h
      exact ⟨hother, hdecision, hcandidate⟩
  · rintro ⟨hsigned, hdecision, hcandidate⟩
    refine ⟨signed, hsigned, ?_⟩
    simp only [hdecision]
    exact if_pos hcandidate

theorem decisionForCandidate_eq_ok {candidateDigest : String} {decisions : List SignedDecision}
    {found : SignedDecision × ExecutionDecision} :
    decisionForCandidate decisions candidateDigest = .ok found
      ↔ decisionsOn candidateDigest decisions = [found] := by
  unfold decisionForCandidate
  split
  · rename_i other heq
    rw [heq]
    simp
  · rename_i hnone
    constructor
    · intro h
      cases h
    · intro h
      exact absurd h (hnone found)

theorem readArchive_eq_ok {hmac : HmacSha256} {key : VerificationKey} {archive : DecisionArchive}
    {decisions : List SignedDecision} :
    readArchive sha256 hmac key archive = .ok decisions ↔
      (∀ entry ∈ archive.entries, decisionFileDigest sha256 entry.2 = entry.1 ∧
        verifySignature hmac key entry.2) ∧
      decisions = (archive.entries.insertionSort fun entry other =>
        entry.1.val ≤ other.1.val).map Prod.snd := by
  have hitem : ∀ (entry : Digest × SignedDecision) signed, (do
      raiseIf (decisionFileDigest sha256 entry.2 ≠ entry.1) DecisionError.itemDigest
      raiseIf (¬ verifySignature hmac key entry.2) DecisionError.signature
      return entry.2) = Except.ok signed ↔ (decisionFileDigest sha256 entry.2 = entry.1 ∧
        verifySignature hmac key entry.2) ∧ signed = entry.2 := by
    intro entry signed
    simp only [raiseIf_bind_eq_ok, pure_eq_ok, not_not, eq_comm (a := signed), and_assoc]
  rw [readArchive, mapM_eq_ok hitem]
  simp only [List.mem_insertionSort]

theorem mem_of_readArchive {hmac : HmacSha256} {key : VerificationKey} {archive : DecisionArchive}
    {decisions : List SignedDecision} (h : readArchive sha256 hmac key archive = .ok decisions)
    {signed : SignedDecision} :
    signed ∈ decisions ↔ ∃ digest, (digest, signed) ∈ archive.entries := by
  rw [(readArchive_eq_ok.mp h).2]
  simp only [List.mem_map, List.mem_insertionSort, Prod.exists, exists_eq_right]

/-- A decision of the archive is known, or refused for another one on its event, without a look at
the event and at the time. -/
theorem importSigned_of_mem {hmac : HmacSha256} {key : VerificationKey} {archive : DecisionArchive}
    {decisions : List SignedDecision} (h : readArchive sha256 hmac key archive = .ok decisions)
    {signed : SignedDecision} (hmem : signed ∈ decisions) (outbox : Outbox sha256)
    (current : Datetime) :
    importSigned sha256 hmac key outbox archive signed current
      = (scanDecisions decisions signed).map fun _ => archive := by
  obtain ⟨digest, hentry⟩ := (mem_of_readArchive h).mp hmem
  have hverify := ((readArchive_eq_ok.mp h).1 _ hentry).2
  have hknown : scanDecisions decisions signed ≠ .ok false := by
    unfold scanDecisions
    split
    · rename_i hnone
      simpa using List.find?_eq_none.mp hnone signed hmem
    · split <;> simp
  rw [importSigned, raiseIf_bind_of_not (not_not.mpr hverify), h, ok_bind]
  cases hscan : scanDecisions decisions signed with
  | error error => rfl
  | ok known =>
    cases known with
    | false => exact absurd hscan hknown
    | true => rfl

/-- What `approvedDecision` finds. -/
structure Approves (promoter : Promoter) (stores : HostStores sha256) (candidateDigest : String)
    (signed : SignedDecision) (decision : ExecutionDecision) : Prop where
  read : ∃ decisions, readArchive sha256 promoter.hmac promoter.key stores.decisions = .ok decisions ∧
    decisionsOn candidateDigest decisions = [(signed, decision)] ∧
    scanDecisions decisions signed = .ok true
  action : decision.action = .approveForLiveExecution
  reason : decision.reasonCode = .operatorApprovedLiveExecution
  event : ∃ ready, findEvent stores.events decision.core.eventDigest = .ok (.execution ready)

theorem approvedDecision_eq_ok {candidateDigest : String} {current : Datetime}
    {signed : SignedDecision} {decision : ExecutionDecision} :
    promoter.approvedDecision sha256 stores candidateDigest current = .ok (signed, decision)
      ↔ Approves promoter stores candidateDigest signed decision := by
  have himport : ∀ decisions, readArchive sha256 promoter.hmac promoter.key stores.decisions
      = .ok decisions → ∀ other otherDecision,
        decisionsOn candidateDigest decisions = [(other, otherDecision)] → ∀ archive,
        (importSigned sha256 promoter.hmac promoter.key stores.events stores.decisions other current
          = .ok archive ↔ scanDecisions decisions other = .ok true ∧ stores.decisions = archive) := by
    intro decisions hread other otherDecision hon archive
    have hmem := (mem_decisionsOn.mp (hon ▸ List.mem_singleton_self _)).1
    have hknown := importSigned_of_mem hread hmem stores.events current
    rw [hknown]
    cases hscan : scanDecisions decisions other with
    | error error => simp [Except.map]
    | ok known =>
      have htrue : known = true := by
        cases known with
        | true => rfl
        | false =>
          unfold scanDecisions at hscan
          split at hscan
          · rename_i hnone
            simpa using List.find?_eq_none.mp hnone other hmem
          · split at hscan <;> cases hscan
      simp [Except.map, htrue]
  unfold Promoter.approvedDecision
  simp only [bind_eq_ok, mapError_eq_ok, decisionForCandidate_eq_ok, Prod.exists]
  constructor
  · rintro ⟨decisions, hread, other, otherDecision, hon, archive, hknown, h⟩
    simp only [raiseIf_eq_ok, not_or, not_not, exists_const] at h
    obtain ⟨⟨haction, hreason⟩, event, hevent, h⟩ := h
    cases event with
    | offline event => cases h
    | execution ready =>
      cases h
      exact ⟨⟨decisions, hread, hon, ((himport decisions hread _ _ hon archive).mp hknown).1⟩,
        haction, hreason, ready, hevent⟩
  · rintro ⟨⟨decisions, hread, hon, hscan⟩, haction, hreason, ready, hevent⟩
    refine ⟨decisions, hread, signed, decision, hon, stores.decisions,
      (himport decisions hread _ _ hon _).mpr ⟨hscan, rfl⟩, ?_⟩
    simp only [raiseIf_eq_ok, not_or, not_not, exists_const]
    exact ⟨⟨haction, hreason⟩, .execution ready, hevent, rfl⟩

/-- What `reproduce` finds. -/
structure Reproduces (promoter : Promoter) (stores : HostStores sha256)
    (candidate : ExecutionCandidate) (spec : DestinationSpec) (payload : Bytes)
    (validation : DeterministicValidationReport) (canary : CanaryReport)
    (manifest : ArtifactManifest) (envelope : QuarantineEnvelope) : Prop where
  validation_stored : Promoter.getAuthority sha256 promoter.validationModel stores.validations
    candidate.validationReportDigest = .ok validation
  canary_stored : Promoter.getAuthority sha256 promoter.reportModel stores.reports
    candidate.canaryReportDigest = .ok canary
  manifest_stored :
    stores.artifacts.getManifest sha256 candidate.artifactManifestDigest = .ok manifest
  payload_stored : stores.artifacts.getPayload sha256 manifest = .ok payload
  envelope_stored : loadEnvelope sha256 promoter.parsers.loads promoter.parsers.envelope
    stores.quarantine candidate.envelopeDigest = .ok envelope
  validation_rebuilt : buildValidationReport sha256 candidate.envelopeDigest envelope
    candidate.artifactManifestDigest manifest payload validation.createdAt = .ok validation
  destination : promoter.destinations.get? candidate.promotionScope.destinationId = some spec
  scope : spec.scope? = some candidate.promotionScope
  candidate_rebuilt : buildExecutionCandidate sha256 candidate.validationReportDigest validation
    candidate.canaryReportDigest canary.val candidate.artifactManifestDigest manifest
    candidate.promotionScope candidate.readyAt spec.allowedRunnerHashes = .ok candidate

theorem reproduce_eq_ok {candidate : ExecutionCandidate} {spec : DestinationSpec} {payload : Bytes} :
    promoter.reproduce sha256 stores candidate = .ok (spec, payload)
      ↔ ∃ validation canary manifest envelope,
        Reproduces promoter stores candidate spec payload validation canary manifest envelope := by
  unfold Promoter.reproduce
  simp only [bind_eq_ok, mapError_eq_ok, raiseIf_eq_ok, not_not, exists_const]
  constructor
  · rintro ⟨validation, hvalidation, canary, hcanary, manifest, hmanifest, seed, hseed, envelope,
      henvelope, rebuilt, hrebuilt, rfl, h⟩
    cases hspec : promoter.destinations.get? candidate.promotionScope.destinationId with
    | none => simp [hspec] at h
    | some other =>
      simp only [hspec] at h
      cases hscope : other.scope? with
      | none => simp [hscope] at h
      | some expected =>
        simp only [hscope, bind_eq_ok, raiseIf_eq_ok, mapError_eq_ok, not_not, exists_const,
          pure_eq_ok, Prod.mk.injEq] at h
        obtain ⟨rfl, again, hagain, rfl, rfl, rfl⟩ := h
        exact ⟨rebuilt, canary, manifest, envelope, hvalidation, hcanary, hmanifest, hseed, henvelope,
          hrebuilt, hspec, hscope, hagain⟩
  · rintro ⟨validation, canary, manifest, envelope, h⟩
    refine ⟨validation, h.validation_stored, canary, h.canary_stored, manifest, h.manifest_stored,
      payload, h.payload_stored, envelope, h.envelope_stored, validation, h.validation_rebuilt, rfl,
      ?_⟩
    simp only [h.destination, h.scope, bind_eq_ok, raiseIf_eq_ok, mapError_eq_ok, not_not,
      exists_const, pure_eq_ok]
    exact ⟨trivial, candidate, h.candidate_rebuilt, rfl, trivial⟩

/-- What a promoter has found when every check has passed. -/
structure Authorizes (promoter : Promoter) (stores : HostStores sha256) (auth : Authorization) :
    Prop where
  stored : Promoter.getAuthority sha256 promoter.candidateModel stores.candidates
    auth.candidateDigest = .ok auth.candidate
  matched : CandidateMatchesDecision auth.candidate auth.decision
  reproduced : promoter.reproduce sha256 stores auth.candidate = .ok (auth.spec, auth.payload)

theorem authorize_eq_ok {candidateDigest : String} {current : Datetime}
    {probe : Option TargetHashes} {auth : Authorization} :
    promoter.authorize sha256 stores candidateDigest current probe = .ok auth
      ↔ Approves promoter stores candidateDigest auth.signed auth.decision ∧
        Authorizes promoter stores auth ∧ probe = some auth.candidate.targetHashes := by
  have hprobe : ∀ (candidate : ExecutionCandidate) (u : Unit),
      Promoter.checkTargets probe candidate .drifted = .ok u
        ↔ probe = some candidate.targetHashes := by
    intro candidate u
    cases probe with
    | none => simp [Promoter.checkTargets]
    | some targets => simp [Promoter.checkTargets]
  unfold Promoter.authorize
  simp only [bind_eq_ok, Prod.exists, approvedDecision_eq_ok, raiseIf_eq_ok, not_not, hprobe,
    pure_eq_ok, exists_const]
  constructor
  · rintro ⟨signed, decision, happroves, candidate, hcandidate, hmatches, spec, payload, hreproduced,
      htargets, rfl⟩
    exact ⟨happroves, ⟨hcandidate, hmatches, hreproduced⟩, htargets⟩
  · rintro ⟨happroves, h, htargets⟩
    exact ⟨_, _, happroves, _, h.stored, h.matched, _, _, h.reproduced, htargets, rfl⟩

end Authorized

end IouAi.Authority
