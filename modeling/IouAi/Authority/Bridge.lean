import IouAi.Authority.Reports
import IouAi.Contract.Compilation

/-!
# From the pipeline to the canary bridge

What the pipeline stores, the bridge reads back and validates again. The artifacts of an envelope
stay bound to it in every later store (`revalidates_of_mem`), so the only thing left that can refuse
an artifact is the number of checks in the report (`validateArtifact_iff`).
-/

namespace IouAi.Authority

open Checks Compiler HarnessCodec Models Validator
open Wire hiding TargetHashes Bytes

/-! ## Stores grow -/

/-- Everything in the store is in the other one. -/
structure ArtifactStore.Within (store other : ArtifactStore) : Prop where
  payload : ∀ {digest payload}, store.payloads.get? digest = some payload →
    other.payloads.get? digest = some payload
  manifest : ∀ {digest manifest}, store.manifests.get? digest = some manifest →
    other.manifests.get? digest = some manifest

namespace ArtifactStore

theorem Within.refl (store : ArtifactStore) : store.Within store := ⟨id, id⟩

theorem Within.trans {store other third : ArtifactStore} (h : store.Within other)
    (h' : other.Within third) : store.Within third :=
  ⟨fun hget => h'.payload (h.payload hget), fun hget => h'.manifest (h.manifest hget)⟩

variable {sha256 : Sha256} {store store' : ArtifactStore} {compiled : CompiledProgram}
  {binding : ArtifactBinding} {programDigest digest : Digest}

theorem createOnly_eq_ok {β : Type} [DecidableEq β] {files files' : Archive Digest β}
    {digest : Digest} {payload : β} :
    createOnly files digest payload = .ok files' ↔ files.put digest payload = some files' := by
  unfold createOnly
  cases files.put digest payload <;> simp

/-- What `put` stores. -/
theorem put_eq_ok (h : store.put sha256 compiled binding programDigest = .ok (store', digest)) :
    store.Within store' ∧ ∃ manifest, manifestOf sha256 compiled binding programDigest = .ok manifest ∧
      digest = jsonDigest sha256 manifest.toJson ∧
      store'.manifests.get? digest = some manifest ∧
      store'.payloads.get? manifest.payloadDigest = some compiled.payload := by
  simp only [put, bind_eq_ok, createOnly_eq_ok, pure_eq_ok] at h
  obtain ⟨manifest, hmanifest, payloads, hpayloads, manifests, hmanifests, heq⟩ := h
  cases heq
  exact ⟨⟨Archive.get?_of_put hpayloads, Archive.get?_of_put hmanifests⟩, manifest, hmanifest, rfl,
    Archive.get?_put hmanifests, Archive.get?_put hpayloads⟩

/-- What a manifest says of the program that it was made for. -/
structure Binds (sha256 : Sha256) (compiled : CompiledProgram) (binding : ArtifactBinding)
    (manifest : ArtifactManifest) : Prop where
  harness : compiled.harnessHash = binding.targetHashes.harnessHash.val
  payload : manifest.payloadDigest = contentDigest sha256 compiled.payload
  size : manifest.payloadSizeBytes = compiled.payload.length
  count : manifest.operationCount = compiled.operationCount
  proposal : manifest.proposalDigest = binding.proposalDigest
  contract : manifest.harnessContractDigest = binding.harnessContractDigest
  validatorVersion : manifest.validatorVersion = binding.validatorVersion
  validatorHash : manifest.validatorHash = binding.validatorHash
  compiler : manifest.compilerHash = binding.targetHashes.compilerHash
  targets : manifest.targetHashes = binding.targetHashes

theorem binds_of_manifestOf {manifest : ArtifactManifest}
    (h : manifestOf sha256 compiled binding programDigest = .ok manifest) :
    Binds sha256 compiled binding manifest := by
  unfold manifestOf at h
  split at h
  · cases h
  · split at h
    · cases h
    · rename_i hharness
      split at h
      · cases h
      · split at h
        · split at h
          · split at h
            · cases h
              exact ⟨not_not.mp hharness, rfl, rfl, rfl, rfl, rfl, rfl, rfl, rfl, rfl⟩
            · cases h
          · cases h
        · cases h

/-- The store holds an artifact of one of the programs under the digest. -/
def Holds (sha256 : Sha256) (compilerHash : String) (contract : HarnessContract)
    (binding : ArtifactBinding) (programs : List PlannerProgram) (store : ArtifactStore)
    (digest : Digest) : Prop :=
  ∃ program ∈ programs, ∃ compiled manifest,
    compileProgram compilerHash (fun payload => hexText (sha256 payload).toList) program contract
        = .ok compiled ∧
      Binds sha256 compiled binding manifest ∧ digest = jsonDigest sha256 manifest.toJson ∧
      store.manifests.get? digest = some manifest ∧
      store.payloads.get? manifest.payloadDigest = some compiled.payload

theorem Holds.mono {compilerHash : String} {contract : HarnessContract}
    {programs programs' : List PlannerProgram} (hprograms : programs ⊆ programs')
    (hwithin : store.Within store')
    (h : Holds sha256 compilerHash contract binding programs store digest) :
    Holds sha256 compilerHash contract binding programs' store' digest := by
  obtain ⟨program, hprogram, compiled, manifest, hcompiled, hbinds, hdigest, hmanifest, hpayload⟩ := h
  exact ⟨program, hprograms hprogram, compiled, manifest, hcompiled, hbinds, hdigest,
    hwithin.manifest hmanifest, hwithin.payload hpayload⟩

end ArtifactStore

/-! ## The artifacts of a run -/

section Run

variable {sha256 : Sha256} {compilerHash : String} {validator : ValidatorIdentity}
  {programDigest : PlannerProgram → Digest} {run : AcceptedRun}

/-- The loop only adds to the store, and every digest that it returns is held. -/
theorem holds_of_compileAll {contract : HarnessContract} {binding : ArtifactBinding}
    {programs : List PlannerProgram} {store store' : ArtifactStore} {digests : List Digest}
    (h : compileAll sha256 compilerHash programDigest contract binding programs store
      = .ok (store', digests)) :
    store.Within store' ∧ ∀ digest ∈ digests,
      ArtifactStore.Holds sha256 compilerHash contract binding programs store' digest := by
  induction programs generalizing store digests with
  | nil =>
    cases h
    exact ⟨.refl _, by simp⟩
  | cons program programs ih =>
    rw [compileAll] at h
    split at h
    · cases h
    · rename_i compiled hcompiled
      split at h
      · cases h
      · rename_i middle digest hput
        split at h
        · cases h
        · rename_i hrest
          cases h
          obtain ⟨hbefore, manifest, hmanifest, hdigest, hget, hpayload⟩ :=
            ArtifactStore.put_eq_ok hput
          obtain ⟨hafter, hheld⟩ := ih hrest
          refine ⟨hbefore.trans hafter, ?_⟩
          intro other hother
          rcases List.mem_cons.mp hother with rfl | hother
          · have hbinds := ArtifactStore.binds_of_manifestOf hmanifest
            exact ⟨program, List.mem_cons_self, compiled, manifest, hcompiled, hbinds, hdigest,
              hafter.manifest hget, hafter.payload hpayload⟩
          · exact (hheld other hother).mono (List.subset_cons_self _ _) (.refl _)

theorem holds_of_compileArtifacts {store store' : ArtifactStore} {digests : List Digest}
    (h : compileArtifacts sha256 compilerHash validator programDigest run store
      = .ok (store', digests)) {digest : Digest} (hdigest : digest ∈ digests) :
    ArtifactStore.Holds sha256 compilerHash run.contract.model (run.binding sha256 validator)
      run.proposal.model.programs store' digest := by
  unfold compileArtifacts at h
  split at h
  · exact (holds_of_compileAll h).2 digest hdigest
  · cases h
    cases hdigest

/-- What an envelope says of the run that it was built for. -/
theorem buildEnvelope_eq_ok {digests : List Digest} {now : Timestamp}
    {envelope : QuarantineEnvelope}
    (h : buildEnvelope sha256 compilerHash validator run digests now = .ok envelope) :
    ∃ record review audits,
      validationRecord validator (run.report compilerHash) = .ok record ∧
      validationRecord validator run.reviewReport = .ok review ∧
      run.auditReport?.toList.mapM (validationRecord validator) = .ok audits ∧
      envelope.fields = envelopeFields sha256 run (record :: review :: audits) digests now := by
  simp only [buildEnvelope, bind_eq_ok] at h
  obtain ⟨record, hrecord, review, hreview, audits, haudits, h⟩ := h
  unfold validateEnvelope at h
  split at h
  · cases h
    exact ⟨record, review, audits, hrecord, hreview, haudits, rfl⟩
  · cases h

theorem mem_artifacts_of_buildEnvelope {digest : Digest} {now : Timestamp}
    {envelope : QuarantineEnvelope}
    (h : buildEnvelope sha256 compilerHash validator run [digest] now = .ok envelope) :
    digest ∈ envelope.fields.compiledArtifactHashes := by
  obtain ⟨_, _, _, -, -, -, hfields⟩ := buildEnvelope_eq_ok h
  rw [hfields]
  exact List.mem_singleton_self _

theorem textsOf_injective : Function.Injective textsOf := by
  intro hashes other h
  obtain ⟨h₁, h₂, h₃, h₄⟩ := Models.TargetHashes.mk.inj h
  cases hashes
  cases other
  rw [Wire.TargetHashes.mk.injEq]
  exact ⟨Subtype.ext h₁, Subtype.ext h₂, Subtype.ext h₃, Subtype.ext h₄⟩

/-- Every artifact that the envelope lists can be read back, and every binding of it holds. -/
theorem revalidates_of_mem (haccepted : run.Accepted compilerHash)
    {store store' later : ArtifactStore} {digests : List Digest} {now : Timestamp}
    {envelope : QuarantineEnvelope}
    (hcompiled : compileArtifacts sha256 compilerHash validator programDigest run store
      = .ok (store', digests))
    (henvelope : buildEnvelope sha256 compilerHash validator run digests now = .ok envelope)
    (hlater : store'.Within later) {digest : Digest}
    (hdigest : digest ∈ envelope.fields.compiledArtifactHashes) :
    ∃ manifest payload, later.getManifest sha256 digest = .ok manifest ∧
      later.getPayload sha256 manifest = .ok payload ∧
      Revalidates sha256 (envelope.digest sha256) envelope digest manifest payload := by
  obtain ⟨record, review, audits, hrecord, -, -, hfields⟩ := buildEnvelope_eq_ok henvelope
  have hmem : digest ∈ digests := by rwa [hfields] at hdigest
  obtain ⟨program, -, compiled, manifest, hprogram, hbinds, hmanifestDigest, hmanifest, hpayload⟩ :=
    (holds_of_compileArtifacts hcompiled hmem).mono (List.Subset.refl _) hlater
  obtain ⟨-, native, hnative, -, hcompiledOf⟩ := compileProgram_eq_ok.mp hprogram
  have htargets : run.telemetryTargets = run.contractTargets :=
    textsOf_injective (targets_of_valid haccepted.proposal).2
  have hversion := (validationRecord_eq_ok hrecord).1
  refine ⟨manifest, compiled.payload, ?_, ?_, ?_⟩
  · rw [ArtifactStore.getManifest, hmanifest]
    exact if_neg (not_not.mpr hmanifestDigest.symm)
  · rw [ArtifactStore.getPayload, hpayload]
    simp only [hbinds.payload, hbinds.size, ne_eq, not_true_eq_false, if_false]
  · constructor
    case envelope_digest => rfl
    case manifest_digest => exact hmanifestDigest
    case manifest_mem => exact hdigest
    case payload_digest => exact hbinds.payload.symm
    case payload_size => exact hbinds.size.symm
    case proposal => rw [hbinds.proposal, hfields]; rfl
    case contract => rw [hbinds.contract, hfields]; rfl
    case targets => rw [hbinds.targets, hfields]; exact htargets.symm
    case compiler =>
      rw [hbinds.compiler, hfields]
      exact congrArg Wire.TargetHashes.compilerHash htargets.symm
    case proposal_digest => rw [hfields]; rfl
    case reviewer_digest => rw [hfields]; rfl
    case auditor_digest =>
      intro verdict hverdict
      rw [hfields] at hverdict ⊢
      obtain ⟨audit, haudit, rfl⟩ := Option.mem_map.mp hverdict
      change _ = run.audit.map fun audit => audit.1.digest sha256
      rw [Option.mem_def.mp haudit]
      rfl
    case validator =>
      refine ⟨record, ?_, ?_⟩
      · rw [hfields]
        exact List.mem_cons_self
      · exact ⟨hversion.1.trans hbinds.validatorVersion.symm,
          hversion.2.trans hbinds.validatorHash.symm⟩
    case harness =>
      rw [hbinds.targets]
      exact hbinds.harness.symm.trans (congrArg CompiledProgram.harnessHash hcompiledOf)
    case decoded =>
      refine ⟨native, compileNative_isCanonical hnative, ?_, ?_⟩
      · exact congrArg CompiledProgram.payload hcompiledOf
      · rw [hbinds.count, hcompiledOf]
        rfl

/-! ## The number of checks -/

def reviewCheckIds : List String :=
  ["review.binding", "review.evidence", "review.finding-targets", "review.acceptance"]

/-- A rule of a proposal has another id than the checks of a review and of a report. -/
theorem checkId_notMem {rule : Rule} (h : rule.Named) :
    rule.checkId ∉ reviewCheckIds ++ authorityCheckIds.map Subtype.val := by
  -- The ids of a proposal are known, and those of its parts start with other letters.
  have hstart : ∀ text ∈ reviewCheckIds ++ authorityCheckIds.map Subtype.val,
      text.toList.take 2 ≠ "an".toList ∧ text.toList.take 2 ≠ "pr".toList := by decide
  cases rule with
  | proposal name =>
    have hall : ∀ name ∈ proposalNames,
        name ∉ reviewCheckIds ++ authorityCheckIds.map Subtype.val := by decide
    exact hall name h
  | priority priorityId name =>
    intro hmem
    refine (hstart _ hmem).1 ?_
    simp only [Rule.checkId, String.toList_append, List.append_assoc]
    rfl
  | program programId name =>
    intro hmem
    refine (hstart _ hmem).2 ?_
    simp only [Rule.checkId, String.toList_append, List.append_assoc]
    rfl
  | step programId stepId name =>
    intro hmem
    refine (hstart _ hmem).2 ?_
    simp only [Rule.checkId, String.toList_append, List.append_assoc]
    rfl

/-- The report lists the rules of the proposal, the four checks of a review and five more. -/
theorem length_passedIds (hproduction : run.contract.model.environment = .production)
    (haccepted : run.Accepted compilerHash) {record review : ValidationRecord}
    {audits : List ValidationRecord}
    (hrecord : validationRecord validator (run.report compilerHash) = .ok record)
    (hreview : validationRecord validator run.reviewReport = .ok review)
    (haudits : run.auditReport?.toList.mapM (validationRecord validator) = .ok audits) :
    (passedIds (record :: review :: audits)).length
      = (proposalRules run.proposal.model).length + 9 := by
  set others := reviewCheckIds ++ authorityCheckIds.map Subtype.val with hothers
  set ruleIds := (proposalRules run.proposal.model).map Rule.checkId with hruleIds
  have hrecordIds : record.passedCheckIds.map Subtype.val = ruleIds :=
    (validationRecord_eq_ok hrecord).2.1.trans (passedCheckIds_report hproduction haccepted.proposal)
  have hreviewIds : review.passedCheckIds.map Subtype.val = reviewCheckIds :=
    (validationRecord_eq_ok hreview).2.1.trans (passedCheckIds_validateReviewer haccepted.verdict)
  have hauditIds : ∀ audit ∈ audits, audit.passedCheckIds.map Subtype.val = reviewCheckIds := by
    intro audit haudit
    obtain ⟨report, hreport, haudit⟩ := (mapM_auditRecords haudits).2 audit haudit
    have hvalid := haccepted.audit report hreport
    obtain ⟨verdict, -, rfl⟩ := Option.mem_map.mp hreport
    exact (validationRecord_eq_ok haudit).2.1.trans (passedCheckIds_validateReviewer hvalid)
  have hnodup : (ruleIds ++ others).Nodup := by
    refine List.nodup_append.mpr ⟨?_, by decide, ?_⟩
    · exact (nodup_proposalRules _).map_on fun rule hrule other hother =>
        checkId_injective (named_proposalRules run.names hrule) (named_proposalRules run.names hother)
    · rintro id hid other hother rfl
      obtain ⟨rule, hrule, rfl⟩ := List.mem_map.mp hid
      exact checkId_notMem (named_proposalRules run.names hrule) hother
  have hmem : ∀ text, text ∈ (passedIds (record :: review :: audits)).map Subtype.val
      ↔ text ∈ ruleIds ++ others := by
    intro text
    have hflat : ((record :: review :: audits).flatMap ValidationRecord.passedCheckIds).map
        Subtype.val = ruleIds ++ (reviewCheckIds ++ audits.flatMap fun _ => reviewCheckIds) := by
      rw [List.flatMap_cons, List.flatMap_cons, List.map_append, List.map_append, hrecordIds,
        hreviewIds, List.map_flatMap]
      exact congrArg (fun ids => ruleIds ++ (reviewCheckIds ++ ids)) (List.flatMap_congr hauditIds)
    have hset : text ∈ (passedIds (record :: review :: audits)).map Subtype.val ↔
        text ∈ ((record :: review :: audits).flatMap ValidationRecord.passedCheckIds
          ++ authorityCheckIds).map Subtype.val := by
      simp only [passedIds, List.mem_map, List.mem_insertionSort, List.mem_dedup]
    rw [hset, List.map_append, hflat, hothers]
    simp only [List.mem_append, List.mem_flatMap]
    tauto
  have hperm := (List.perm_ext_iff_of_nodup
    ((nodup_passedIds _).map Subtype.val_injective) hnodup).mpr hmem
  have hlength := hperm.length_eq
  rw [List.length_map, List.length_append, List.length_map] at hlength
  exact hlength

/-- What the bridge finds when it validates an artifact of a stored envelope. -/
theorem validateArtifact_stored (hproduction : run.contract.model.environment = .production)
    (haccepted : run.Accepted compilerHash) {store store' later : ArtifactStore}
    {digests : List Digest} {now : Timestamp} {envelope : QuarantineEnvelope}
    (hcompiled : compileArtifacts sha256 compilerHash validator programDigest run store
      = .ok (store', digests))
    (henvelope : buildEnvelope sha256 compilerHash validator run digests now = .ok envelope)
    (hlater : store'.Within later) {digest : Digest}
    (hdigest : digest ∈ envelope.fields.compiledArtifactHashes) (createdAt : Timestamp) :
    (passedIds envelope.fields.validations).length = (proposalRules run.proposal.model).length + 9 ∧
      ∃ manifest payload,
        Revalidates sha256 (envelope.digest sha256) envelope digest manifest payload ∧
        validateArtifact sha256 later (envelope.digest sha256) envelope digest createdAt
          = buildValidationReport sha256 (envelope.digest sha256) envelope digest manifest payload
              createdAt := by
  obtain ⟨record, review, audits, hrecord, hreview, haudits, hfields⟩ :=
    buildEnvelope_eq_ok henvelope
  obtain ⟨manifest, payload, hmanifest, hpayload, hrevalidates⟩ :=
    revalidates_of_mem haccepted hcompiled henvelope hlater hdigest
  constructor
  · rw [hfields]
    exact length_passedIds hproduction haccepted hrecord hreview haudits
  · refine ⟨manifest, payload, hrevalidates, ?_⟩
    simp only [validateArtifact, hmanifest, hpayload]

/-- **Whether the bridge can validate an artifact of a stored envelope.** It can exactly when the
rules of the proposal and the nine other checks fit in a report. -/
theorem validateArtifact_iff (hproduction : run.contract.model.environment = .production)
    (haccepted : run.Accepted compilerHash) {store store' later : ArtifactStore}
    {digests : List Digest} {now : Timestamp} {envelope : QuarantineEnvelope}
    (hcompiled : compileArtifacts sha256 compilerHash validator programDigest run store
      = .ok (store', digests))
    (henvelope : buildEnvelope sha256 compilerHash validator run digests now = .ok envelope)
    (hlater : store'.Within later) {digest : Digest}
    (hdigest : digest ∈ envelope.fields.compiledArtifactHashes) (createdAt : Timestamp) :
    (∃ report, validateArtifact sha256 later (envelope.digest sha256) envelope digest createdAt
        = .ok report) ↔ (proposalRules run.proposal.model).length + 9 ≤ 128 := by
  obtain ⟨hlength, manifest, payload, hrevalidates, hvalidate⟩ :=
    validateArtifact_stored hproduction haccepted hcompiled henvelope hlater hdigest createdAt
  rw [hvalidate, buildValidationReport_iff, hlength]
  exact and_iff_right hrevalidates

end Run

/-- The artifact of one step is validated. -/
theorem validateArtifact_one : ∃ store store' envelope digest, compileArtifacts zeroHash
      (digestOf 1).val nopsValidator (fun _ => digestOf 5) (nopsRun 1 le_rfl) store
        = .ok (store', [digest]) ∧
    buildEnvelope zeroHash (digestOf 1).val nopsValidator (nopsRun 1 le_rfl) [digest] nopsTime
      = .ok envelope ∧
    ∃ report, validateArtifact zeroHash store' (envelope.digest zeroHash) envelope digest nopsTime
      = .ok report := by
  have haccepted : (nopsRun 1 le_rfl).Accepted (digestOf 1).val :=
    nopsRun_accepted (by decide +kernel) (by decide +kernel)
  obtain ⟨store', hstore⟩ := nopsArtifacts_eq_ok (n := 1) (h := le_rfl) (by decide +kernel)
  obtain ⟨envelope, henvelope⟩ := exists_envelope_of_fits rfl haccepted hstore nopsTime
    (fits_iff.mpr (by decide +kernel))
  refine ⟨_, store', envelope, digestOf 0, hstore, henvelope, ?_⟩
  exact (validateArtifact_iff rfl haccepted hstore henvelope (.refl _)
    (mem_artifacts_of_buildEnvelope henvelope) nopsTime).mpr (by decide +kernel)

/-- Fourteen steps pass 125 checks, which a record takes, and a report would list 134. -/
theorem not_validateArtifact_fourteen :
    ¬ ∀ (sha256 : Sha256) (compilerHash : String) (validator : ValidatorIdentity)
      (programDigest : PlannerProgram → Digest) (run : AcceptedRun) (store store' : ArtifactStore)
      (digests : List Digest) (now createdAt : Timestamp) (envelope : QuarantineEnvelope),
      run.contract.model.environment = .production → run.Accepted compilerHash →
      compileArtifacts sha256 compilerHash validator programDigest run store
        = .ok (store', digests) →
      buildEnvelope sha256 compilerHash validator run digests now = .ok envelope →
      ∀ digest ∈ envelope.fields.compiledArtifactHashes, ∃ report,
        validateArtifact sha256 store' (envelope.digest sha256) envelope digest createdAt
          = .ok report := by
  intro hall
  have haccepted : (nopsRun 14 (by decide)).Accepted (digestOf 1).val :=
    nopsRun_accepted (by decide +kernel) (by decide +kernel)
  obtain ⟨store', hstore⟩ := nopsArtifacts_eq_ok (n := 14) (h := by decide) (by decide +kernel)
  obtain ⟨envelope, henvelope⟩ := exists_envelope_of_fits rfl haccepted hstore nopsTime
    (fits_iff.mpr (by decide +kernel))
  have hmem := mem_artifacts_of_buildEnvelope henvelope
  obtain ⟨hlength, manifest, payload, -, hvalidate⟩ :=
    validateArtifact_stored rfl haccepted hstore henvelope (.refl _) hmem nopsTime
  obtain ⟨report, hreport⟩ := hall _ _ _ _ _ _ _ _ _ nopsTime _ rfl haccepted hstore henvelope _ hmem
  rw [hvalidate] at hreport
  have hle := (buildValidationReport_iff.mp ⟨report, hreport⟩).2
  rw [hlength] at hle
  exact absurd hle (by decide +kernel)

end IouAi.Authority
