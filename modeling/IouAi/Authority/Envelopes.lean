import IouAi.Authority.Artifacts
import IouAi.Contract.Build
import IouAi.Contract.Review
import IouAi.Contract.Rules

/-!
# Quarantine envelopes

The end of a run of the pipeline: the programs of an accepted proposal are compiled and stored
(`compileArtifacts`), the reports become validation records (`validationRecord`), and everything is
bound in one envelope (`buildEnvelope`), whose model can still refuse it.
-/

namespace IouAi.Authority

open Checks Compiler Models Validator
open Wire hiding TargetHashes

/-! ## Models and what they serialize to -/

/-- A model with the JSON value that it dumps to. The free text that the model leaves out is in the
value. -/
structure Dumped (α : Type) where
  model : α
  dump : Json

/-- The digest of a model. -/
def Dumped.digest {α : Type} (sha256 : Sha256) (dumped : Dumped α) : Digest :=
  jsonDigest sha256 dumped.dump

/-- The texts of the hashes of a target. -/
def textsOf (hashes : Wire.TargetHashes) : Models.TargetHashes where
  harnessHash := hashes.harnessHash
  compilerHash := hashes.compilerHash
  opTableHash := hashes.opTableHash
  fleetConfigHash := hashes.fleetConfigHash

/-! ## Validation records -/

inductive PipelineError
  | compilation
  | invalidRecord
  | invalidEnvelope
  deriving DecidableEq

structure ValidationRecord where
  validatorVersion : Identifier
  validatorHash : Digest
  passedCheckIds : List Identifier
  failedCheckIds : List Identifier
  passed_pos : 1 ≤ passedCheckIds.length
  passed_le : passedCheckIds.length ≤ 128
  failed_le : failedCheckIds.length ≤ 64
  deriving DecidableEq

/-- A check id that the record takes for an identifier. -/
def identifier? (text : String) : Option Identifier :=
  if h : isIdentifier text = true then some ⟨text, h⟩ else none

/-- The version and the hash of the validator. -/
structure ValidatorIdentity where
  version : Identifier
  hash : Digest

/-- `_validation_record`. -/
def validationRecord (validator : ValidatorIdentity) (report : ValidationReport) :
    Except PipelineError ValidationRecord :=
  match report.passedCheckIds.mapM identifier?,
      (report.issues.map ValidationIssue.checkId).mapM identifier? with
  | some passed, some failed =>
    if h : 1 ≤ passed.length ∧ passed.length ≤ 128 ∧ failed.length ≤ 64 then
      .ok ⟨validator.version, validator.hash, passed, failed, h.1, h.2.1, h.2.2⟩
    else .error .invalidRecord
  | _, _ => .error .invalidRecord

/-! ## Envelopes -/

inductive ProviderRole
  | planner | reviewer | auditor
  deriving DecidableEq

structure EnvelopeFields where
  envelopeId : Identifier
  createdAt : Timestamp
  telemetryPacketHash : Digest
  proposalHash : Digest
  reviewerVerdictHash : Digest
  auditorVerdictHash : Option Digest
  harnessContractHash : Digest
  compiledArtifactHashes : List Digest
  targetHashes : Wire.TargetHashes
  proposal : Dumped PlannerProposal
  reviewerVerdict : Dumped ReviewerVerdict
  auditorVerdict : Option (Dumped ReviewerVerdict)
  validations : List ValidationRecord
  providerTraces : List (Dumped ProviderRole)

/-- A verdict on the proposal that accepts it. -/
structure AcceptsProposal (proposal : PlannerProposal) (verdict : ReviewerVerdict) : Prop where
  proposalId : verdict.proposalId = proposal.proposalId
  packetId : verdict.packetId = proposal.packetId
  accept : verdict.verdict = .accept

/-- What `bind_related_artifacts` and the bounds of the model demand. -/
structure EnvelopeFields.Valid (fields : EnvelopeFields) : Prop where
  artifacts_le : fields.compiledArtifactHashes.length ≤ 128
  validations_pos : 1 ≤ fields.validations.length
  validations_le : fields.validations.length ≤ 16
  traces_pos : 2 ≤ fields.providerTraces.length
  traces_le : fields.providerTraces.length ≤ 3
  reviewer : AcceptsProposal fields.proposal.model fields.reviewerVerdict.model
  targets : fields.proposal.model.targetHashes = textsOf fields.targetHashes
  auditor : ∀ verdict ∈ fields.auditorVerdict, AcceptsProposal fields.proposal.model verdict.model
  auditor_hash : fields.auditorVerdictHash.isSome = fields.auditorVerdict.isSome
  no_failure : ∀ record ∈ fields.validations, record.failedCheckIds = []
  roles_nodup : (fields.providerTraces.map Dumped.model).Nodup
  planner_trace : .planner ∈ fields.providerTraces.map Dumped.model
  reviewer_trace : .reviewer ∈ fields.providerTraces.map Dumped.model
  auditor_trace : .auditor ∈ fields.providerTraces.map Dumped.model
    ↔ fields.auditorVerdict.isSome = true

instance (proposal : PlannerProposal) (verdict : ReviewerVerdict) :
    Decidable (AcceptsProposal proposal verdict) :=
  decidable_of_iff (verdict.proposalId = proposal.proposalId ∧ verdict.packetId = proposal.packetId ∧
      verdict.verdict = .accept)
    ⟨fun ⟨proposalId, packetId, accept⟩ => ⟨proposalId, packetId, accept⟩,
      fun ⟨proposalId, packetId, accept⟩ => ⟨proposalId, packetId, accept⟩⟩

instance (fields : EnvelopeFields) : Decidable fields.Valid :=
  decidable_of_iff
    ((fields.compiledArtifactHashes.length ≤ 128 ∧ 1 ≤ fields.validations.length
        ∧ fields.validations.length ≤ 16 ∧ 2 ≤ fields.providerTraces.length
        ∧ fields.providerTraces.length ≤ 3)
      ∧ (AcceptsProposal fields.proposal.model fields.reviewerVerdict.model
        ∧ fields.proposal.model.targetHashes = textsOf fields.targetHashes
        ∧ (∀ verdict ∈ fields.auditorVerdict,
          AcceptsProposal fields.proposal.model verdict.model)
        ∧ fields.auditorVerdictHash.isSome = fields.auditorVerdict.isSome
        ∧ ∀ record ∈ fields.validations, record.failedCheckIds = [])
      ∧ (fields.providerTraces.map Dumped.model).Nodup
      ∧ .planner ∈ fields.providerTraces.map Dumped.model
      ∧ .reviewer ∈ fields.providerTraces.map Dumped.model
      ∧ (.auditor ∈ fields.providerTraces.map Dumped.model
        ↔ fields.auditorVerdict.isSome = true))
    ⟨fun ⟨⟨h₁, h₂, h₃, h₄, h₅⟩, ⟨h₆, h₇, h₈, h₉, h₁₀⟩, h₁₁, h₁₂, h₁₃, h₁₄⟩ =>
        ⟨h₁, h₂, h₃, h₄, h₅, h₆, h₇, h₈, h₉, h₁₀, h₁₁, h₁₂, h₁₃, h₁₄⟩,
      fun ⟨h₁, h₂, h₃, h₄, h₅, h₆, h₇, h₈, h₉, h₁₀, h₁₁, h₁₂, h₁₃, h₁₄⟩ =>
        ⟨⟨h₁, h₂, h₃, h₄, h₅⟩, ⟨h₆, h₇, h₈, h₉, h₁₀⟩, h₁₁, h₁₂, h₁₃, h₁₄⟩⟩

structure QuarantineEnvelope where
  fields : EnvelopeFields
  valid : fields.Valid

def validateEnvelope (fields : EnvelopeFields) : Except PipelineError QuarantineEnvelope :=
  if h : fields.Valid then .ok ⟨fields, h⟩ else .error .invalidEnvelope

/-! ## The end of a run -/

/-- What the calls to the providers have left: the proposal and the verdicts on it, each with its
trace. The schemas take the hashes of the targets for digests and the names of the planner for
symbols. -/
structure AcceptedRun where
  telemetry : Dumped TelemetryPacket
  telemetryTargets : Wire.TargetHashes
  telemetry_targets : telemetry.model.targetHashes = textsOf telemetryTargets
  contract : Dumped HarnessContract
  contractTargets : Wire.TargetHashes
  contract_targets : contract.model.targetHashes = textsOf contractTargets
  proposal : Dumped PlannerProposal
  names : SymbolNames proposal.model
  plannerTrace : Json
  verdict : Dumped ReviewerVerdict
  reviewerTrace : Json
  audit : Option (Dumped ReviewerVerdict × Json)

section Run

variable (sha256 : Sha256) (compilerHash : String) (validator : ValidatorIdentity)
  (programDigest : PlannerProgram → Digest) (run : AcceptedRun)

/-- What the artifacts of the run are bound to. -/
def AcceptedRun.binding : ArtifactBinding where
  proposalDigest := run.proposal.digest sha256
  harnessContractDigest := run.contract.digest sha256
  validatorVersion := validator.version
  validatorHash := validator.hash
  targetHashes := run.contractTargets

/-- Compile and store one program after the other. -/
def compileAll (contract : HarnessContract) (binding : ArtifactBinding) :
    List PlannerProgram → ArtifactStore → Except PipelineError (ArtifactStore × List Digest)
  | [], store => .ok (store, [])
  | program :: programs, store =>
    match compileProgram compilerHash (fun payload => hexText (sha256 payload).toList) program
        contract with
    | .error _ => .error .compilation
    | .ok compiled =>
      match store.put sha256 compiled binding (programDigest program) with
      | .error _ => .error .compilation
      | .ok (store', digest) =>
        match compileAll contract binding programs store' with
        | .error error => .error error
        | .ok (final, digests) => .ok (final, digest :: digests)

/-- The artifacts of a proposal; only a production contract has any. -/
def compileArtifacts (store : ArtifactStore) :
    Except PipelineError (ArtifactStore × List Digest) :=
  if run.proposal.model.programs ≠ [] ∧ run.contract.model.environment = .production then
    compileAll sha256 compilerHash programDigest run.contract.model
      (run.binding sha256 validator) run.proposal.model.programs store
  else .ok (store, [])

def AcceptedRun.report : ValidationReport :=
  validateProposal compilerHash run.telemetry.model run.proposal.model run.contract.model "shadow"

def AcceptedRun.reviewReport : ValidationReport :=
  validateReviewer run.telemetry.model run.proposal.model run.verdict.model

/-- The report on the auditor's verdict, if the run had an auditor. -/
def AcceptedRun.auditReport? : Option ValidationReport :=
  run.audit.map fun audit =>
    validateReviewer run.telemetry.model run.proposal.model audit.1.model

/-- The reports that a run needs to be valid before it comes to the envelope. -/
structure AcceptedRun.Accepted : Prop where
  proposal : (run.report compilerHash).valid
  verdict : run.reviewReport.valid
  audit : ∀ report ∈ run.auditReport?, report.valid

/-- What the envelope of a run binds, at a time. -/
def envelopeFields (validations : List ValidationRecord) (compiledArtifactHashes : List Digest)
    (now : Timestamp) : EnvelopeFields where
  envelopeId := taggedId "env-" (run.proposal.digest sha256) (by decide)
  createdAt := now
  telemetryPacketHash := run.telemetry.digest sha256
  proposalHash := run.proposal.digest sha256
  reviewerVerdictHash := run.verdict.digest sha256
  auditorVerdictHash := run.audit.map fun audit => audit.1.digest sha256
  harnessContractHash := run.contract.digest sha256
  compiledArtifactHashes := compiledArtifactHashes
  targetHashes := run.telemetryTargets
  proposal := run.proposal
  reviewerVerdict := run.verdict
  auditorVerdict := run.audit.map Prod.fst
  validations := validations
  providerTraces := ⟨.planner, run.plannerTrace⟩ :: ⟨.reviewer, run.reviewerTrace⟩ ::
    run.audit.toList.map fun audit => ⟨.auditor, audit.2⟩

def buildEnvelope (compiledArtifactHashes : List Digest) (now : Timestamp) :
    Except PipelineError QuarantineEnvelope := do
  let proposalRecord ← validationRecord validator (run.report compilerHash)
  let reviewRecord ← validationRecord validator run.reviewReport
  let auditRecords ← run.auditReport?.toList.mapM (validationRecord validator)
  validateEnvelope (envelopeFields sha256 run (proposalRecord :: reviewRecord :: auditRecords)
    compiledArtifactHashes now)

end Run

/-! ## Which reports a record takes -/

/-- The rules of the proposal and their ids are within the bounds of a record. -/
def Fits (proposal : PlannerProposal) : Prop :=
  (proposalRules proposal).length ≤ 128 ∧
    ∀ rule ∈ proposalRules proposal, rule.checkId.length ≤ 96

instance (proposal : PlannerProposal) : Decidable (Fits proposal) :=
  inferInstanceAs (Decidable (_ ∧ _))

theorem fits_iff {proposal : PlannerProposal} : Fits proposal ↔
    (proposalRules proposal).length ≤ 128 ∧ ∀ rule ∈ proposalRules proposal, rule.idLength ≤ 96 := by
  simp only [Fits, Rule.length_checkId]

theorem isIdentifierChar_of_isSymbol {text : String} (h : isSymbol text = true) :
    text.toList.all isIdentifierChar = true := by
  have hhead : ∀ c, isSymbolHead c = true → isIdentifierChar c = true := by
    intro c hc
    simp only [isSymbolHead, isIdentifierChar, isIdentifierHead, Bool.or_eq_true,
      Bool.and_eq_true] at hc ⊢
    exact .inl (.inl hc)
  have hchar : ∀ c, isSymbolChar c = true → isIdentifierChar c = true := by
    intro c hc
    simp only [isSymbolChar, isIdentifierChar, Bool.or_eq_true, decide_eq_true_eq] at hc ⊢
    rcases hc with hc | rfl
    · exact .inl hc
    · exact .inr (by decide)
  unfold isSymbol at h
  split at h
  · cases h
  · rename_i c cs htext
    simp only [Bool.and_eq_true, List.all_eq_true] at h
    rw [htext, List.all_cons, hhead c h.1.1, Bool.true_and, List.all_eq_true]
    exact fun c hc => hchar c (h.2 c hc)

/-- The id of a rule is an identifier when it is not too long. -/
theorem isIdentifier_checkId {rule : Rule} (h : rule.Named) :
    isIdentifier rule.checkId = true ↔ rule.checkId.length ≤ 96 := by
  suffices hchars : ∃ c cs, rule.checkId.toList = c :: cs ∧ isIdentifierHead c = true ∧
      cs.all isIdentifierChar = true by
    obtain ⟨c, cs, htext, hhead, hall⟩ := hchars
    have hlength : rule.checkId.length = cs.length + 1 := by
      rw [← String.length_toList, htext, List.length_cons]
    rw [isIdentifier_iff, hlength]
    constructor
    · rintro ⟨c', cs', htext', -, hle, -⟩
      obtain ⟨-, rfl⟩ := List.cons.inj (htext.symm.trans htext')
      omega
    · exact fun hle => ⟨c, cs, htext, hhead, by omega, hall⟩
  have hp : isIdentifierHead 'p' = true ∧ isIdentifierHead 'a' = true := by decide
  cases rule with
  | proposal name =>
    have hall : ∀ name ∈ proposalNames, (name.toList.head?.any isIdentifierHead) = true ∧
        name.toList.tail.all isIdentifierChar = true := by decide
    obtain ⟨hhead, htail⟩ := hall name h
    change ∃ c cs, name.toList = c :: cs ∧ _
    cases htext : name.toList with
    | nil => rw [htext] at hhead; cases hhead
    | cons c cs =>
      rw [htext] at hhead htail
      exact ⟨c, cs, rfl, by simpa using hhead, htail⟩
  | priority priorityId name =>
    have hall : ∀ name ∈ priorityNames, name.toList.all isIdentifierChar = true := by decide
    refine ⟨'a', "nalysis.".toList ++ priorityId.toList ++ name.toList, ?_, hp.2, ?_⟩
    · simp only [Rule.checkId, String.toList_append, List.append_assoc]
      rfl
    · rw [List.all_append, List.all_append, isIdentifierChar_of_isSymbol h.1, hall name h.2]
      decide
  | program programId name =>
    have hall : ∀ name ∈ programNames, name.toList.all isIdentifierChar = true := by decide
    refine ⟨'p', "rogram.".toList ++ programId.toList ++ name.toList, ?_, hp.1, ?_⟩
    · simp only [Rule.checkId, String.toList_append, List.append_assoc]
      rfl
    · rw [List.all_append, List.all_append, isIdentifierChar_of_isSymbol h.1, hall name h.2]
      decide
  | step programId stepId name =>
    have hall : ∀ name ∈ stepNames, name.toList.all isIdentifierChar = true := by decide
    refine ⟨'p', "rogram.".toList ++ programId.toList ++ ".step.".toList ++ stepId.toList ++
      name.toList, ?_, hp.1, ?_⟩
    · simp only [Rule.checkId, String.toList_append, List.append_assoc]
      rfl
    · simp only [List.all_append, isIdentifierChar_of_isSymbol h.1,
        isIdentifierChar_of_isSymbol h.2.1, hall name h.2.2]
      decide

theorem mapM_identifier? {texts : List String} {ids : List Identifier} :
    texts.mapM identifier? = some ids ↔ ids.map Subtype.val = texts := by
  induction texts generalizing ids with
  | nil =>
    rw [List.mapM_nil, Option.pure_def, Option.some.injEq, List.map_eq_nil_iff, eq_comm]
  | cons text texts ih =>
    rw [List.mapM_cons]
    constructor
    · intro h
      simp only [Option.bind_eq_bind, Option.bind_eq_some_iff, Option.pure_def,
        Option.some.injEq] at h
      obtain ⟨id, hid, rest, hrest, rfl⟩ := h
      unfold identifier? at hid
      split at hid
      · cases hid
        rw [List.map_cons, ih.mp hrest]
      · cases hid
    · intro h
      cases ids with
      | nil => cases h
      | cons id ids =>
        rw [List.map_cons, List.cons.injEq] at h
        obtain ⟨rfl, hrest⟩ := h
        have hid : identifier? id.val = some id := by
          rw [identifier?, dif_pos id.2]
        rw [hid, ih.mpr hrest]
        rfl

/-- What a record keeps of a report. -/
theorem validationRecord_eq_ok {validator : ValidatorIdentity} {report : ValidationReport}
    {record : ValidationRecord} (h : validationRecord validator report = .ok record) :
    (record.validatorVersion = validator.version ∧ record.validatorHash = validator.hash) ∧
      record.passedCheckIds.map Subtype.val = report.passedCheckIds ∧
      record.failedCheckIds.map Subtype.val = report.issues.map ValidationIssue.checkId := by
  unfold validationRecord at h
  split at h
  · rename_i passed failed hpassed hfailed
    split at h
    · cases h
      exact ⟨⟨rfl, rfl⟩, mapM_identifier?.mp hpassed, mapM_identifier?.mp hfailed⟩
    · cases h
  · cases h

theorem failedCheckIds_eq_nil {validator : ValidatorIdentity} {report : ValidationReport}
    {record : ValidationRecord} (hvalid : report.valid)
    (h : validationRecord validator report = .ok record) : record.failedCheckIds = [] := by
  have hfailed := (validationRecord_eq_ok h).2.2
  rw [show report.issues = [] from hvalid] at hfailed
  exact List.map_eq_nil_iff.mp hfailed

/-- A record takes a report without issues when there are not too many checks and every id is an
identifier. -/
theorem validationRecord_isOk_iff {validator : ValidatorIdentity} {report : ValidationReport}
    (hvalid : report.valid) (hpos : 1 ≤ report.passedCheckIds.length) :
    (∃ record, validationRecord validator report = .ok record) ↔
      report.passedCheckIds.length ≤ 128 ∧
        ∀ checkId ∈ report.passedCheckIds, isIdentifier checkId = true := by
  have hissues : report.issues = [] := hvalid
  constructor
  · rintro ⟨record, h⟩
    unfold validationRecord at h
    split at h
    · rename_i passed failed hpassed hfailed
      split at h
      · rename_i hbounds
        rw [← mapM_identifier?.mp hpassed]
        refine ⟨by simpa using hbounds.2.1, ?_⟩
        intro checkId hcheckId
        obtain ⟨id, -, rfl⟩ := List.mem_map.mp hcheckId
        exact id.2
      · cases h
    · cases h
  · rintro ⟨hle, hall⟩
    have hpassed : report.passedCheckIds.mapM identifier?
        = some (report.passedCheckIds.attach.map fun id => ⟨id.1, hall id.1 id.2⟩) := by
      rw [mapM_identifier?, List.map_map]
      exact List.attach_map_subtype_val _
    have hbounds : 1 ≤ (report.passedCheckIds.attach.map fun id =>
          (⟨id.1, hall id.1 id.2⟩ : Identifier)).length ∧
        (report.passedCheckIds.attach.map fun id =>
          (⟨id.1, hall id.1 id.2⟩ : Identifier)).length ≤ 128 ∧ ([] : List Identifier).length ≤ 64 :=
      ⟨by simpa using hpos, by simpa using hle, Nat.zero_le _⟩
    simp only [validationRecord, hissues, hpassed, List.map_nil, List.mapM_nil, Option.pure_def]
    rw [dif_pos hbounds]
    exact ⟨_, rfl⟩

/-- A record takes every valid review. -/
theorem validationRecord_review {telemetry : TelemetryPacket} {proposal : PlannerProposal}
    {verdict : ReviewerVerdict} (validator : ValidatorIdentity)
    (h : (validateReviewer telemetry proposal verdict).valid) :
    ∃ record, validationRecord validator (validateReviewer telemetry proposal verdict)
      = .ok record := by
  have hids := passedCheckIds_validateReviewer h
  refine (validationRecord_isOk_iff h ?_).mpr ?_
  · rw [hids]
    decide
  · rw [hids]
    decide

section Run

variable {sha256 : Sha256} {compilerHash : String} {validator : ValidatorIdentity}
  {programDigest : PlannerProgram → Digest} {run : AcceptedRun}

theorem length_compileAll {contract : HarnessContract} {binding : ArtifactBinding}
    {programs : List PlannerProgram} {store store' : ArtifactStore} {digests : List Digest}
    (h : compileAll sha256 compilerHash programDigest contract binding programs store
      = .ok (store', digests)) : digests.length = programs.length := by
  induction programs generalizing store store' digests with
  | nil =>
    cases h
    rfl
  | cons program programs ih =>
    rw [compileAll] at h
    split at h
    · cases h
    · split at h
      · cases h
      · split at h
        · cases h
        · rename_i hrest
          cases h
          rw [List.length_cons, List.length_cons, ih hrest]

/-- A proposal has at most four artifacts. -/
theorem length_compileArtifacts {store store' : ArtifactStore} {digests : List Digest}
    (h : compileArtifacts sha256 compilerHash validator programDigest run store
      = .ok (store', digests)) : digests.length ≤ 4 := by
  unfold compileArtifacts at h
  split at h
  · rw [length_compileAll h]
    exact run.proposal.model.length_programs
  · cases h
    exact Nat.zero_le _

/-- What the report on a proposal of a production contract passes. -/
theorem passedCheckIds_report (hproduction : run.contract.model.environment = .production)
    (hvalid : (run.report compilerHash).valid) :
    (run.report compilerHash).passedCheckIds
      = (proposalRules run.proposal.model).map Rule.checkId :=
  passedCheckIds_eq hproduction run.names hvalid

/-- A record takes the report on a proposal exactly when its rules fit. -/
theorem validationRecord_report (hproduction : run.contract.model.environment = .production)
    (hvalid : (run.report compilerHash).valid) :
    (∃ record, validationRecord validator (run.report compilerHash) = .ok record)
      ↔ Fits run.proposal.model := by
  have hids := passedCheckIds_report hproduction hvalid
  have hpos : 1 ≤ (run.report compilerHash).passedCheckIds.length := by
    rw [hids, List.length_map, proposalRules, List.length_append]
    exact Nat.le_add_right_of_le (by decide)
  rw [validationRecord_isOk_iff hvalid hpos, hids, List.length_map, Fits]
  refine and_congr_right fun _ => ?_
  rw [List.forall_mem_map]
  exact forall₂_congr fun rule hrule =>
    isIdentifier_checkId (named_proposalRules run.names hrule)

theorem acceptsProposal_of_valid {verdict : ReviewerVerdict}
    (hvalid : (run.report compilerHash).valid)
    (hreview : (validateReviewer run.telemetry.model run.proposal.model verdict).valid) :
    AcceptsProposal run.proposal.model verdict := by
  obtain ⟨hpacket, hproposal, haccept⟩ := accepted_of_valid hreview
  rw [AcceptedRun.report, validateProposal, valid_reportOf_iff, proposalChecks, holds_append,
    bindingChecks, holds_cons_require] at hvalid
  exact ⟨hproposal, hpacket.trans hvalid.1.1.symm, haccept⟩

theorem targets_of_valid (hvalid : (run.report compilerHash).valid) :
    run.proposal.model.targetHashes = textsOf run.telemetryTargets ∧
      textsOf run.telemetryTargets = textsOf run.contractTargets := by
  rw [AcceptedRun.report, validateProposal, valid_reportOf_iff, proposalChecks, holds_append,
    bindingChecks, holds_cons_require, holds_cons_require] at hvalid
  obtain ⟨hproposal, hcontract⟩ := hvalid.1.2.1
  rw [run.telemetry_targets] at hproposal hcontract
  rw [run.contract_targets] at hcontract
  exact ⟨hproposal, hcontract⟩

theorem mapM_auditRecords {reports : Option ValidationReport} {records : List ValidationRecord}
    (h : reports.toList.mapM (validationRecord validator) = .ok records) :
    records.length ≤ 1 ∧ ∀ record ∈ records, ∃ report ∈ reports,
      validationRecord validator report = .ok record := by
  cases reports with
  | none =>
    cases h
    simp
  | some report =>
    simp only [Option.toList_some, List.mapM_cons, List.mapM_nil, bind_eq_ok] at h
    obtain ⟨record, hrecord, rest, hrest, hrecords⟩ := h
    cases hrest
    cases hrecords
    exact ⟨le_rfl, fun other hother => ⟨report, rfl, List.mem_singleton.mp hother ▸ hrecord⟩⟩

/-- Under valid reports the envelope's model only bounds the records and the artifacts. -/
theorem valid_envelopeFields (haccepted : run.Accepted compilerHash)
    {validations : List ValidationRecord} {hashes : List Digest} {now : Timestamp}
    (hhashes : hashes.length ≤ 128)
    (hlength : 1 ≤ validations.length ∧ validations.length ≤ 16)
    (hrecords : ∀ record ∈ validations, record.failedCheckIds = []) :
    (envelopeFields sha256 run validations hashes now).Valid := by
  have hverdict := acceptsProposal_of_valid haccepted.proposal haccepted.verdict
  have htargets := (targets_of_valid haccepted.proposal).1
  have haudit : ∀ audit ∈ run.audit, AcceptsProposal run.proposal.model audit.1.model := by
    intro audit hmem
    refine acceptsProposal_of_valid haccepted.proposal (haccepted.audit _ ?_)
    rw [AcceptedRun.auditReport?, Option.mem_def, Option.mem_def.mp hmem, Option.map_some]
  have hauditor : ∀ verdict ∈ run.audit.map Prod.fst,
      AcceptsProposal run.proposal.model verdict.model := by
    intro verdict hmem
    obtain ⟨audit, haudit', rfl⟩ := Option.mem_map.mp hmem
    exact haudit audit haudit'
  constructor
  case artifacts_le => exact hhashes
  case validations_pos => exact hlength.1
  case validations_le => exact hlength.2
  case reviewer => exact hverdict
  case targets => exact htargets
  case auditor => exact hauditor
  case no_failure => exact hrecords
  all_goals
    simp only [envelopeFields]
    cases run.audit <;> simp

/-- An envelope is built only when the rules of the proposal fit in a record. -/
theorem fits_of_buildEnvelope (hproduction : run.contract.model.environment = .production)
    (haccepted : run.Accepted compilerHash) {digests : List Digest} {now : Timestamp}
    {envelope : QuarantineEnvelope}
    (h : buildEnvelope sha256 compilerHash validator run digests now = .ok envelope) :
    Fits run.proposal.model := by
  rw [buildEnvelope, bind_eq_ok] at h
  obtain ⟨record, hrecord, -⟩ := h
  exact (validationRecord_report hproduction haccepted.proposal).mp ⟨record, hrecord⟩

/-- When the rules of the proposal fit, the envelope is built. -/
theorem exists_envelope_of_fits (hproduction : run.contract.model.environment = .production)
    (haccepted : run.Accepted compilerHash) {store store' : ArtifactStore} {digests : List Digest}
    (hcompiled : compileArtifacts sha256 compilerHash validator programDigest run store
      = .ok (store', digests)) (now : Timestamp) (hfits : Fits run.proposal.model) :
    ∃ envelope, buildEnvelope sha256 compilerHash validator run digests now = .ok envelope := by
  obtain ⟨record, hrecord⟩ : ∃ record,
      validationRecord validator (run.report compilerHash) = .ok record :=
    (validationRecord_report hproduction haccepted.proposal).mpr hfits
  obtain ⟨review, hreview⟩ := validationRecord_review validator haccepted.verdict
  obtain ⟨audits, haudits⟩ : ∃ audits,
      run.auditReport?.toList.mapM (validationRecord validator) = .ok audits := by
    cases haudit : run.audit with
    | none => exact ⟨[], by rw [AcceptedRun.auditReport?, haudit]; rfl⟩
    | some audit =>
      have hvalid := haccepted.audit _ (by rw [AcceptedRun.auditReport?, haudit]; rfl)
      obtain ⟨other, hother⟩ := validationRecord_review validator hvalid
      refine ⟨[other], ?_⟩
      rw [AcceptedRun.auditReport?, haudit, Option.map_some, Option.toList_some,
        List.mapM_cons, hother]
      rfl
  obtain ⟨hlength, hmem⟩ := mapM_auditRecords haudits
  have hrecords : ∀ other ∈ record :: review :: audits, other.failedCheckIds = [] := by
    intro other hother
    rcases List.mem_cons.mp hother with rfl | hother
    · exact failedCheckIds_eq_nil haccepted.proposal hrecord
    · rcases List.mem_cons.mp hother with rfl | hother
      · exact failedCheckIds_eq_nil haccepted.verdict hreview
      · obtain ⟨report, hreport, hother⟩ := hmem other hother
        exact failedCheckIds_eq_nil (haccepted.audit report hreport) hother
  have hvalid : (envelopeFields sha256 run (record :: review :: audits) digests now).Valid :=
    valid_envelopeFields haccepted ((length_compileArtifacts hcompiled).trans (by decide))
      (by simp only [List.length_cons]; omega) hrecords
  refine ⟨⟨_, hvalid⟩, ?_⟩
  have hreview' : validationRecord validator run.reviewReport = .ok review := hreview
  rw [buildEnvelope, hrecord, hreview', haudits]
  exact dif_pos hvalid

/-- **Whether the pipeline can build the envelope.** Once the programs of a valid proposal are
compiled and stored, and every verdict is valid, it can exactly when the rules of the proposal fit
in a validation record. -/
theorem buildEnvelope_iff (hproduction : run.contract.model.environment = .production)
    (haccepted : run.Accepted compilerHash) {store store' : ArtifactStore} {digests : List Digest}
    (hcompiled : compileArtifacts sha256 compilerHash validator programDigest run store
      = .ok (store', digests)) (now : Timestamp) :
    (∃ envelope, buildEnvelope sha256 compilerHash validator run digests now = .ok envelope)
      ↔ Fits run.proposal.model := by
  constructor
  · rintro ⟨envelope, h⟩
    exact fits_of_buildEnvelope hproduction haccepted h
  · exact exists_envelope_of_fits hproduction haccepted hcompiled now

end Run

/-! ## Programs of one operation -/

def nopStep (i : Fin 64) : SymbolicStep :=
  .of (String.ofList ('s' :: List.replicate i.val 'x')) i "nop" "plain" [] [] .none ["success"]
    ⟨⟨Nat.le_of_lt_succ i.isLt, by decide⟩, by decide⟩

theorem nopStep_stepId_injective : Function.Injective (SymbolicStep.stepId ∘ nopStep) := by
  intro i j h
  have hlength := congrArg (fun text : String => text.toList.length) h
  simp only [Function.comp_apply, nopStep, SymbolicStep.of, String.toList_ofList, List.length_cons,
    List.length_replicate] at hlength
  exact Fin.ext (by omega)

theorem isSymbol_nopStep (i : Fin 64) : isSymbol (nopStep i).stepId = true := by
  have hi := i.isLt
  simp only [isSymbol, nopStep, SymbolicStep.of, String.toList_ofList, List.length_replicate,
    Bool.and_eq_true, decide_eq_true_eq, List.all_replicate]
  refine ⟨⟨by decide, by omega⟩, ?_⟩
  split <;> decide

def nopSteps (n : Fin 65) : List SymbolicStep :=
  (List.finRange n).map fun i => nopStep (i.castLE (Nat.le_of_lt_succ n.isLt))

theorem nops_checks (n : Fin 65) (h : 1 ≤ n.val) :
    ((([] : List ResourceBinding).length ≤ 16 ∧ ([] : List Perturbation).length ≤ 8) ∧
        (1 ≤ (nopSteps n).length ∧ (nopSteps n).length ≤ 64) ∧ 1 ≤ 1 ∧ 1 ≤ 32) ∧
      ((([] : List ResourceBinding).map ResourceBinding.resourceRef).Nodup ∧
        ((nopSteps n).map SymbolicStep.stepId).Nodup ∧
        (nopSteps n).map SymbolicStep.ordinal = List.range (nopSteps n).length) ∧
      (∀ step ∈ nopSteps n, ∀ argument ∈ step.arguments, argument.kind = .resource →
        argument.resourceRef ∈ ([] : List ResourceBinding).map ResourceBinding.resourceRef) ∧
      ∀ perturbation ∈ ([] : List Perturbation),
        perturbation.targetStepId ∈ (nopSteps n).map SymbolicStep.stepId := by
  have hn := n.isLt
  have hlength : (nopSteps n).length = n := by rw [nopSteps, List.length_map, List.length_finRange]
  refine ⟨⟨by decide, ?_, by decide⟩, ⟨List.nodup_nil, ?_, ?_⟩, ?_, by simp⟩
  · rw [hlength]
    omega
  · rw [nopSteps, List.map_map]
    exact (List.nodup_finRange n).map (nopStep_stepId_injective.comp (Fin.castLE_injective _))
  · rw [hlength, nopSteps, List.map_map, ← List.map_coe_finRange_eq_range]
    rfl
  · intro step hstep argument hargument
    obtain ⟨i, -, rfl⟩ := List.mem_map.mp hstep
    cases hargument

/-- A program of `n` steps that do nothing. -/
def nops (n : Fin 65) (h : 1 ≤ n.val) : PlannerProgram :=
  .of "nops" .stableCoverage "plain" [] (nopSteps n) [] 1 (nops_checks n h)

/-- A digest of equal bytes. -/
def digestOf (byte : UInt8) : Digest := contentDigest (fun _ => Vector.replicate 32 byte) []

def nopsTargets : Wire.TargetHashes where
  harnessHash := ⟨HarnessCodec.auditedHarnessHash, by decide +kernel⟩
  compilerHash := digestOf 1
  opTableHash := digestOf 2
  fleetConfigHash := digestOf 3

def nopsEvidence : List String := ["evidence:1"]

theorem no_priorities_le : ([] : List ResearchPriority).length ≤ 8 := by decide

theorem no_changes_le : ([] : List String).length ≤ 16 := by decide

/-- The run of a proposal of `n` steps that do nothing, accepted by its reviewer. -/
def nopsRun (n : Fin 65) (h : 1 ≤ n.val) : AcceptedRun where
  telemetry := ⟨⟨"packet:1", textsOf nopsTargets, nopsEvidence, by decide⟩, .null⟩
  telemetryTargets := nopsTargets
  telemetry_targets := rfl
  contract := ⟨IouAi.Contract.buildContract (textsOf nopsTargets), .null⟩
  contractTargets := nopsTargets
  contract_targets := rfl
  proposal := ⟨{
    proposalId := "proposal:1"
    packetId := "packet:1"
    targetHashes := textsOf nopsTargets
    hypothesisEvidenceRefs := nopsEvidence
    abstain := false
    abstainReason := ""
    analysisOnly := false
    researchPriorities := []
    programs := [nops n h]
    length_researchPriorities := no_priorities_le
    length_programs := by simp
    shape := ⟨by simp, rfl, rfl⟩
    priorityIds_nodup := List.nodup_nil
    programIds_nodup := List.nodup_singleton _ }, .null⟩
  names := by
    refine ⟨by simp, ?_, ?_⟩
    · intro program hprogram
      rw [List.mem_singleton.mp hprogram]
      exact (by decide : isSymbol "nops" = true)
    · intro program hprogram step hstep
      rw [List.mem_singleton.mp hprogram] at hstep
      obtain ⟨i, -, rfl⟩ := List.mem_map.mp hstep
      exact isSymbol_nopStep _
  plannerTrace := .null
  verdict := ⟨{
    proposalId := "proposal:1"
    packetId := "packet:1"
    verdict := .accept
    findings := []
    checkedEvidenceRefs := nopsEvidence
    requiredChanges := []
    residualRisk := .low
    safeForQuarantine := true
    length_requiredChanges := no_changes_le }, .null⟩
  reviewerTrace := .null
  audit := none

def nopsValidator : ValidatorIdentity := ⟨⟨"semantic-validator.v4", by decide⟩, digestOf 4⟩

def zeroHash : Sha256 := fun _ => Vector.replicate 32 0

/-- The artifacts of the run, stored in an empty store. -/
def nopsArtifacts (n : Fin 65) (h : 1 ≤ n.val) :
    Except PipelineError (ArtifactStore × List Digest) :=
  compileArtifacts zeroHash (digestOf 1).val nopsValidator (fun _ => digestOf 5) (nopsRun n h)
    ⟨Archive.empty, Archive.empty⟩

theorem nopsRun_accepted {n : Fin 65} {h : 1 ≤ n.val}
    (hchecks : ∀ check ∈ proposalChecks (digestOf 1).val (nopsRun n h).telemetry.model
      (nopsRun n h).proposal.model (nopsRun n h).contract.model "shadow", check.condition = true)
    (hreview : (nopsRun n h).reviewReport.valid) : (nopsRun n h).Accepted (digestOf 1).val where
  proposal := (valid_reportOf_iff _).mpr hchecks
  verdict := hreview
  audit := by simp [AcceptedRun.auditReport?, nopsRun]

def nopsTime : Timestamp := ⟨"2026-01-01T00:00:00Z", by decide⟩

/-- The one artifact of the run, named by the hash of zeros. -/
theorem nopsArtifacts_eq_ok {n : Fin 65} {h : 1 ≤ n.val}
    (hok : ((nopsArtifacts n h).map Prod.snd).toOption = some [digestOf 0]) :
    ∃ store, nopsArtifacts n h = .ok (store, [digestOf 0]) := by
  cases hartifacts : nopsArtifacts n h with
  | error error => rw [hartifacts] at hok; cases hok
  | ok result =>
    rw [hartifacts] at hok
    exact ⟨result.1, by rw [← Option.some.inj hok]⟩

/-- The artifact of one step is stored, and its envelope is built. -/
theorem exists_nopsEnvelope : (nopsRun 1 le_rfl).Accepted (digestOf 1).val ∧ ∃ store envelope,
    nopsArtifacts 1 le_rfl = .ok (store, [digestOf 0]) ∧
      buildEnvelope zeroHash (digestOf 1).val nopsValidator (nopsRun 1 le_rfl) [digestOf 0] nopsTime
        = .ok envelope := by
  have haccepted : (nopsRun 1 le_rfl).Accepted (digestOf 1).val :=
    nopsRun_accepted (by decide +kernel) (by decide +kernel)
  obtain ⟨store, hstore⟩ := nopsArtifacts_eq_ok (n := 1) (h := le_rfl) (by decide +kernel)
  obtain ⟨envelope, henvelope⟩ := exists_envelope_of_fits rfl haccepted hstore nopsTime
    (fits_iff.mpr (by decide +kernel))
  exact ⟨haccepted, store, envelope, hstore, henvelope⟩

/-- The envelope of one step. -/
theorem buildEnvelope_one : ∃ envelope, buildEnvelope zeroHash (digestOf 1).val nopsValidator
    (nopsRun 1 le_rfl) [digestOf 0] nopsTime = .ok envelope := by
  obtain ⟨store, hstore⟩ := nopsArtifacts_eq_ok (n := 1) (h := le_rfl) (by decide +kernel)
  exact (buildEnvelope_iff rfl (nopsRun_accepted (by decide +kernel) (by decide +kernel)) hstore
    nopsTime).mpr (fits_iff.mpr (by decide +kernel))

/-- Fifteen steps pass 133 checks, more than a record takes. -/
theorem not_buildEnvelope_fifteen :
    ¬ ∀ (sha256 : Sha256) (compilerHash : String) (validator : ValidatorIdentity)
      (programDigest : PlannerProgram → Digest) (run : AcceptedRun) (store store' : ArtifactStore)
      (digests : List Digest) (now : Timestamp),
      run.contract.model.environment = .production → run.Accepted compilerHash →
      compileArtifacts sha256 compilerHash validator programDigest run store
        = .ok (store', digests) →
      ∃ envelope, buildEnvelope sha256 compilerHash validator run digests now = .ok envelope := by
  intro hall
  have haccepted : (nopsRun 15 (by decide)).Accepted (digestOf 1).val :=
    nopsRun_accepted (by decide +kernel) (by decide +kernel)
  have hok : (nopsArtifacts 15 (by decide)).isOk = true := by decide +kernel
  cases hartifacts : nopsArtifacts 15 (by decide) with
  | error error => rw [hartifacts] at hok; cases hok
  | ok result =>
    obtain ⟨envelope, henvelope⟩ := hall _ _ _ _ _ _ _ _ nopsTime rfl haccepted hartifacts
    have hfits := fits_of_buildEnvelope rfl haccepted henvelope
    exact absurd hfits.1 (by decide +kernel)

end IouAi.Authority
