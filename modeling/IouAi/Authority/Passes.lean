import IouAi.Authority.Outcomes

/-!
# Passes of the promoter

`iou-ai-promoter` promotes one candidate after the other. A candidate that is refused with an error of
the promoter or of the decisions is recorded, and the pass goes on; any other exception ends it, and
the candidates behind are not reached (`promotePass_of_fatal`). An approved candidate whose canary ran
under a runner that is no longer allowed raises such an exception in every scan, also when its seed
has long been published (`runner_change_ends_pass`).
-/

namespace IouAi.Authority

open Calendar Checks Wire

variable (sha256 : Sha256)

/-! ## The loop -/

/-- `_approved_candidate_digests`: the candidates with an approval, in the order of the archive. -/
def approvedCandidateDigests (decisions : List SignedDecision) : List String :=
  (decisions.filterMap fun signed =>
    match signed.decision with
    | .human _ => none
    | .execution decision =>
      if decision.action = .approveForLiveExecution then
        some decision.binding.candidateDigest.val
      else none).eraseDups

/-- The candidates of a pass: the ones that were asked for, and with `--scan` the approved ones. -/
def passTargets (candidates : List String) (scan : Bool) (decisions : List SignedDecision) :
    List String :=
  (candidates ++ if scan then approvedCandidateDigests decisions else []).eraseDups

/-- What the loop over the candidates catches. -/
def PromoteError.isCaught : PromoteError → Bool
  | .promotion _ => true
  | .decision _ => true
  | _ => false

/-- A candidate of a pass, with the stores and the world that its promotion finds. -/
structure PassTarget where
  candidateDigest : String
  stores : HostStores sha256
  turn : PromotionTurn

/-- What a pass leaves: the publication, what it has recorded, and the exception that ended it. -/
structure PassResult where
  publication : Publication
  results : List (String × Except PromoteError PromotionReceipt)
  raised : Option PromoteError

/-- The loop of `main`. -/
def promotePass (promoter : Promoter) : List (PassTarget sha256) → Publication → PassResult
  | [], publication => ⟨publication, [], none⟩
  | target :: targets, publication =>
    let (publication', result) :=
      promoter.promote sha256 target.stores target.candidateDigest target.turn publication
    match result with
    | .error error =>
      if error.isCaught then
        let rest := promotePass promoter targets publication'
        { rest with results := (target.candidateDigest, .error error) :: rest.results }
      else ⟨publication', [], some error⟩
    | .ok receipt =>
      let rest := promotePass promoter targets publication'
      { rest with results := (target.candidateDigest, .ok receipt) :: rest.results }

/-! ## Where a pass ends -/

section Pass

variable {sha256} {promoter : Promoter} {target : PassTarget sha256}
  {before after : List (PassTarget sha256)} {publication : Publication}

/-- The promotion raises what the loop does not catch, whatever is published. -/
def Fatal (promoter : Promoter) (target : PassTarget sha256) : Prop :=
  ∀ publication, ∃ error, promoter.promote sha256 target.stores target.candidateDigest target.turn
    publication = (publication, .error error) ∧ error.isCaught = false

/-- The pass over the targets before a fatal one is all that happens. -/
theorem promotePass_of_fatal (h : Fatal promoter target) :
    (promotePass sha256 promoter (before ++ target :: after) publication).publication
        = (promotePass sha256 promoter before publication).publication ∧
      (promotePass sha256 promoter (before ++ target :: after) publication).results
        = (promotePass sha256 promoter before publication).results ∧
      (promotePass sha256 promoter (before ++ target :: after) publication).raised.isSome := by
  induction before generalizing publication with
  | nil =>
    obtain ⟨error, hpromote, hcaught⟩ := h publication
    rw [List.nil_append, promotePass, promotePass, hpromote]
    dsimp only
    rw [hcaught]
    exact ⟨rfl, rfl, rfl⟩
  | cons other before ih =>
    rw [List.cons_append, promotePass, promotePass]
    generalize promoter.promote sha256 other.stores other.candidateDigest other.turn publication
      = promotion
    obtain ⟨publication', result⟩ := promotion
    obtain ⟨hpublication, hresults, hraised⟩ := @ih publication'
    cases result with
    | ok receipt =>
      dsimp only
      exact ⟨hpublication, by rw [hresults], hraised⟩
    | error error =>
      cases hcaught : error.isCaught with
      | true =>
        dsimp only
        rw [hcaught, if_pos rfl, if_pos rfl]
        exact ⟨hpublication, by rw [hresults], hraised⟩
      | false =>
        dsimp only
        rw [hcaught]
        exact ⟨rfl, rfl, rfl⟩

/-- A candidate that is approved is a target of a scan. -/
theorem mem_passTargets (candidates : List String) {decisions : List SignedDecision}
    {signed : SignedDecision} {decision : ExecutionDecision} (hsigned : signed ∈ decisions)
    (hdecision : signed.decision = .execution decision)
    (haction : decision.action = .approveForLiveExecution) :
    decision.binding.candidateDigest.val ∈ passTargets candidates true decisions := by
  rw [passTargets, List.mem_eraseDups, List.mem_append]
  refine .inr ?_
  rw [if_pos rfl, approvedCandidateDigests, List.mem_eraseDups, List.mem_filterMap]
  refine ⟨signed, hsigned, ?_⟩
  rw [hdecision]
  exact if_pos haction

end Pass

/-! ## Another runner -/

section Runner

variable {sha256} {promoter : Promoter} {destinations : Destinations}
  {host host' : PromotionHost sha256} {auth : Authorization} {candidateDigest : String}

/-- A candidate that could be built cannot be built again under other runners. -/
theorem buildExecutionCandidate_of_runner
    {validationReportDigest canaryReportDigest manifestDigest : Digest}
    {validation : DeterministicValidationReport} {canary : CanaryReportFields}
    {manifest : ArtifactManifest} {scope : PromotionScope} {readyAt : Timestamp}
    {allowed allowed' : List Digest} {candidate : ExecutionCandidate}
    (h : buildExecutionCandidate sha256 validationReportDigest validation canaryReportDigest canary
      manifestDigest manifest scope readyAt allowed = .ok candidate)
    (hrunner : canary.runnerHash ∉ allowed') :
    buildExecutionCandidate sha256 validationReportDigest validation canaryReportDigest canary
      manifestDigest manifest scope readyAt allowed' = .error .runnerNotAllowlisted := by
  unfold buildExecutionCandidate at h ⊢
  simp only [raiseIf_bind_eq_ok] at h
  obtain ⟨hvalidation, hcanary, hmanifest, hunbound, hpassed, -⟩ := h
  rw [raiseIf_bind_of_not hvalidation, raiseIf_bind_of_not hcanary, raiseIf_bind_of_not hmanifest,
    raiseIf_bind_of_not hunbound, raiseIf_bind_of_not hpassed]
  exact raiseIf_bind_eq_error.mpr (.inl ⟨hrunner, rfl⟩)

/-- What a promoter with another policy makes of a candidate whose canary ran under a runner that the
policy does not allow. -/
theorem reproduce_of_runner {stores : HostStores sha256} {spec spec' : DestinationSpec}
    {candidate : ExecutionCandidate} {payload : Bytes}
    (h : promoter.reproduce sha256 stores candidate = .ok (spec, payload))
    (hspec : destinations.get? candidate.promotionScope.destinationId = some spec')
    (hscope : spec'.scope? = some candidate.promotionScope)
    (hrunner : ∀ canary, Promoter.getAuthority sha256 promoter.reportModel stores.reports
      candidate.canaryReportDigest = .ok canary →
      canary.val.runnerHash ∉ spec'.allowedRunnerHashes) :
    Promoter.reproduce sha256 { promoter with destinations := destinations } stores candidate
      = .error (.candidate .runnerNotAllowlisted) := by
  obtain ⟨validation, canary, manifest, envelope, h⟩ := reproduce_eq_ok.mp h
  have hbuild := buildExecutionCandidate_of_runner h.candidate_rebuilt
    (hrunner canary h.canary_stored)
  have hvalidation : Promoter.getAuthority sha256
      (Promoter.validationModel { promoter with destinations := destinations }) stores.validations
      candidate.validationReportDigest = .ok validation := h.validation_stored
  have hcanary : Promoter.getAuthority sha256
      (Promoter.reportModel { promoter with destinations := destinations }) stores.reports
      candidate.canaryReportDigest = .ok canary := h.canary_stored
  have hdestination : ({ promoter with destinations := destinations } : Promoter).destinations.get?
      candidate.promotionScope.destinationId = some spec' := hspec
  unfold Promoter.reproduce
  refine bind_eq_error.mpr (.inr ⟨validation, hvalidation, ?_⟩)
  refine bind_eq_error.mpr (.inr ⟨canary, hcanary, ?_⟩)
  refine bind_eq_error.mpr (.inr ⟨manifest, mapError_eq_ok.mpr h.manifest_stored, ?_⟩)
  refine bind_eq_error.mpr (.inr ⟨payload, mapError_eq_ok.mpr h.payload_stored, ?_⟩)
  refine bind_eq_error.mpr (.inr ⟨envelope, mapError_eq_ok.mpr h.envelope_stored, ?_⟩)
  refine bind_eq_error.mpr (.inr ⟨validation, mapError_eq_ok.mpr h.validation_rebuilt, ?_⟩)
  refine bind_eq_error.mpr (.inr ⟨(), raiseIf_eq_ok.mpr (not_not.mpr rfl), ?_⟩)
  rw [hdestination]
  dsimp only
  rw [hscope]
  dsimp only
  refine bind_eq_error.mpr (.inr ⟨(), raiseIf_eq_ok.mpr (not_not.mpr rfl), ?_⟩)
  exact bind_eq_error.mpr (.inl (mapError_eq_error.mpr ⟨_, hbuild, rfl⟩))

/-- The promotion of such a candidate raises, at whatever time. -/
theorem authorize_of_runner {current : Datetime} {probe : Option TargetHashes}
    {stores : HostStores sha256} {spec' : DestinationSpec}
    (hauth : promoter.authorize sha256 stores candidateDigest current probe = .ok auth)
    (hspec : destinations.get? auth.candidate.promotionScope.destinationId = some spec')
    (hscope : spec'.scope? = some auth.candidate.promotionScope)
    (hrunner : ∀ canary, Promoter.getAuthority sha256 promoter.reportModel stores.reports
      auth.candidate.canaryReportDigest = .ok canary →
      canary.val.runnerHash ∉ spec'.allowedRunnerHashes) (current' : Datetime)
    (probe' : Option TargetHashes) :
    Promoter.authorize sha256 { promoter with destinations := destinations } stores candidateDigest
      current' probe' = .error (.candidate .runnerNotAllowlisted) := by
  obtain ⟨happroves, hauthorizes, -⟩ := authorize_eq_ok.mp hauth
  have happroves' : Approves { promoter with destinations := destinations } stores candidateDigest
      auth.signed auth.decision :=
    ⟨happroves.read, happroves.action, happroves.reason, happroves.event⟩
  have hstored : Promoter.getAuthority sha256
      (Promoter.candidateModel { promoter with destinations := destinations }) stores.candidates
      auth.decision.binding.candidateDigest = .ok auth.candidate := hauthorizes.stored
  unfold Promoter.authorize
  refine bind_eq_error.mpr (.inr ⟨(auth.signed, auth.decision),
    approvedDecision_eq_ok.mpr happroves', ?_⟩)
  refine bind_eq_error.mpr (.inr ⟨auth.candidate, hstored, ?_⟩)
  refine bind_eq_error.mpr (.inr ⟨(), raiseIf_eq_ok.mpr (not_not.mpr hauthorizes.matched), ?_⟩)
  exact bind_eq_error.mpr (.inl (reproduce_of_runner hauthorizes.reproduced hspec hscope hrunner))

/-- **A new runner ends the pass.** Once the policy of a destination allows another runner, a scan
comes to no candidate behind one whose canary ran under the old runner: it does what a pass over the
candidates before that one does, and raises. It makes no difference whether the candidate has been
published, and at what time the scan is made. -/
theorem runner_change_ends_pass {host host' : PromotionHost sha256} (h : Promotes promoter host)
    {current : Datetime} {probe : Option TargetHashes}
    (hauth : promoter.authorize sha256 host.stores candidateDigest current probe = .ok auth)
    (hrun : Relation.ReflTransGen (HostStep promoter) host host')
    (hsingle : ∀ digest signed decision, host'.stores.decisions.get? digest = some signed →
      signed.decision = .execution decision →
      decision.binding.candidateDigest.val = candidateDigest → signed = auth.signed)
    {spec' : DestinationSpec}
    (hspec : destinations.get? auth.candidate.promotionScope.destinationId = some spec')
    (hscope : spec'.scope? = some auth.candidate.promotionScope)
    (hrunner : ∀ canary, Promoter.getAuthority sha256 promoter.reportModel host'.stores.reports
      auth.candidate.canaryReportDigest = .ok canary →
      canary.val.runnerHash ∉ spec'.allowedRunnerHashes)
    {decisions : List SignedDecision}
    (hread : readArchive sha256 promoter.hmac promoter.key host'.stores.decisions = .ok decisions)
    (candidates : List String) (turns : String → PromotionTurn) (publication : Publication) :
    ∃ before after, passTargets candidates true decisions = before ++ candidateDigest :: after ∧
      ∀ pass earlier, pass = promotePass sha256 { promoter with destinations := destinations }
          ((passTargets candidates true decisions).map fun candidate =>
            ⟨candidate, host'.stores, turns candidate⟩) publication →
        earlier = promotePass sha256 { promoter with destinations := destinations }
          (before.map fun candidate => ⟨candidate, host'.stores, turns candidate⟩) publication →
        pass.publication = earlier.publication ∧ pass.results = earlier.results ∧
          pass.raised.isSome := by
  have hlater := authorize_of_single h hauth hrun hsingle current
  obtain ⟨happroves, -, -⟩ := authorize_eq_ok.mp hlater
  obtain ⟨decisions', hread', hon, -⟩ := happroves.read
  rw [hread, Except.ok.injEq] at hread'
  subst hread'
  obtain ⟨hmem, hdecision, hcandidate⟩ := mem_decisionsOn.mp (hon ▸ List.mem_singleton_self _)
  have htarget := mem_passTargets candidates hmem hdecision happroves.action
  rw [hcandidate] at htarget
  obtain ⟨before, after, hsplit⟩ := List.append_of_mem htarget
  refine ⟨before, after, hsplit, ?_⟩
  rintro pass earlier rfl rfl
  rw [hsplit, List.map_append, List.map_cons]
  refine promotePass_of_fatal fun publication => ⟨.candidate .runnerNotAllowlisted, ?_, rfl⟩
  unfold Promoter.promote
  dsimp only
  rw [authorize_of_runner hlater hspec hscope hrunner]

/-- The policy of the sample with another runner. -/
def otherSpec : DestinationSpec :=
  { readySpec with allowedRunnerHashes := [digestOf 1], runners_ne := List.cons_ne_nil _ _ }

theorem runner_change_ends_pass_one : ∃ (promoter : Promoter) (host : PromotionHost zeroHash)
    (signed : SignedDecision), ∀ publication, (promotePass zeroHash promoter
      ((passTargets [] true [signed]).map fun candidate =>
        ⟨candidate, host.stores, ⟨cleanWorld.started, 0, none, none, none⟩⟩) publication).raised.isSome
      := by
  obtain ⟨store, envelope, manifest, payload, validation, canary, candidate, hrecorded, hrunner⟩ :=
    recorded_ready
  have hauth : (readyPromoter envelope validation canary candidate).authorize zeroHash
      (readyHost store validation canary candidate).stores (digestOf 0) cleanWorld.started
      (some candidate.targetHashes) = .ok (readyAuthorization candidate payload) :=
    authorize_ready hrecorded cleanWorld.started
  have hscope := (fields_of_buildExecutionCandidate hrecorded.candidate_built).2.2.2.2.2
  have hspec : (singleDestination otherSpec).get? candidate.promotionScope.destinationId
      = some otherSpec := by
    rw [hscope]
    rfl
  have hother : otherSpec.scope? = some candidate.promotionScope := by
    rw [hscope]
    exact dif_pos isIdentifier_native
  have hstored : Promoter.getAuthority zeroHash
      (readyPromoter envelope validation canary candidate).reportModel
      (readyHost store validation canary candidate).stores.reports candidate.canaryReportDigest
      = .ok canary := (reproduces_of_recorded hrecorded (handed_ready _)).canary_stored
  have hrunners : ∀ other, Promoter.getAuthority zeroHash
      (readyPromoter envelope validation canary candidate).reportModel
      (readyHost store validation canary candidate).stores.reports candidate.canaryReportDigest
      = .ok other → other.val.runnerHash ∉ otherSpec.allowedRunnerHashes := by
    intro other hget
    rw [hstored, Except.ok.injEq] at hget
    rw [← hget, hrunner]
    decide +kernel
  refine ⟨{ readyPromoter envelope validation canary candidate with
    destinations := singleDestination otherSpec }, readyHost store validation canary candidate,
    readySigned candidate, fun publication => ?_⟩
  obtain ⟨before, after, -, hends⟩ := runner_change_ends_pass promotes_ready hauth .refl
    (fun _ _ _ hget _ _ => eq_of_get?_singleEntry hget) hspec hother hrunners readArchive_ready []
    (fun _ => ⟨cleanWorld.started, 0, none, none, none⟩) publication
  exact (hends _ _ rfl rfl).2.2

end Runner

end IouAi.Authority
