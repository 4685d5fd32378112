import IouAi.Authority.Promotions

/-!
# Outcomes of promotions

When a promotion succeeds (`promote_isOk_iff`), and what of it lasts. An approval that is in the
archive authorizes the promotion at any later time, until another execution decision on the candidate
arrives (`authorize_later`). A candidate is published once: its later promotions change nothing, and
return the receipt that is there (`promote_once`).
-/

namespace IouAi.Authority

open Calendar Checks Wire

variable {sha256 : Sha256} {promoter : Promoter} {host host' : PromotionHost sha256}

/-! ## The archive of a host -/

/-- The archive can be read, and holds one decision on each event. -/
structure ArchiveSound (sha256 : Sha256) (promoter : Promoter) (archive : DecisionArchive) : Prop where
  readable : ∀ entry ∈ archive.entries, decisionFileDigest sha256 entry.2 = entry.1 ∧
    verifySignature promoter.hmac promoter.key entry.2
  single : ∀ {digest digest' signed signed'}, archive.get? digest = some signed →
    archive.get? digest' = some signed' → signed.eventDigest = signed'.eventDigest → signed = signed'

theorem ArchiveSound.imported {archive archive' : DecisionArchive} {outbox : Outbox sha256}
    {signed : SignedDecision} {current : Datetime} (h : ArchiveSound sha256 promoter archive)
    (himport : importSigned sha256 promoter.hmac promoter.key outbox archive signed current
      = .ok archive') : ArchiveSound sha256 promoter archive' := by
  rcases importSigned_eq_ok himport with rfl | ⟨haccepted, hput⟩
  · exact h
  · rcases Archive.entries_of_put hput with ⟨-, hentries⟩ | ⟨-, rfl⟩
    · have hget : ∀ {digest other}, archive'.get? digest = some other →
          archive.get? digest = some other ∨ other = signed := by
        intro digest other hget
        have hmem := Archive.get?_eq_some.mp hget
        rw [hentries] at hmem
        rcases List.mem_append.mp hmem with hold | hnew
        · exact .inl (Archive.get?_eq_some.mpr hold)
        · exact .inr (Prod.mk.inj (List.mem_singleton.mp hnew)).2
      constructor
      · rw [hentries]
        intro entry hentry
        rcases List.mem_append.mp hentry with hold | hnew
        · exact h.readable entry hold
        · rw [List.mem_singleton.mp hnew]
          exact ⟨rfl, haccepted.verified⟩
      · intro digest digest' other other' hother hother' hevent
        rcases hget hother with hold | rfl
        · rcases hget hother' with hold' | rfl
          · exact h.single hold hold' hevent
          · exact absurd hevent (haccepted.first digest other hold)
        · rcases hget hother' with hold' | rfl
          · exact absurd hevent.symm (haccepted.first digest' other' hold')
          · rfl
    · exact h

theorem Promotes.archiveSound (h : Promotes promoter host) :
    ArchiveSound sha256 promoter host.stores.decisions := by
  obtain ⟨start, hfresh, hrun⟩ := h
  refine Runs.reflTransGen_preserves (P := fun host : PromotionHost sha256 =>
    ArchiveSound sha256 promoter host.stores.decisions) ?_ hrun ?_
  · intro before after hstep hsound
    cases hstep with
    | stored _ hdecisions => rwa [hdecisions]
    | imported himport => exact hsound.imported himport
    | _ => exact hsound
  · rw [hfresh.decisions]
    exact ⟨fun entry hentry => absurd hentry List.not_mem_nil, fun hget => by cases hget⟩

theorem Promotes.later (h : Promotes promoter host)
    (hrun : Relation.ReflTransGen (HostStep promoter) host host') : Promotes promoter host' := by
  obtain ⟨start, hfresh, hstart⟩ := h
  exact ⟨start, hfresh, hstart.trans hrun⟩

/-- A list without repetitions has one element when all of its elements are that one. -/
theorem eq_singleton_iff {α : Type} {xs : List α} (hnodup : xs.Nodup) {x : α} :
    xs = [x] ↔ x ∈ xs ∧ ∀ y ∈ xs, y = x := by
  constructor
  · rintro rfl
    simp
  · rintro ⟨hmem, hall⟩
    cases xs with
    | nil => cases hmem
    | cons y ys =>
      obtain ⟨rfl, hrest⟩ := List.forall_mem_cons.mp hall
      have hnone : ys = [] := List.eq_nil_iff_forall_not_mem.mpr fun z hz =>
        (List.nodup_cons.mp hnodup).1 (hrest z hz ▸ hz)
      rw [hnone]

/-- The decisions of an archive that can be read are different ones. -/
theorem nodup_of_readArchive {hmac : HmacSha256} {key : VerificationKey} {archive : DecisionArchive}
    {decisions : List SignedDecision} (h : readArchive sha256 hmac key archive = .ok decisions) :
    decisions.Nodup := by
  obtain ⟨hentries, rfl⟩ := readArchive_eq_ok.mp h
  refine ((List.perm_insertionSort _ archive.entries).map _).nodup_iff.mpr ?_
  have hkeys := archive.keys_nodup
  refine List.Nodup.map_on ?_ (List.Nodup.of_map _ hkeys)
  intro entry hentry other hother heq
  exact Prod.ext ((hentries entry hentry).1.symm.trans
    ((congrArg (decisionFileDigest sha256) heq).trans (hentries other hother).1)) heq

theorem nodup_decisionsOn (candidateDigest : String) {decisions : List SignedDecision}
    (h : decisions.Nodup) : (decisionsOn candidateDigest decisions).Nodup := by
  refine h.filterMap ?_
  intro signed other found hfound hother
  have hone : found ∈ decisionsOn candidateDigest [signed] :=
    List.mem_filterMap.mpr ⟨signed, List.mem_singleton_self _, hfound⟩
  have hone' : found ∈ decisionsOn candidateDigest [other] :=
    List.mem_filterMap.mpr ⟨other, List.mem_singleton_self _, hother⟩
  have heq := List.mem_singleton.mp (mem_decisionsOn.mp hone).1
  have heq' := List.mem_singleton.mp (mem_decisionsOn.mp hone').1
  exact heq.symm.trans heq'

/-! ## What an authorization lasts -/

/-- A promoter finds the approval when it is the one execution decision on the candidate. -/
theorem Approves.of_single (h : ArchiveSound sha256 promoter host.stores.decisions)
    {candidateDigest : String} {signed : SignedDecision} {decision : ExecutionDecision}
    (harchived : ∃ digest, host.stores.decisions.get? digest = some signed)
    (hdecision : signed.decision = .execution decision)
    (hcandidate : decision.binding.candidateDigest.val = candidateDigest) :
    (∃ decisions, readArchive sha256 promoter.hmac promoter.key host.stores.decisions = .ok decisions ∧
        decisionsOn candidateDigest decisions = [(signed, decision)] ∧
        scanDecisions decisions signed = .ok true)
      ↔ ∀ digest other otherDecision, host.stores.decisions.get? digest = some other →
        other.decision = .execution otherDecision →
        otherDecision.binding.candidateDigest.val = candidateDigest → other = signed := by
  obtain ⟨decisions, hread⟩ : ∃ decisions,
      readArchive sha256 promoter.hmac promoter.key host.stores.decisions = .ok decisions :=
    ⟨_, readArchive_eq_ok.mpr ⟨h.readable, rfl⟩⟩
  have hmem : ∀ {other}, other ∈ decisions ↔
      ∃ digest, host.stores.decisions.get? digest = some other := by
    intro other
    rw [mem_of_readArchive hread]
    exact exists_congr fun digest => Archive.get?_eq_some.symm
  have hsingle := eq_singleton_iff
    (nodup_decisionsOn candidateDigest (nodup_of_readArchive hread)) (x := (signed, decision))
  have hscan : scanDecisions decisions signed = .ok true := by
    unfold scanDecisions
    split
    · rename_i hnone
      simpa using List.find?_eq_none.mp hnone signed (hmem.mpr harchived)
    · rename_i existing hfound
      obtain ⟨digest, hget⟩ := harchived
      obtain ⟨digest', hget'⟩ := hmem.mp (List.mem_of_find?_eq_some hfound)
      have hevent : existing.eventDigest = signed.eventDigest := by
        simpa using List.find?_some hfound
      rw [h.single hget' hget hevent, if_pos rfl]
  constructor
  · rintro ⟨decisions', hread', hon, -⟩ digest other otherDecision hget hother hcandidate'
    rw [hread, Except.ok.injEq] at hread'
    subst hread'
    have heq := (hsingle.mp hon).2 (other, otherDecision)
      (mem_decisionsOn.mpr ⟨hmem.mpr ⟨digest, hget⟩, hother, hcandidate'⟩)
    exact congrArg Prod.fst heq
  · intro hall
    refine ⟨decisions, hread, hsingle.mpr ⟨?_, ?_⟩, hscan⟩
    · exact mem_decisionsOn.mpr ⟨hmem.mpr harchived, hdecision, hcandidate⟩
    · rintro ⟨other, otherDecision⟩ hother
      obtain ⟨hin, hexecution, hon⟩ := mem_decisionsOn.mp hother
      obtain ⟨digest, hget⟩ := hmem.mp hin
      have heq := hall digest other otherDecision hget hexecution hon
      rw [heq, hdecision] at hexecution
      rw [heq, Decision.execution.inj hexecution]

/-- A later archive has the decision of an authorized candidate, alone on the candidate or not. -/
theorem read_later (h : Promotes promoter host) {candidateDigest : String} {current : Datetime}
    {probe : Option TargetHashes} {auth : Authorization}
    (hauth : promoter.authorize sha256 host.stores candidateDigest current probe = .ok auth)
    (hrun : Relation.ReflTransGen (HostStep promoter) host host') :
    (∃ decisions,
        readArchive sha256 promoter.hmac promoter.key host'.stores.decisions = .ok decisions ∧
        decisionsOn candidateDigest decisions = [(auth.signed, auth.decision)] ∧
        scanDecisions decisions auth.signed = .ok true)
      ↔ ∀ digest signed decision,
        host'.stores.decisions.get? digest = some signed → signed.decision = .execution decision →
        decision.binding.candidateDigest.val = candidateDigest → signed = auth.signed := by
  obtain ⟨happroves, -, -⟩ := authorize_eq_ok.mp hauth
  obtain ⟨decisions, hread, hon, -⟩ := happroves.read
  obtain ⟨hmem, hdecision, hcandidate⟩ := mem_decisionsOn.mp (hon ▸ List.mem_singleton_self _)
  obtain ⟨digest, hentry⟩ := (mem_of_readArchive hread).mp hmem
  exact Approves.of_single (h.later hrun).archiveSound
    ⟨digest, (within_of_steps hrun).decisions (Archive.get?_eq_some.mpr hentry)⟩ hdecision hcandidate

/-- Nothing but another decision on a candidate or other targets stand in the way of an authorized
candidate later. -/
theorem authorize_of_single (h : Promotes promoter host) {candidateDigest : String}
    {current : Datetime} {probe : Option TargetHashes} {auth : Authorization}
    (hauth : promoter.authorize sha256 host.stores candidateDigest current probe = .ok auth)
    (hrun : Relation.ReflTransGen (HostStep promoter) host host')
    (hsingle : ∀ digest signed decision, host'.stores.decisions.get? digest = some signed →
      signed.decision = .execution decision →
      decision.binding.candidateDigest.val = candidateDigest → signed = auth.signed)
    (current' : Datetime) :
    promoter.authorize sha256 host'.stores candidateDigest current' (some auth.candidate.targetHashes)
      = .ok auth := by
  obtain ⟨happroves, hauthorizes, -⟩ := authorize_eq_ok.mp hauth
  have hwithin := within_of_steps hrun
  obtain ⟨ready, hready⟩ := happroves.event
  exact authorize_eq_ok.mpr ⟨⟨(read_later h hauth hrun).mpr hsingle, happroves.action,
    happroves.reason, ready, findEvent_of_prefix hwithin.events hready⟩, hauthorizes.grows hwithin,
    rfl⟩

/-- **An approval lasts.** A candidate that is authorized once is authorized in every later state, at
whatever time, as long as the targets are those of the candidate and no other execution decision on it
has been imported. -/
theorem authorize_later (h : Promotes promoter host) {candidateDigest : String} {current : Datetime}
    {probe : Option TargetHashes} {auth : Authorization}
    (hauth : promoter.authorize sha256 host.stores candidateDigest current probe = .ok auth)
    (hrun : Relation.ReflTransGen (HostStep promoter) host host') (current' : Datetime)
    (probe' : Option TargetHashes) :
    promoter.authorize sha256 host'.stores candidateDigest current' probe' = .ok auth ↔
      probe' = some auth.candidate.targetHashes ∧ ∀ digest signed decision,
        host'.stores.decisions.get? digest = some signed → signed.decision = .execution decision →
        decision.binding.candidateDigest.val = candidateDigest → signed = auth.signed := by
  constructor
  · intro hlater
    obtain ⟨happroves, -, htargets⟩ := authorize_eq_ok.mp hlater
    exact ⟨htargets, (read_later h hauth hrun).mp happroves.read⟩
  · rintro ⟨rfl, hsingle⟩
    exact authorize_of_single h hauth hrun hsingle current'

/-- The archive of the sample holds one decision. -/
theorem eq_of_get?_singleEntry {value other : SignedDecision} {digest : Digest}
    (h : (singleEntry value).get? digest = some other) : other = value := by
  have hmem := Archive.get?_eq_some.mp h
  exact (Prod.mk.inj (List.mem_singleton.mp hmem)).2

theorem authorize_later_ready : ∃ (promoter : Promoter) (host : PromotionHost zeroHash)
    (auth : Authorization), ∀ current', promoter.authorize zeroHash host.stores (digestOf 0).val
      current' (some auth.candidate.targetHashes) = .ok auth := by
  obtain ⟨store, envelope, manifest, payload, validation, canary, candidate, hrecorded, -⟩ :=
    recorded_ready
  refine ⟨readyPromoter envelope validation canary candidate,
    readyHost store validation canary candidate, readyAuthorization candidate payload,
    fun current' => ?_⟩
  have hauth := authorize_ready hrecorded cleanWorld.started
  refine (authorize_later promotes_ready hauth .refl current' _).mpr ⟨rfl, ?_⟩
  exact fun digest signed decision hget _ _ => eq_of_get?_singleEntry hget

/-- **What the bridge makes ready, an approval promotes.** The bridge has processed an artifact and
made a candidate of it. When a promoter finds the records of the bridge and has the policy of the
bridge, an archived approval on the challenge of the candidate authorizes it, at whatever time, as
long as the targets are those of the candidate and no other execution decision on it was imported. -/
theorem ready_authorized {loads : Bytes → Option Json} {bridge : CanaryBridge} {turn : Turn}
    {envelopeDigest : Digest} {envelope : QuarantineEnvelope} {manifestDigest : Digest}
    {result : ArtifactResult} {candidateDigest : Digest}
    (h : bridge.processArtifact sha256 loads turn envelopeDigest envelope manifestDigest = .ok result)
    (hready : result.candidateDigest = some candidateDigest) :
    ∃ (validation : DeterministicValidationReport) (canary : CanaryReport)
        (candidate : ExecutionCandidate) (payload : Bytes),
      result.canaryReportDigest = jsonDigest sha256 canary.val.toJson ∧
      candidateDigest = jsonDigest sha256 candidate.toJson ∧
      ∀ (promoter : Promoter) (host : PromotionHost sha256) (spec : DestinationSpec)
        (signed : SignedDecision) (decision : ExecutionDecision), Promotes promoter host →
        Handed promoter host.stores bridge envelopeDigest envelope validation canary candidate spec →
        (∃ digest, host.stores.decisions.get? digest = some signed) →
        signed.decision = .execution decision → decision.action = .approveForLiveExecution →
        decision.binding = candidate.record.binding candidateDigest →
        ∀ current probe, promoter.authorize sha256 host.stores candidateDigest current probe
            = .ok ⟨signed, decision, candidate, spec, payload⟩ ↔
          probe = some candidate.targetHashes ∧ ∀ digest other otherDecision,
            host.stores.decisions.get? digest = some other →
            other.decision = .execution otherDecision →
            otherDecision.binding.candidateDigest = candidateDigest → other = signed := by
  obtain ⟨manifest, payload, validation, canary, candidate, hrecorded, hcanary, hcandidate⟩ :=
    exists_recorded h hready
  refine ⟨validation, canary, candidate, payload, hcanary, hcandidate, ?_⟩
  intro promoter host spec signed decision hpromotes hhanded harchived hdecision haction hbinding
    current probe
  have hon : decision.binding.candidateDigest.val = candidateDigest.val := by rw [hbinding]; rfl
  have hsingle := Approves.of_single hpromotes.archiveSound harchived hdecision hon
  have hone : (∀ digest other otherDecision, host.stores.decisions.get? digest = some other →
      other.decision = .execution otherDecision →
      otherDecision.binding.candidateDigest.val = candidateDigest.val → other = signed) ↔
      ∀ digest other otherDecision, host.stores.decisions.get? digest = some other →
        other.decision = .execution otherDecision →
        otherDecision.binding.candidateDigest = candidateDigest → other = signed := by
    simp only [Subtype.ext_iff]
  rw [hone] at hsingle
  rw [authorize_eq_ok]
  constructor
  · rintro ⟨happroves, -, htargets⟩
    exact ⟨htargets, hsingle.mp happroves.read⟩
  · rintro ⟨htargets, hall⟩
    -- The decision was imported, so its reason goes with its action and its event is there.
    obtain ⟨digest, hget⟩ := harchived
    obtain ⟨event, time, hfind, hagrees, -⟩ := hpromotes.sound.decisions digest signed hget
    have hkind := hagrees.kind
    rw [hdecision] at hkind
    cases hkind with
    | execution ready decision =>
      have hreason := (hagrees.execution ready decision rfl hdecision).2
      have hexpected : decision.expectedReason = .operatorApprovedLiveExecution := by
        rw [ExecutionDecision.expectedReason, haction]
      have hevent : findEvent host.stores.events decision.core.eventDigest
          = .ok (.execution ready) := by
        rw [← hfind, SignedDecision.eventDigest, hdecision]
        rfl
      refine ⟨⟨hsingle.mpr hall, haction, hreason.trans hexpected, ready, hevent⟩,
        ⟨?_, ?_, ?_⟩, htargets⟩
      · have hdigest : Authorization.candidateDigest ⟨signed, decision, candidate, spec, payload⟩
            = jsonDigest sha256 candidate.toJson := by
          rw [← hcandidate]
          exact Subtype.ext hon
        rw [hdigest]
        exact hhanded.candidate_stored.getAuthority (length_candidate_le candidate)
      · exact matches_of_binding hbinding
      · exact reproduce_eq_ok.mpr ⟨_, _, _, _, reproduces_of_recorded hrecorded hhanded⟩

theorem ready_authorized_one : ∃ (promoter : Promoter) (host : PromotionHost zeroHash)
    (auth : Authorization), Promotes promoter host ∧ ∀ current, promoter.authorize zeroHash
      host.stores (digestOf 0) current (some auth.candidate.targetHashes) = .ok auth := by
  obtain ⟨store, envelope, manifest, _, _, _, _, hrecorded, -⟩ := recorded_ready
  obtain ⟨validation, canary, candidate, payload, -, -, hall⟩ :=
    ready_authorized (hrecorded.processArtifact fun _ => rfl) rfl
  refine ⟨readyPromoter envelope validation canary candidate,
    readyHost store validation canary candidate, readyAuthorization candidate payload,
    promotes_ready, fun current => ?_⟩
  refine (hall _ (readyHost store validation canary candidate) readySpec (readySigned candidate)
    (readyDecision candidate) promotes_ready (handed_ready _) ⟨_, get?_singleEntry _⟩ rfl rfl rfl
    current _).mpr ⟨rfl, ?_⟩
  exact fun digest other decision hget _ _ => eq_of_get?_singleEntry hget

/-! ## A candidate is published once -/

section Publish

variable {parse : Storage.Parse PromotionReceipt} {auth : Authorization} {publication : Publication}
  {promotedAt : Timestamp} {wall : ℕ} {probe : Option TargetHashes}
  {halt? : Option (Fault × Moment)} {receipt : PromotionReceipt}

/-- How a publication ends with a receipt. -/
inductive Receipted (sha256 : Sha256) (parse : Storage.Parse PromotionReceipt) (auth : Authorization)
    (promotedAt : Timestamp) (probe : Option TargetHashes) (publication : Publication) :
    PromotionReceipt → Prop
  | found {receipts : List PromotionReceipt} {receipt : PromotionReceipt}
      (hread : readReceipts parse publication.receipts = .ok receipts)
      (hfound : existingReceipt auth.candidateDigest auth.candidate.artifactDigest
        auth.spec.destinationId receipts = .ok (some receipt)) :
      Receipted sha256 parse auth promotedAt probe publication receipt
  | made {inbox : Archive Digest Bytes} (hclear : Clear parse auth publication.receipts)
      (hprobe : probe = some auth.candidate.targetHashes)
      (hinbox : publication.inboxes auth.spec.inbox = some inbox)
      (hseed : (publishSeed inbox auth.candidate.artifactDigest auth.payload).2 = .ok ())
      (hstem : ∀ existing, publication.receipts.get? (stemOf auth.candidateDigest) = some existing →
        existing = (auth.receipt sha256 promotedAt).payload) :
      Receipted sha256 parse auth promotedAt probe publication (auth.receipt sha256 promotedAt)

theorem checkTargets_eq_ok {candidate : ExecutionCandidate} {drift : PromotionError} {u : Unit} :
    Promoter.checkTargets probe candidate drift = .ok u ↔ probe = some candidate.targetHashes := by
  cases probe with
  | none => simp [Promoter.checkTargets]
  | some targets => simp [Promoter.checkTargets]

/-- What is found under the lock. -/
theorem found_eq_ok {files : Archive Nonce256 Bytes} {existing? : Option PromotionReceipt} :
    (do
      let receipts ← (readReceipts parse files).mapError PromoteError.promotion
      let existing ← (existingReceipt auth.candidateDigest auth.candidate.artifactDigest
        auth.spec.destinationId receipts).mapError PromoteError.promotion
      if existing.isNone then
        Promoter.checkTargets probe auth.candidate .driftedDuringPromotion
      return existing) = Except.ok existing? ↔
    (∃ receipts, readReceipts parse files = .ok receipts ∧
      existingReceipt auth.candidateDigest auth.candidate.artifactDigest auth.spec.destinationId
        receipts = .ok existing?) ∧ (existing? = none → probe = some auth.candidate.targetHashes) := by
  simp only [bind_eq_ok, mapError_eq_ok]
  constructor
  · rintro ⟨receipts, hread, existing, hexisting, h⟩
    cases existing with
    | some receipt =>
      cases h
      exact ⟨⟨receipts, hread, hexisting⟩, fun hnone => by cases hnone⟩
    | none =>
      obtain ⟨u, hprobe, h⟩ := bind_eq_ok.mp h
      cases h
      exact ⟨⟨receipts, hread, hexisting⟩, fun _ => checkTargets_eq_ok.mp hprobe⟩
  · rintro ⟨⟨receipts, hread, hexisting⟩, hprobe⟩
    refine ⟨receipts, hread, existing?, hexisting, ?_⟩
    cases existing? with
    | some receipt => rfl
    | none => exact bind_eq_ok.mpr ⟨(), checkTargets_eq_ok.mpr (hprobe rfl), rfl⟩

/-- The receipt that is found is in the file of its candidate. -/
theorem get?_of_existingReceipt {files : Archive Nonce256 Bytes} {receipts : List PromotionReceipt}
    (hread : readReceipts parse files = .ok receipts)
    (hfound : existingReceipt auth.candidateDigest auth.candidate.artifactDigest
      auth.spec.destinationId receipts = .ok (some receipt)) :
    files.get? (stemOf auth.candidateDigest) = some receipt.payload ∧
      receipt.candidateDigest = auth.candidateDigest.val := by
  obtain ⟨hmem, hcandidate⟩ := existingReceipt_eq_some hfound
  obtain ⟨stem, bytes, hget, hreceipt⟩ := (mem_of_readReceipts hread).mp hmem
  obtain ⟨-, -, hpayload, hstem⟩ := readReceipt_eq_ok.mp hreceipt
  have heq : stem = stemOf auth.candidateDigest := by
    refine Subtype.ext (hstem.trans ?_)
    rw [hcandidate]
    rfl
  rw [← heq, hget, hpayload]
  exact ⟨rfl, hcandidate⟩

/-- When a publication ends with a receipt, and where the receipt is then. -/
theorem receipted_of_publish {publication' : Publication}
    (h : publish sha256 parse auth promotedAt wall probe halt? publication
      = (publication', .ok receipt)) :
    acquireLock wall publication.lock = .ok () ∧
      Receipted sha256 parse auth promotedAt probe publication receipt ∧
      publication'.receipts.get? (stemOf auth.candidateDigest) = some receipt.payload ∧
      receipt.candidateDigest = auth.candidateDigest.val := by
  unfold publish at h
  cases hlock : acquireLock wall publication.lock with
  | error error =>
    rw [hlock] at h
    cases h
  | ok u =>
    rw [hlock] at h
    dsimp only at h
    obtain ⟨hpublication, hresult⟩ := Prod.mk.inj h
    have hreceipts := congrArg Publication.receipts hpublication
    dsimp only at hreceipts
    refine ⟨rfl, ?_⟩
    clear h hpublication
    generalize halt?.map Prod.snd = moment? at hresult hreceipts
    unfold publishLocked at hresult hreceipts
    dsimp only at hresult hreceipts
    split at hresult
    · cases hresult
    · rename_i existing hfound
      cases hresult
      rw [hfound] at hreceipts
      dsimp only at hreceipts
      obtain ⟨⟨receipts, hread, hexisting⟩, -⟩ := found_eq_ok.mp hfound
      rw [← hreceipts]
      exact ⟨.found hread hexisting, get?_of_existingReceipt hread hexisting⟩
    · rename_i hfound
      rw [hfound] at hreceipts
      dsimp only at hreceipts
      obtain ⟨⟨receipts, hread, hexisting⟩, hprobe⟩ := found_eq_ok.mp hfound
      have hclear : Clear parse auth publication.receipts :=
        ⟨receipts, hread, existingReceipt_eq_none.mp hexisting⟩
      split at hresult
      · cases hresult
      · rename_i hlooked
        rw [if_neg hlooked] at hreceipts
        unfold publishArtifact at hresult hreceipts
        split at hresult
        · cases hresult
        · rename_i inbox hinbox
          rw [hinbox] at hreceipts
          dsimp only at hresult hreceipts
          split at hresult
          · cases hresult
          · rename_i hseed
            rw [hseed] at hreceipts
            dsimp only at hreceipts
            split at hresult
            · cases hresult
            · rename_i hlinked
              rw [if_neg hlinked] at hreceipts
              unfold writeReceipt at hresult hreceipts
              dsimp only at hresult hreceipts
              split at hresult
              · rename_i existing hget
                rw [hget] at hreceipts
                dsimp only at hresult hreceipts
                split at hresult
                · rename_i heq
                  cases hresult
                  rw [← hreceipts, hget, heq]
                  refine ⟨.made hclear (hprobe rfl) hinbox hseed ?_, rfl, rfl⟩
                  intro other hother
                  rw [hget, Option.some.injEq] at hother
                  rw [← hother, heq]
                · cases hresult
              · rename_i hget
                rw [hget] at hreceipts
                dsimp only at hresult hreceipts
                split at hresult
                · cases hresult
                · rename_i hwrote
                  cases hresult
                  refine ⟨.made hclear (hprobe rfl) hinbox hseed ?_, ?_, rfl⟩
                  · intro other hother
                    rw [hget] at hother
                    cases hother
                  · obtain ⟨files, hput⟩ :=
                      put_of_get?_eq_none hget (auth.receipt sha256 promotedAt).payload
                    split at hreceipts
                    · exact absurd rfl (hwrote _)
                    · rw [hput, Option.getD_some] at hreceipts
                      rw [← hreceipts]
                      exact Archive.get?_put hput

theorem publish_of_receipted (hlock : acquireLock wall publication.lock = .ok ())
    (h : Receipted sha256 parse auth promotedAt probe publication receipt) :
    (publish sha256 parse auth promotedAt wall probe none publication).2 = .ok receipt := by
  have hlocked : (publishLocked sha256 parse auth promotedAt probe none publication).2
      = .ok receipt := by
    unfold publishLocked
    cases h with
    | found hread hfound =>
      rw [found_eq_ok.mpr ⟨⟨_, hread, hfound⟩, fun hnone => by cases hnone⟩]
    | @made inbox hclear hprobe hinbox hseed hstem =>
      obtain ⟨receipts, hread, hnone⟩ := hclear
      rw [found_eq_ok.mpr ⟨⟨_, hread, existingReceipt_eq_none.mpr hnone⟩, fun _ => hprobe⟩]
      dsimp only
      rw [if_neg (by simp), publishArtifact, hinbox]
      dsimp only
      rw [hseed]
      dsimp only
      rw [if_neg (by simp)]
      unfold writeReceipt
      dsimp only
      cases hget : publication.receipts.get? (stemOf auth.candidateDigest) with
      | none => rfl
      | some existing => exact if_pos (hstem existing hget)
  unfold publish
  rw [hlock]
  exact hlocked

/-- A receipt stays where it is. -/
theorem Change.receipt_kept {publication' : Publication}
    (h : Change sha256 parse auth promotedAt publication publication') {stem : Nonce256}
    {bytes : Bytes} (hget : publication.receipts.get? stem = some bytes) :
    publication'.receipts.get? stem = some bytes := by
  rcases h.receipts with hsame | ⟨-, -, written, -, hput, -⟩
  · rwa [hsame]
  · exact Archive.get?_of_put hput hget

/-- A candidate that has a receipt is not published again. -/
theorem publish_again (sha256 : Sha256) (parse : Storage.Parse PromotionReceipt)
    (promotedAt : Timestamp) (wall : ℕ) (probe : Option TargetHashes)
    (halt? : Option (Fault × Moment)) (hget : publication.receipts.get? (stemOf auth.candidateDigest)
      = some receipt.payload) (hcandidate : receipt.candidateDigest = auth.candidateDigest.val) :
    (publish sha256 parse auth promotedAt wall probe halt? publication).1.receipts
        = publication.receipts ∧
      (publish sha256 parse auth promotedAt wall probe halt? publication).1.inboxes
        = publication.inboxes := by
  unfold publish
  cases acquireLock wall publication.lock with
  | error error => exact ⟨rfl, rfl⟩
  | ok u =>
    dsimp only
    unfold publishLocked
    dsimp only
    split
    · exact ⟨rfl, rfl⟩
    · exact ⟨rfl, rfl⟩
    · rename_i hfound
      obtain ⟨⟨receipts, hread, hexisting⟩, -⟩ := found_eq_ok.mp hfound
      obtain ⟨found, hfile⟩ := allWhole_iff.mpr ⟨receipts, hread⟩ _ _ hget
      obtain ⟨-, hsame, -, -⟩ := readReceipt_of_torn List.prefix_rfl hfile
      have hmem := (mem_of_readReceipts hread).mpr ⟨_, _, hget, hfile⟩
      exact absurd (hsame.trans hcandidate) (existingReceipt_eq_none.mp hexisting found hmem).1

end Publish

/-- A receipt stays where it is in every later state. -/
theorem receipt_kept (hrun : Relation.ReflTransGen (HostStep promoter) host host')
    {stem : Nonce256} {bytes : Bytes} (hget : host.publication.receipts.get? stem = some bytes) :
    host'.publication.receipts.get? stem = some bytes := by
  refine Runs.reflTransGen_preserves (P := fun host : PromotionHost sha256 =>
    host.publication.receipts.get? stem = some bytes) ?_ hrun hget
  intro before after hstep hold
  cases hstep with
  | published _ promotedAt wall probe halt? =>
    exact (publish_change promotedAt wall probe halt?).receipt_kept hold
  | _ => exact hold

/-- **A candidate is published once.** When a promotion has returned a receipt, no later promotion of
the candidate changes what is published, wherever it stops, and what it returns is that receipt. -/
theorem promote_once {candidateDigest : String} {turn : PromotionTurn} {publication : Publication}
    {receipt : PromotionReceipt}
    (hfirst : promoter.promote sha256 host.stores candidateDigest turn host.publication
      = (publication, .ok receipt))
    (hrun : Relation.ReflTransGen (HostStep promoter) { host with publication := publication } host')
    (turn' : PromotionTurn) :
    (promoter.promote sha256 host'.stores candidateDigest turn' host'.publication).1.receipts
        = host'.publication.receipts ∧
      (promoter.promote sha256 host'.stores candidateDigest turn' host'.publication).1.inboxes
        = host'.publication.inboxes ∧
      ∀ receipt', (promoter.promote sha256 host'.stores candidateDigest turn' host'.publication).2
        = .ok receipt' → receipt'.payload = receipt.payload := by
  have hon : ∀ {stores : HostStores sha256} {current probe auth},
      promoter.authorize sha256 stores candidateDigest current probe = .ok auth →
        auth.candidateDigest.val = candidateDigest := by
    intro stores current probe auth hauth
    obtain ⟨decisions, -, hon, -⟩ := (authorize_eq_ok.mp hauth).1.read
    exact (mem_decisionsOn.mp (hon ▸ List.mem_singleton_self _)).2.2
  unfold Promoter.promote at hfirst
  split at hfirst
  · cases hfirst
  · rename_i auth hauth
    obtain ⟨-, -, hget, hcandidate⟩ := receipted_of_publish hfirst
    have hget' := receipt_kept hrun hget
    unfold Promoter.promote
    split
    · exact ⟨rfl, rfl, fun receipt' h => by cases h⟩
    · rename_i auth' hauth'
      have hsame : auth.candidateDigest = auth'.candidateDigest :=
        Subtype.ext ((hon hauth).trans (hon hauth').symm)
      rw [hsame] at hget' hcandidate
      obtain ⟨hreceipts, hinboxes⟩ := publish_again sha256 promoter.parsers.receipt
        (timestamp turn'.current) turn'.wall turn'.finalProbe turn'.halt? hget' hcandidate
      refine ⟨hreceipts, hinboxes, fun receipt' h => ?_⟩
      obtain ⟨-, -, hget'', -⟩ := receipted_of_publish (Prod.ext rfl h)
      rw [hreceipts, hget', Option.some.injEq] at hget''
      exact hget''.symm

/-- The promotion of the sample. -/
theorem promote_ready {store : ArtifactStore} {envelope : QuarantineEnvelope}
    {manifest : ArtifactManifest} {payload : Bytes} {validation : DeterministicValidationReport}
    {canary : CanaryReport} {candidate : ExecutionCandidate}
    (h : Recorded zeroHash cleanLoads (readyBridge store) readyTurn (digestOf 0) envelope (digestOf 0)
      manifest payload validation canary candidate) :
    ∃ publication receipt, (readyPromoter envelope validation canary candidate).promote zeroHash
      (readyHost store validation canary candidate).stores (digestOf 0)
      ⟨cleanWorld.started, 0, some candidate.targetHashes, some candidate.targetHashes, none⟩
      (readyHost store validation canary candidate).publication = (publication, .ok receipt) := by
  have hlength : payload.length ≤ 2048 := by
    rw [(buildValidationReport_iff.mp ⟨_, h.validation_built⟩).1.payload_size]
    exact manifest.payloadSizeBytes.2.2
  have hauth : (readyPromoter envelope validation canary candidate).authorize zeroHash
      (readyHost store validation canary candidate).stores (digestOf 0) cleanWorld.started
      (some candidate.targetHashes) = .ok (readyAuthorization candidate payload) :=
    authorize_ready h cleanWorld.started
  have hreceipted : Receipted zeroHash
      (readyPromoter envelope validation canary candidate).parsers.receipt
      (readyAuthorization candidate payload) (timestamp cleanWorld.started)
      (some candidate.targetHashes) (readyHost store validation canary candidate).publication
      ((readyAuthorization candidate payload).receipt zeroHash (timestamp cleanWorld.started)) := by
    refine .made ⟨[], rfl, fun _ hreceipt => absurd hreceipt List.not_mem_nil⟩ rfl rfl ?_ ?_
    · exact checkSeed_eq_ok.mpr ⟨hlength, rfl⟩
    · intro existing hget
      cases hget
  have hlock : acquireLock 0 (readyHost store validation canary candidate).publication.lock
      = .ok () := rfl
  have hpublish := publish_of_receipted hlock hreceipted
  unfold Promoter.promote
  dsimp only
  rw [hauth]
  exact ⟨_, _, Prod.ext rfl hpublish⟩

theorem promote_once_ready : ∃ (promoter : Promoter) (host : PromotionHost zeroHash)
    (turn : PromotionTurn) (publication : Publication) (receipt : PromotionReceipt),
    promoter.promote zeroHash host.stores (digestOf 0) turn host.publication
        = (publication, .ok receipt) ∧
      ∀ turn', (promoter.promote zeroHash host.stores (digestOf 0) turn' publication).1.receipts
        = publication.receipts := by
  obtain ⟨store, envelope, manifest, payload, validation, canary, candidate, hrecorded, -⟩ :=
    recorded_ready
  obtain ⟨publication, receipt, hfirst⟩ := promote_ready hrecorded
  exact ⟨_, _, _, publication, receipt, hfirst, fun turn' => (promote_once hfirst .refl turn').1⟩

/-! ## When a promotion succeeds -/

/-- The seed that an authorization publishes is the stored payload of its artifact. -/
theorem Warranted.payload_stored {stores : HostStores sha256} {auth : Authorization}
    (h : Warranted promoter stores auth) :
    stores.artifacts.payloads.get? auth.candidate.artifactDigest = some auth.payload ∧
      auth.payload.length ≤ 2048 := by
  obtain ⟨validation, canary, manifest, envelope, hreproduces⟩ :=
    reproduce_eq_ok.mp h.authorizes.reproduced
  obtain ⟨-, -, -, -, hartifact, -⟩ := of_buildExecutionCandidate hreproduces.candidate_rebuilt
  have hget := hreproduces.payload_stored
  unfold ArtifactStore.getPayload at hget
  rw [hartifact]
  split at hget
  · cases hget
  · rename_i payload hpayload
    split at hget
    · cases hget
    · split at hget
      · cases hget
      · rename_i hsize
        cases hget
        exact ⟨hpayload, (not_not.mp hsize).trans_le manifest.payloadSizeBytes.2.2⟩

/-- Authorizations on one candidate are about one artifact and one destination. -/
theorem Warranted.candidate_eq {stores : HostStores sha256} {auth other : Authorization}
    (h : Warranted promoter stores auth) (h' : Warranted promoter stores other)
    (hdigest : auth.candidateDigest = other.candidateDigest) :
    auth.candidate = other.candidate ∧ auth.spec = other.spec := by
  have hstored := h.authorizes.stored
  rw [hdigest, h'.authorizes.stored, Except.ok.injEq] at hstored
  obtain ⟨_, _, _, _, hreproduces⟩ := reproduce_eq_ok.mp h.authorizes.reproduced
  obtain ⟨_, _, _, _, hreproduces'⟩ := reproduce_eq_ok.mp h'.authorizes.reproduced
  have hspec := hreproduces.destination
  rw [← hstored, hreproduces'.destination, Option.some.injEq] at hspec
  exact ⟨hstored.symm, hspec.symm⟩

/-- When a publication ends with a receipt, in a state of a run. -/
theorem Promotes.receipted_iff (h : Promotes promoter host) {auth : Authorization}
    (hauth : Warranted promoter host.stores auth) (promotedAt : Timestamp)
    (probe : Option TargetHashes) :
    (∃ receipt, Receipted sha256 promoter.parsers.receipt auth promotedAt probe host.publication
        receipt) ↔
      AllWhole promoter.parsers.receipt host.publication.receipts ∧
      ((∃ bytes, host.publication.receipts.get? (stemOf auth.candidateDigest) = some bytes) ∨
        probe = some auth.candidate.targetHashes ∧
        (∃ inbox, host.publication.inboxes auth.spec.inbox = some inbox) ∧
        ∀ stem bytes receipt, host.publication.receipts.get? stem = some bytes →
          readReceipt promoter.parsers.receipt stem bytes = .ok receipt →
          ¬ (receipt.destinationId = auth.spec.destinationId ∧
            receipt.artifactDigest = auth.candidate.artifactDigest.val)) := by
  constructor
  · rintro ⟨receipt, hreceipted⟩
    cases hreceipted with
    | found hread hfound =>
      exact ⟨allWhole_iff.mpr ⟨_, hread⟩, .inl ⟨_, (get?_of_existingReceipt hread hfound).1⟩⟩
    | made hclear hprobe hinbox hseed hstem =>
      obtain ⟨receipts, hread, hnone⟩ := hclear
      refine ⟨allWhole_iff.mpr ⟨receipts, hread⟩, .inr ⟨hprobe, ⟨_, hinbox⟩, ?_⟩⟩
      intro stem bytes receipt hget hreceipt
      exact (hnone receipt ((mem_of_readReceipts hread).mpr ⟨stem, bytes, hget, hreceipt⟩)).2
  · rintro ⟨hwhole, hcases⟩
    obtain ⟨receipts, hread⟩ := allWhole_iff.mp hwhole
    by_cases hpublished : ∃ bytes,
        host.publication.receipts.get? (stemOf auth.candidateDigest) = some bytes
    · obtain ⟨bytes, hget⟩ := hpublished
      obtain ⟨found, hfound⟩ := hwhole _ _ hget
      obtain ⟨other, otherTime, hother, hstem, hbytes, -⟩ := h.sound.receipts _ _ hget
      have hdigest := stemOf_injective hstem
      obtain ⟨hcandidate, hspec⟩ := hauth.candidate_eq hother hdigest
      obtain ⟨-, hfoundCandidate, hfoundDestination, hfoundArtifact⟩ :=
        readReceipt_of_torn hbytes hfound
      have hmem := (mem_of_readReceipts hread).mpr ⟨_, _, hget, hfound⟩
      have hsame : found.candidateDigest = auth.candidateDigest.val := by
        rw [hfoundCandidate, hdigest]
        rfl
      -- Another receipt on the artifact would be in the same file.
      have hclear : ∀ receipt ∈ receipts, ¬ Conflicts auth receipt := by
        rintro receipt hreceipt ⟨hne, hdestination, hartifact⟩
        obtain ⟨stem, bytes', hget', hreceipt⟩ := (mem_of_readReceipts hread).mp hreceipt
        have heq := h.orderly.distinct hget' hreceipt hget hfound
          (hdestination.trans (by rw [hfoundDestination, hspec]; rfl))
          (hartifact.trans (by rw [hfoundArtifact, hcandidate]; rfl))
        subst heq
        rw [hget, Option.some.injEq] at hget'
        rw [← hget', hfound, Except.ok.injEq] at hreceipt
        exact hne (hreceipt ▸ hsame)
      obtain ⟨receipt, hexisting⟩ := existingReceipt_of_mem hmem hsame hclear
      exact ⟨receipt, .found hread hexisting⟩
    · rcases hcases with hget | ⟨hprobe, ⟨inbox, hinbox⟩, hnone⟩
      · exact absurd hget hpublished
      · refine ⟨_, .made ⟨receipts, hread, ?_⟩ hprobe hinbox ?_ ?_⟩
        · intro receipt hreceipt
          obtain ⟨stem, bytes, hget, hreceipt⟩ := (mem_of_readReceipts hread).mp hreceipt
          refine ⟨fun hsame => hpublished ⟨bytes, ?_⟩, hnone stem bytes receipt hget hreceipt⟩
          obtain ⟨-, -, -, hstem⟩ := readReceipt_eq_ok.mp hreceipt
          have heq : stem = stemOf auth.candidateDigest := by
            refine Subtype.ext (hstem.trans ?_)
            rw [hsame]
            rfl
          rwa [← heq]
        · obtain ⟨hstored, hlength⟩ := hauth.payload_stored
          unfold publishSeed
          cases hget : inbox.get? auth.candidate.artifactDigest with
          | none => exact checkSeed_eq_ok.mpr ⟨hlength, rfl⟩
          | some visible =>
            have hseed : host.publication.seed? auth.spec.inbox auth.candidate.artifactDigest
                = some visible := by
              rw [Publication.seed?, hinbox, Option.bind_some, hget]
            obtain ⟨other, hother, -, hartifact, hpayload⟩ := h.sound.seeds _ _ _ hseed
            have hstored' := hother.payload_stored.1
            rw [← hartifact, hstored, Option.some.injEq] at hstored'
            exact checkSeed_eq_ok.mpr
              ⟨by rw [hpayload, ← hstored']; exact hlength, by rw [hpayload, hstored']⟩
        · intro existing hget
          exact absurd ⟨existing, hget⟩ hpublished

/-- **When a promotion succeeds.** In a state of a run, a promotion that nothing stops returns a
receipt exactly when the candidate is authorized, the lock is free or stale, every receipt can be read,
and either the candidate has a receipt already, or its artifact has none at the destination, the
targets have not drifted and the inbox is there. -/
theorem promote_isOk_iff (h : Promotes promoter host) (candidateDigest : String)
    (turn : PromotionTurn) (hhalt : turn.halt? = none) :
    (∃ receipt, (promoter.promote sha256 host.stores candidateDigest turn host.publication).2
        = .ok receipt) ↔
      ∃ auth, promoter.authorize sha256 host.stores candidateDigest turn.current turn.probe = .ok auth ∧
        acquireLock turn.wall host.publication.lock = .ok () ∧
        AllWhole promoter.parsers.receipt host.publication.receipts ∧
        ((∃ bytes, host.publication.receipts.get? (stemOf auth.candidateDigest) = some bytes) ∨
          turn.finalProbe = some auth.candidate.targetHashes ∧
          (∃ inbox, host.publication.inboxes auth.spec.inbox = some inbox) ∧
          ∀ stem bytes receipt, host.publication.receipts.get? stem = some bytes →
            readReceipt promoter.parsers.receipt stem bytes = .ok receipt →
            ¬ (receipt.destinationId = auth.spec.destinationId ∧
              receipt.artifactDigest = auth.candidate.artifactDigest.val)) := by
  unfold Promoter.promote
  cases hauth : promoter.authorize sha256 host.stores candidateDigest turn.current turn.probe with
  | error error => simp
  | ok auth =>
    have hreceipted := h.receipted_iff (h.sound.warranted hauth) (timestamp turn.current)
      turn.finalProbe
    simp only [Except.ok.injEq, exists_eq_left', hhalt]
    rw [← hreceipted]
    constructor
    · rintro ⟨receipt, hok⟩
      obtain ⟨hlock, hreceipt, -⟩ := receipted_of_publish (Prod.ext rfl hok)
      exact ⟨hlock, receipt, hreceipt⟩
    · rintro ⟨hlock, receipt, hreceipt⟩
      exact ⟨receipt, publish_of_receipted hlock hreceipt⟩

theorem promote_isOk_ready : ∃ (promoter : Promoter) (host : PromotionHost zeroHash)
    (turn : PromotionTurn) (receipt : PromotionReceipt),
    (promoter.promote zeroHash host.stores (digestOf 0) turn host.publication).2 = .ok receipt := by
  obtain ⟨store, envelope, manifest, payload, validation, canary, candidate, hrecorded, -⟩ :=
    recorded_ready
  have hauth := authorize_ready hrecorded cleanWorld.started
  have hready : Promotes (readyPromoter envelope validation canary candidate)
      (readyHost store validation canary candidate) := promotes_ready
  refine ⟨_, _, _, (promote_isOk_iff hready (digestOf 0) ⟨cleanWorld.started, 0,
    some candidate.targetHashes, some candidate.targetHashes, none⟩ rfl).mpr
      ⟨_, hauth, rfl, ?_, .inr ⟨rfl, ⟨_, rfl⟩, ?_⟩⟩⟩
  · intro stem bytes hget
    cases hget
  · intro stem bytes receipt hget
    cases hget

end IouAi.Authority
