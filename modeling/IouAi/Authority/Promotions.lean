import IouAi.Authority.Publication
import IouAi.Authority.Readiness
import IouAi.Authority.Scan
import IouAi.Foundations.Runs

/-!
# Promotions

A host on which stores grow, decisions are imported and promoters run, in any order: a promoter looks
at the stores first (`authorize`) and publishes later (`publish`), and anything may happen in between.
What is in an inbox has been approved on the challenge of its event, canaried and validated, and
everything that says so is still there (`seed_approved`). A candidate and an artifact at a destination
have one receipt (`receipts_distinct`). A receipt that was not written to its end stops every later
promotion (`torn_receipt_stops`).
-/

namespace IouAi.Authority

open Calendar Checks Wire

variable {sha256 : Sha256}

/-! ## Stores grow -/

/-- Everything in the stores is in the others. -/
structure HostStores.Within (stores other : HostStores sha256) : Prop where
  events : stores.events <+: other.events
  decisions : ∀ {digest signed}, stores.decisions.get? digest = some signed →
    other.decisions.get? digest = some signed
  quarantine : ∀ {digest bytes}, stores.quarantine.get? digest = some bytes →
    other.quarantine.get? digest = some bytes
  artifacts : stores.artifacts.Within other.artifacts
  validations : ∀ {digest bytes}, stores.validations.get? digest = some bytes →
    other.validations.get? digest = some bytes
  reports : ∀ {digest bytes}, stores.reports.get? digest = some bytes →
    other.reports.get? digest = some bytes
  candidates : ∀ {digest bytes}, stores.candidates.get? digest = some bytes →
    other.candidates.get? digest = some bytes

theorem HostStores.Within.refl (stores : HostStores sha256) : stores.Within stores :=
  ⟨List.prefix_rfl, id, id, .refl _, id, id, id⟩

theorem HostStores.Within.trans {stores other third : HostStores sha256} (h : stores.Within other)
    (h' : other.Within third) : stores.Within third where
  events := h.events.trans h'.events
  decisions hget := h'.decisions (h.decisions hget)
  quarantine hget := h'.quarantine (h.quarantine hget)
  artifacts := h.artifacts.trans h'.artifacts
  validations hget := h'.validations (h.validations hget)
  reports hget := h'.reports (h.reports hget)
  candidates hget := h'.candidates (h.candidates hget)

section Within

variable {promoter : Promoter} {stores other : HostStores sha256}

/-- The event under a digest stays the first one under it. -/
theorem findEvent_of_prefix {outbox outbox' : Outbox sha256} (h : outbox <+: outbox') {digest : Digest}
    {event : ApprovalEvent sha256} (hfind : findEvent outbox digest = .ok event) :
    findEvent outbox' digest = .ok event := by
  obtain ⟨rest, rfl⟩ := h
  unfold findEvent at hfind ⊢
  rw [List.filterMap_append, List.find?_append]
  cases hfound : (outbox.filterMap approvalEvent?).find? fun event => event.digest = digest with
  | none =>
    rw [hfound] at hfind
    cases hfind
  | some found =>
    rw [hfound] at hfind
    exact hfind

theorem getAuthority_grows {α : Type} {model : Storage.AuthorityModel α}
    {objects objects' : Archive Digest Bytes}
    (h : ∀ {digest bytes}, objects.get? digest = some bytes → objects'.get? digest = some bytes)
    {digest : Digest} {value : α} (hget : Promoter.getAuthority sha256 model objects digest = .ok value) :
    Promoter.getAuthority sha256 model objects' digest = .ok value := by
  cases hbytes : objects.get? digest with
  | none =>
    rw [Promoter.getAuthority, hbytes] at hget
    cases hget
  | some bytes =>
    rw [Promoter.getAuthority, hbytes] at hget
    rw [Promoter.getAuthority, h hbytes]
    exact hget

theorem loadEnvelope_grows {quarantine quarantine' : Storage.Quarantine}
    (h : ∀ {digest bytes}, quarantine.get? digest = some bytes →
      quarantine'.get? digest = some bytes) {loads : Bytes → Option Json}
    {parseEnvelope : Storage.QuarantineStore.Envelope → Option QuarantineEnvelope} {digest : Digest}
    {envelope : QuarantineEnvelope}
    (hload : loadEnvelope sha256 loads parseEnvelope quarantine digest = .ok envelope) :
    loadEnvelope sha256 loads parseEnvelope quarantine' digest = .ok envelope := by
  unfold loadEnvelope Storage.QuarantineStore.get at hload ⊢
  cases hfound : quarantine.get? digest with
  | none =>
    rw [hfound] at hload
    simp [Storage.QuarantineStore.decode] at hload
  | some bytes =>
    rw [hfound] at hload
    rw [h hfound]
    exact hload

theorem Reproduces.grows {candidate : ExecutionCandidate} {spec : DestinationSpec} {payload : Bytes}
    {validation : DeterministicValidationReport} {canary : CanaryReport} {manifest : ArtifactManifest}
    {envelope : QuarantineEnvelope} (hwithin : stores.Within other)
    (h : Reproduces promoter stores candidate spec payload validation canary manifest envelope) :
    Reproduces promoter other candidate spec payload validation canary manifest envelope where
  validation_stored := getAuthority_grows hwithin.validations h.validation_stored
  canary_stored := getAuthority_grows hwithin.reports h.canary_stored
  manifest_stored := getManifest_grows hwithin.artifacts h.manifest_stored
  payload_stored := getPayload_grows hwithin.artifacts h.payload_stored
  envelope_stored := loadEnvelope_grows hwithin.quarantine h.envelope_stored
  validation_rebuilt := h.validation_rebuilt
  destination := h.destination
  scope := h.scope
  candidate_rebuilt := h.candidate_rebuilt

theorem Authorizes.grows {auth : Authorization} (hwithin : stores.Within other)
    (h : Authorizes promoter stores auth) : Authorizes promoter other auth where
  stored := getAuthority_grows hwithin.candidates h.stored
  matched := h.matched
  reproduced := by
    obtain ⟨validation, canary, manifest, envelope, hreproduces⟩ := reproduce_eq_ok.mp h.reproduced
    exact reproduce_eq_ok.mpr ⟨_, _, _, _, hreproduces.grows hwithin⟩

end Within

/-! ## Decisions of the archive -/

/-- A decision that was imported agrees with its event, and came in time. -/
def Decided (events : Outbox sha256) (signed : SignedDecision) : Prop :=
  ∃ event current, findEvent events signed.eventDigest = .ok event ∧ Agrees event signed.decision ∧
    InWindow event signed.decision current

theorem Decided.grows {events events' : Outbox sha256} (h : events <+: events')
    {signed : SignedDecision} (hdecided : Decided events signed) : Decided events' signed := by
  obtain ⟨event, current, hfind, hagrees, hwindow⟩ := hdecided
  exact ⟨event, current, findEvent_of_prefix h hfind, hagrees, hwindow⟩

/-- What a new decision has passed before it is stored. -/
structure Accepted (hmac : HmacSha256) (key : VerificationKey) (outbox : Outbox sha256)
    (archive : DecisionArchive) (signed : SignedDecision) : Prop where
  verified : verifySignature hmac key signed
  decided : Decided outbox signed
  first : ∀ digest existing, archive.get? digest = some existing →
    existing.eventDigest ≠ signed.eventDigest

/-- What an import leaves: the archive as it was, or with a new decision. -/
theorem importSigned_eq_ok {hmac : HmacSha256} {key : VerificationKey} {outbox : Outbox sha256}
    {archive archive' : DecisionArchive} {signed : SignedDecision} {current : Datetime}
    (h : importSigned sha256 hmac key outbox archive signed current = .ok archive') :
    archive' = archive ∨ Accepted hmac key outbox archive signed ∧
      archive.put (decisionFileDigest sha256 signed) signed = some archive' := by
  simp only [importSigned, bind_eq_ok, raiseIf_eq_ok, not_not, exists_const] at h
  obtain ⟨hverify, decisions, hread, known, hscan, h⟩ := h
  cases known with
  | true =>
    cases h
    exact .inl rfl
  | false =>
    simp only [Bool.false_eq_true, if_false, bind_eq_ok] at h
    obtain ⟨u, hcheck, h⟩ := h
    cases hput : archive.put (decisionFileDigest sha256 signed) signed with
    | none => simp [hput] at h
    | some stored =>
      simp only [hput, pure_eq_ok] at h
      subst h
      refine .inr ⟨⟨hverify, ?_, ?_⟩, rfl⟩
      · simp only [checkDecision, bind_eq_ok] at hcheck
        obtain ⟨event, hfind, _, hbinding, hwindow⟩ := hcheck
        exact ⟨event, current, hfind, checkBinding_eq_ok.mp hbinding, checkWindow_eq_ok.mp hwindow⟩
      · intro digest existing hget hevent
        have hmem := (mem_of_readArchive hread).mpr ⟨digest, Archive.get?_eq_some.mp hget⟩
        unfold scanDecisions at hscan
        split at hscan
        · rename_i hnone
          simpa [hevent] using List.find?_eq_none.mp hnone existing hmem
        · split at hscan <;> cases hscan

/-! ## The host -/

variable (sha256) in
/-- The stores of the host, what is published, and the promoters that have passed their checks and
have not published yet. -/
structure PromotionHost where
  stores : HostStores sha256
  publication : Publication
  pending : List Authorization

/-- The steps of the host. Stores take in more, decisions are imported, inboxes are created, and a
promoter passes its checks and publishes. -/
inductive HostStep (promoter : Promoter) : PromotionHost sha256 → PromotionHost sha256 → Prop
  | stored {host : PromotionHost sha256} {stores : HostStores sha256}
      (hwithin : host.stores.Within stores) (hdecisions : stores.decisions = host.stores.decisions) :
      HostStep promoter host { host with stores := stores }
  | imported {host : PromotionHost sha256} {signed : SignedDecision} {current : Datetime}
      {archive : DecisionArchive}
      (h : importSigned sha256 promoter.hmac promoter.key host.stores.events host.stores.decisions
        signed current = .ok archive) :
      HostStep promoter host { host with stores := { host.stores with decisions := archive } }
  | opened {host : PromotionHost sha256} {inbox : String}
      (h : host.publication.inboxes inbox = none) :
      HostStep promoter host { host with publication := { host.publication with
        inboxes := Function.update host.publication.inboxes inbox (some .empty) } }
  | authorized {host : PromotionHost sha256} {candidateDigest : String} {current : Datetime}
      {probe : Option TargetHashes} {auth : Authorization}
      (h : promoter.authorize sha256 host.stores candidateDigest current probe = .ok auth) :
      HostStep promoter host { host with pending := auth :: host.pending }
  | published {host : PromotionHost sha256} {auth : Authorization} {before after : List Authorization}
      (h : host.pending = before ++ auth :: after) (promotedAt : Timestamp) (wall : ℕ)
      (probe : Option TargetHashes) (halt? : Option (Fault × Moment)) :
      HostStep promoter host { host with
        publication := (publish sha256 promoter.parsers.receipt auth promotedAt wall probe halt?
          host.publication).1
        pending := before ++ after }

/-- Nothing is decided and nothing is published. -/
structure PromotionHost.Fresh (host : PromotionHost sha256) : Prop where
  decisions : host.stores.decisions = .empty
  inboxes : ∀ inbox seeds, host.publication.inboxes inbox = some seeds → seeds = .empty
  receipts : host.publication.receipts = .empty
  pending : host.pending = []

/-- The states of runs that begin with nothing published. -/
def Promotes (promoter : Promoter) (host : PromotionHost sha256) : Prop :=
  ∃ start : PromotionHost sha256, start.Fresh ∧ Relation.ReflTransGen (HostStep promoter) start host

/-! ## What stands behind a seed -/

/-- The authorization rests on an archived approval and on records that are there. -/
structure Warranted (promoter : Promoter) (stores : HostStores sha256) (auth : Authorization) :
    Prop where
  archived : ∃ digest, stores.decisions.get? digest = some auth.signed
  verified : verifySignature promoter.hmac promoter.key auth.signed
  decision : auth.signed.decision = .execution auth.decision
  action : auth.decision.action = .approveForLiveExecution
  decided : ∃ ready current, findEvent stores.events auth.signed.eventDigest = .ok (.execution ready) ∧
    Agrees (.execution ready) auth.signed.decision ∧
    InWindow (.execution ready) auth.signed.decision current
  authorizes : Authorizes promoter stores auth

theorem Warranted.grows {promoter : Promoter} {stores other : HostStores sha256}
    {auth : Authorization} (hwithin : stores.Within other) (h : Warranted promoter stores auth) :
    Warranted promoter other auth where
  archived := h.archived.imp fun _ hget => hwithin.decisions hget
  verified := h.verified
  decision := h.decision
  action := h.action
  decided := by
    obtain ⟨ready, current, hfind, hagrees⟩ := h.decided
    exact ⟨ready, current, findEvent_of_prefix hwithin.events hfind, hagrees⟩
  authorizes := h.authorizes.grows hwithin

/-- The seed is that of a warranted authorization. -/
def SeedOf (promoter : Promoter) (stores : HostStores sha256) (inbox : String) (digest : Digest)
    (payload : Bytes) : Prop :=
  ∃ auth, Warranted promoter stores auth ∧ inbox = auth.spec.inbox ∧
    digest = auth.candidate.artifactDigest ∧ payload = auth.payload

/-- The file is the beginning of the receipt of a warranted authorization, and its seed is there. -/
def ReceiptOf (promoter : Promoter) (stores : HostStores sha256) (publication : Publication)
    (stem : Nonce256) (bytes : Bytes) : Prop :=
  ∃ auth promotedAt, Warranted promoter stores auth ∧ stem = stemOf auth.candidateDigest ∧
    bytes <+: (auth.receipt sha256 promotedAt).payload ∧
    publication.seed? auth.spec.inbox auth.candidate.artifactDigest = some auth.payload

/-- A new inbox holds no seed. -/
theorem seed?_opened {publication : Publication} {inbox : String}
    (h : publication.inboxes inbox = none) :
    Publication.seed? { publication with
      inboxes := Function.update publication.inboxes inbox (some .empty) } = publication.seed? := by
  funext name digest
  by_cases hname : name = inbox
  · subst hname
    simp only [Publication.seed?, Function.update_self, h, Option.bind_some, Option.bind_none]
    rfl
  · simp only [Publication.seed?, Function.update_of_ne hname]

section Runs

variable {promoter : Promoter} {host host' : PromotionHost sha256}

theorem SeedOf.grows {stores other : HostStores sha256} (hwithin : stores.Within other)
    {inbox : String} {digest : Digest} {payload : Bytes}
    (h : SeedOf promoter stores inbox digest payload) : SeedOf promoter other inbox digest payload := by
  obtain ⟨auth, hwarranted, hseed⟩ := h
  exact ⟨auth, hwarranted.grows hwithin, hseed⟩

theorem ReceiptOf.grows {stores other : HostStores sha256} (hwithin : stores.Within other)
    {publication publication' : Publication}
    (hkept : ∀ inbox digest payload, publication.seed? inbox digest = some payload →
      publication'.seed? inbox digest = some payload) {stem : Nonce256} {bytes : Bytes}
    (h : ReceiptOf promoter stores publication stem bytes) :
    ReceiptOf promoter other publication' stem bytes := by
  obtain ⟨auth, promotedAt, hwarranted, hstem, hbytes, hseed⟩ := h
  exact ⟨auth, promotedAt, hwarranted.grows hwithin, hstem, hbytes, hkept _ _ _ hseed⟩

/-- A step only adds to the stores. -/
theorem HostStep.within (h : HostStep promoter host host') : host.stores.Within host'.stores := by
  cases h with
  | stored hwithin hdecisions => exact hwithin
  | @imported signed current archive himport =>
    refine ⟨List.prefix_rfl, ?_, id, .refl _, id, id, id⟩
    intro digest other hget
    rcases importSigned_eq_ok himport with rfl | ⟨-, hput⟩
    · exact hget
    · exact Archive.get?_of_put hput hget
  | opened => exact .refl _
  | authorized => exact .refl _
  | published => exact .refl _

theorem within_of_steps (h : Relation.ReflTransGen (HostStep promoter) host host') :
    host.stores.Within host'.stores := by
  induction h with
  | refl => exact .refl _
  | tail _ hstep ih => exact ih.trans hstep.within

/-- What holds in every state. -/
structure PromotionHost.Sound (promoter : Promoter) (host : PromotionHost sha256) : Prop where
  decisions : ∀ digest signed, host.stores.decisions.get? digest = some signed →
    Decided host.stores.events signed
  pending : ∀ auth ∈ host.pending, Warranted promoter host.stores auth
  seeds : ∀ inbox digest payload, host.publication.seed? inbox digest = some payload →
    SeedOf promoter host.stores inbox digest payload
  receipts : ∀ stem bytes, host.publication.receipts.get? stem = some bytes →
    ReceiptOf promoter host.stores host.publication stem bytes

theorem PromotionHost.Fresh.sound (h : host.Fresh) : host.Sound promoter where
  decisions := by
    intro digest signed hget
    rw [h.decisions] at hget
    cases hget
  pending := by
    rw [h.pending]
    exact fun auth hauth => absurd hauth List.not_mem_nil
  seeds := by
    intro inbox digest payload hseed
    rw [Publication.seed?] at hseed
    cases hinbox : host.publication.inboxes inbox with
    | none =>
      rw [hinbox] at hseed
      cases hseed
    | some seeds =>
      rw [hinbox, h.inboxes inbox seeds hinbox] at hseed
      cases hseed
  receipts := by
    intro stem bytes hget
    rw [h.receipts] at hget
    cases hget

/-- What a promoter finds is warranted, because the archive holds imported decisions only. -/
theorem PromotionHost.Sound.warranted (h : host.Sound promoter) {candidateDigest : String}
    {current : Datetime} {probe : Option TargetHashes} {auth : Authorization}
    (hauth : promoter.authorize sha256 host.stores candidateDigest current probe = .ok auth) :
    Warranted promoter host.stores auth := by
  obtain ⟨happroves, hauthorizes, -⟩ := authorize_eq_ok.mp hauth
  obtain ⟨decisions, hread, hon, -⟩ := happroves.read
  obtain ⟨hmem, hdecision, -⟩ := mem_decisionsOn.mp (hon ▸ List.mem_singleton_self _)
  obtain ⟨digest, hentry⟩ := (mem_of_readArchive hread).mp hmem
  have hget := Archive.get?_eq_some.mpr hentry
  obtain ⟨event, time, hfind, hagrees, hwindow⟩ := h.decisions digest auth.signed hget
  have hkind := hagrees.kind
  rw [hdecision] at hkind
  refine ⟨⟨digest, hget⟩, ((readArchive_eq_ok.mp hread).1 _ hentry).2, hdecision, happroves.action,
    ?_, hauthorizes⟩
  cases hkind with
  | execution ready decision => exact ⟨ready, time, hfind, hagrees, hwindow⟩

/-- What stands behind a seed stays when the stores grow and the seeds are kept. -/
theorem PromotionHost.Sound.of_kept (h : host.Sound promoter)
    (hwithin : host.stores.Within host'.stores)
    (hdecisions : ∀ digest signed, host'.stores.decisions.get? digest = some signed →
      Decided host'.stores.events signed)
    (hpending : ∀ auth ∈ host'.pending, auth ∈ host.pending ∨ Warranted promoter host'.stores auth)
    (hseed : host'.publication.seed? = host.publication.seed?)
    (hreceipts : host'.publication.receipts = host.publication.receipts) :
    host'.Sound promoter where
  decisions := hdecisions
  pending auth hauth := (hpending auth hauth).elim
    (fun hold => (h.pending auth hold).grows hwithin) id
  seeds inbox digest payload hget := by
    rw [hseed] at hget
    exact (h.seeds inbox digest payload hget).grows hwithin
  receipts stem bytes hget := by
    rw [hreceipts] at hget
    exact (h.receipts stem bytes hget).grows hwithin fun _ _ _ hold => by rwa [hseed]

theorem PromotionHost.Sound.step (h : host.Sound promoter) (hstep : HostStep promoter host host') :
    host'.Sound promoter := by
  have hwithin := hstep.within
  cases hstep with
  | @stored stores _ hdecisions =>
    refine h.of_kept hwithin ?_ (fun auth hauth => .inl hauth) rfl rfl
    intro digest signed hget
    rw [hdecisions] at hget
    exact (h.decisions digest signed hget).grows hwithin.events
  | @imported signed current archive himport =>
    refine h.of_kept hwithin ?_ (fun auth hauth => .inl hauth) rfl rfl
    intro digest other hget
    rcases importSigned_eq_ok himport with rfl | ⟨haccepted, hput⟩
    · exact h.decisions digest other hget
    · rcases Archive.entries_of_put hput with ⟨-, hentries⟩ | ⟨-, rfl⟩
      · have hmem := Archive.get?_eq_some.mp hget
        simp only [hentries, List.mem_append, List.mem_singleton, Prod.mk.injEq] at hmem
        rcases hmem with hold | ⟨-, rfl⟩
        · exact h.decisions digest other (Archive.get?_eq_some.mpr hold)
        · exact haccepted.decided
      · exact h.decisions digest other hget
  | @opened inbox hnone =>
    exact h.of_kept hwithin h.decisions (fun auth hauth => .inl hauth) (seed?_opened hnone) rfl
  | @authorized candidateDigest current probe auth hauth =>
    refine h.of_kept hwithin h.decisions ?_ rfl rfl
    intro other hother
    rcases List.mem_cons.mp hother with rfl | hother
    · exact .inr (h.warranted hauth)
    · exact .inl hother
  | @published auth before after hpending promotedAt wall probe halt? =>
    have hchange : Change sha256 promoter.parsers.receipt auth promotedAt host.publication
        (publish sha256 promoter.parsers.receipt auth promotedAt wall probe halt?
          host.publication).1 := publish_change promotedAt wall probe halt?
    have hwarranted := h.pending auth (by simp [hpending])
    generalize (publish sha256 promoter.parsers.receipt auth promotedAt wall probe halt?
      host.publication).1 = publication' at hchange
    constructor
    · exact h.decisions
    · intro other hother
      refine h.pending other ?_
      rw [hpending]
      rcases List.mem_append.mp hother with hother | hother
      · exact List.mem_append_left _ hother
      · exact List.mem_append_right _ (List.mem_cons_of_mem _ hother)
    · intro inbox digest payload hget
      rcases hchange.seeds inbox digest payload hget with hold | hnew
      · exact h.seeds inbox digest payload hold
      · exact ⟨auth, hwarranted, hnew⟩
    · intro stem bytes hget
      have hkept : ∀ bytes, host.publication.receipts.get? stem = some bytes →
          ReceiptOf promoter host.stores publication' stem bytes :=
        fun bytes hold => (h.receipts stem bytes hold).grows (.refl _) hchange.kept
      rcases hchange.receipts with hsame | ⟨-, hseed, written, hwritten, hput, -⟩
      · exact hkept bytes (by rw [← hsame]; exact hget)
      · rcases Archive.entries_of_put hput with ⟨-, hentries⟩ | ⟨-, hsame⟩
        · have hmem := Archive.get?_eq_some.mp hget
          simp only [hentries, List.mem_append, List.mem_singleton, Prod.mk.injEq] at hmem
          rcases hmem with hold | ⟨rfl, rfl⟩
          · exact hkept bytes (Archive.get?_eq_some.mpr hold)
          · exact ⟨auth, promotedAt, hwarranted, rfl, hwritten, hseed⟩
        · exact hkept bytes (by rw [← hsame]; exact hget)

theorem Promotes.sound (h : Promotes promoter host) : host.Sound promoter := by
  obtain ⟨start, hfresh, hrun⟩ := h
  exact Runs.reflTransGen_preserves (fun _ _ hstep hsound => hsound.step hstep) hrun hfresh.sound

end Runs

/-! ## A promotion -/

section Ready

def readySpec : DestinationSpec where
  destinationId := .nativeAiSync
  campaignId := "native"
  workerSet := .nativeStable
  inbox := "inbox"
  allowedRunnerHashes := [digestOf 0]
  destination_matches_workers := rfl
  campaignId_ne := by decide
  campaignId_le := by decide
  runners_ne := List.cons_ne_nil _ _

/-- A policy of one destination. -/
def singleDestination (spec : DestinationSpec) : Destinations where
  get? id := if id = spec.destinationId then some spec else none
  consistent id := by
    constructor
    · intro h
      split_ifs at h with hid
      · exact ⟨spec.destinationId, spec, if_pos rfl, hid.symm⟩
      · cases h
    · rintro ⟨key, other, hget, rfl⟩
      split_ifs at hget with hkey
      · cases hget
        rw [if_pos rfl]
        rfl

theorem replicate_length : 32 ≤ (List.replicate 32 (0 : UInt8)).length := by decide

variable (store : ArtifactStore) (envelope : QuarantineEnvelope)
  (validation : DeterministicValidationReport) (canary : CanaryReport)
  (candidate : ExecutionCandidate)

def readyPromoter : Promoter where
  hmac := fun _ _ => Vector.replicate 32 0
  key := ⟨List.replicate 32 0, replicate_length⟩
  parsers :=
    { loads := pairLoads
      envelope := fun _ => some envelope
      validation := fun _ => some validation
      report := fun _ => some canary
      candidate := fun _ => some candidate
      receipt := fun _ => none }
  destinations := singleDestination readySpec

/-- The prompt for the candidate. -/
def readyEvent : ExecutionReadyEvent zeroHash :=
  executionEvent zeroHash cleanWorld.started cleanWorld.finished ⟨digestOf 0, candidate.record⟩
    (Vector.replicate 32 0)

/-- The approval of the candidate. -/
def readyDecision : ExecutionDecision where
  core :=
    { signerId := .operatorLocal
      channel := .operator
      eventDigest := (ApprovalEvent.execution (readyEvent candidate)).digest
      approvalBindingDigest := (readyEvent candidate).approval.bindingDigest
      decisionNonce := (readyEvent candidate).approval.nonce
      humanCode := (readyEvent candidate).approval.humanCode
      senderBinding := digestOf 0
      issuedAt := (readyEvent candidate).createdAt
      expiresAt := (readyEvent candidate).approval.expiresAt }
  binding := (readyEvent candidate).binding
  action := .approveForLiveExecution
  reasonCode := .operatorApprovedLiveExecution

def readySigned : SignedDecision :=
  signDecision (fun _ _ => Vector.replicate 32 0) ⟨List.replicate 32 0, replicate_length⟩
    (.execution (readyDecision candidate))

/-- An archive of one entry. -/
def singleEntry {β : Type} (value : β) : Archive Digest β :=
  ⟨[(digestOf 0, value)], List.nodup_singleton _⟩

theorem get?_singleEntry {β : Type} (value : β) : (singleEntry value).get? (digestOf 0) = some value :=
  Archive.get?_eq_some.mpr List.mem_cons_self

def readyStores (decisions : DecisionArchive) : HostStores zeroHash where
  events := [.executionReady (readyEvent candidate)]
  decisions := decisions
  quarantine := pairQuarantine
  artifacts := store
  validations := singleEntry (canonicalJson validation.toJson)
  reports := singleEntry (canonicalJson canary.val.toJson)
  candidates := singleEntry (canonicalJson candidate.toJson)

variable {store envelope validation canary candidate}

theorem checkDecision_ready (signed : SignedDecision)
    (h : signed.decision = .execution (readyDecision candidate)) :
    checkDecision [.executionReady (readyEvent candidate)] signed cleanWorld.started = .ok () := by
  have hfind : findEvent [.executionReady (readyEvent candidate)] signed.eventDigest
      = .ok (.execution (readyEvent candidate)) := by
    have heq : signed.eventDigest = (ApprovalEvent.execution (readyEvent candidate)).digest := by
      rw [SignedDecision.eventDigest, h]
      rfl
    rw [heq]
    exact findEvent_singleton (.execution (readyEvent candidate))
  have hagrees : Agrees (.execution (readyEvent candidate)) signed.decision := by
    rw [h]
    refine ⟨.execution _ _, rfl, rfl, rfl, rfl, rfl, rfl, ?_, ?_⟩
    · intro human hhuman
      cases hhuman
    · intro ready execution hready hexecution
      cases hready
      cases hexecution
      exact ⟨rfl, rfl⟩
  have hwindow : InWindow (.execution (readyEvent candidate)) signed.decision cleanWorld.started := by
    rw [h]
    refine ⟨_, _, _, ⟨300000000, by decide⟩, instantOf_timestamp cleanWorld.started,
      instantOf_timestamp cleanWorld.finished, instantOf_timestamp cleanWorld.started, ?_, ?_, ?_, ?_,
      ?_⟩ <;> decide +kernel
  exact bind_eq_ok.mpr ⟨_, hfind, bind_eq_ok.mpr ⟨(), checkBinding_eq_ok.mpr hagrees,
    checkWindow_eq_ok.mpr hwindow⟩⟩

/-- The approval is imported. -/
theorem import_ready : importSigned zeroHash (readyPromoter envelope validation canary candidate).hmac
    (readyPromoter envelope validation canary candidate).key
    (readyStores store validation canary candidate .empty).events .empty (readySigned candidate)
    cleanWorld.started = .ok (singleEntry (readySigned candidate)) := by
  unfold importSigned
  refine raiseIf_bind_eq_ok.mpr ⟨not_not.mpr rfl, bind_eq_ok.mpr ⟨[], rfl, ?_⟩⟩
  refine bind_eq_ok.mpr ⟨false, rfl, ?_⟩
  exact bind_eq_ok.mpr ⟨(), checkDecision_ready _ rfl, rfl⟩

/-- The archive is read back. -/
theorem readArchive_ready :
    readArchive zeroHash (readyPromoter envelope validation canary candidate).hmac
      (readyPromoter envelope validation canary candidate).key (singleEntry (readySigned candidate))
      = .ok [readySigned candidate] := by
  refine readArchive_eq_ok.mpr ⟨?_, rfl⟩
  intro entry hentry
  rw [List.mem_singleton.mp hentry]
  exact ⟨rfl, rfl⟩

theorem scanDecisions_head (signed : SignedDecision) (decisions : List SignedDecision) :
    scanDecisions (signed :: decisions) signed = .ok true := by
  unfold scanDecisions
  rw [List.find?_cons_of_pos (by simp)]
  exact if_pos rfl

theorem handed_ready (decisions : DecisionArchive) :
    Handed (readyPromoter envelope validation canary candidate)
      (readyStores store validation canary candidate decisions) (readyBridge store) (digestOf 0)
      envelope validation canary candidate readySpec where
  validation_stored := ⟨get?_singleEntry _, rfl⟩
  canary_stored := ⟨get?_singleEntry _, rfl⟩
  candidate_stored := ⟨get?_singleEntry _, rfl⟩
  artifacts := .refl _
  envelope_stored := load_pairQuarantine envelope
  destination := rfl
  scope := dif_pos isIdentifier_native
  runners := rfl

/-- What the promoter finds. -/
def readyAuthorization (candidate : ExecutionCandidate) (payload : Bytes) : Authorization :=
  ⟨readySigned candidate, readyDecision candidate, candidate, readySpec, payload⟩

theorem authorize_ready {manifest : ArtifactManifest} {payload : Bytes}
    (h : Recorded zeroHash cleanLoads (readyBridge store) readyTurn (digestOf 0) envelope (digestOf 0)
      manifest payload validation canary candidate) (current : Datetime) :
    (readyPromoter envelope validation canary candidate).authorize zeroHash
        (readyStores store validation canary candidate (singleEntry (readySigned candidate)))
        (digestOf 0).val current (some candidate.targetHashes)
      = .ok (readyAuthorization candidate payload) := by
  have hhanded : Handed (readyPromoter envelope validation canary candidate)
      (readyStores store validation canary candidate (singleEntry (readySigned candidate)))
      (readyBridge store) (digestOf 0) envelope validation canary candidate readySpec :=
    handed_ready _
  refine authorize_eq_ok.mpr ⟨⟨⟨[readySigned candidate], ?_, ?_, ?_⟩, rfl, rfl, readyEvent candidate,
    findEvent_singleton (.execution (readyEvent candidate))⟩, ⟨?_, matches_of_binding rfl, ?_⟩, rfl⟩
  · exact readArchive_ready
  · rfl
  · exact scanDecisions_head _ _
  · exact hhanded.candidate_stored.getAuthority (length_candidate_le candidate)
  · exact reproduce_eq_ok.mpr ⟨_, _, _, _, reproduces_of_recorded h hhanded⟩

/-- A host on which the approval has been imported. -/
def readyHost (store : ArtifactStore) (validation : DeterministicValidationReport)
    (canary : CanaryReport) (candidate : ExecutionCandidate) : PromotionHost zeroHash where
  stores := readyStores store validation canary candidate (singleEntry (readySigned candidate))
  publication := ⟨fun _ => some .empty, .empty, none⟩
  pending := []

theorem promotes_ready :
    Promotes (readyPromoter envelope validation canary candidate)
      (readyHost store validation canary candidate) := by
  have hfresh : PromotionHost.Fresh ⟨readyStores store validation canary candidate .empty,
      ⟨fun _ => some .empty, .empty, none⟩, []⟩ :=
    ⟨rfl, fun inbox seeds h => (Option.some.inj h).symm, rfl, rfl⟩
  exact ⟨_, hfresh, .single (.imported import_ready)⟩

/-- A promotion that is killed before it has written anything of its receipt. -/
theorem publish_torn (sha256 : Sha256) (parse : Storage.Parse PromotionReceipt) {auth : Authorization}
    (hpayload : auth.payload.length ≤ 2048) (promotedAt : Timestamp) :
    ∃ publication result, publish sha256 parse auth promotedAt 0 (some auth.candidate.targetHashes)
        (some (.killed, .wrote 0)) ⟨fun _ => some .empty, .empty, none⟩ = (publication, result) ∧
      publication.seed? auth.spec.inbox auth.candidate.artifactDigest = some auth.payload ∧
      publication.receipts.get? (stemOf auth.candidateDigest) = some [] := by
  have hseed : checkSeed auth.payload auth.payload = .ok () := checkSeed_eq_ok.mpr ⟨hpayload, rfl⟩
  have hinbox : (Archive.empty : Archive Digest Bytes).get? auth.candidate.artifactDigest = none := rfl
  have hreceipt : (Archive.empty : Archive Nonce256 Bytes).get? (stemOf auth.candidateDigest)
    = none := rfl
  obtain ⟨seeds, hseeds⟩ := put_of_get?_eq_none hinbox auth.payload
  obtain ⟨files, hfiles⟩ := put_of_get?_eq_none hreceipt []
  have hread : readReceipts parse .empty = .ok [] := rfl
  have hpublish : publish sha256 parse auth promotedAt 0 (some auth.candidate.targetHashes)
      (some (.killed, .wrote 0)) ⟨fun _ => some .empty, .empty, none⟩
      = (⟨Function.update (fun _ => some .empty) auth.spec.inbox (some seeds), files, some 0⟩,
        .error .interrupted) := by
    simp only [publish, acquireLock, publishLocked, hread, Except.mapError, ok_bind, existingReceipt,
      Promoter.checkTargets, raiseIf, ne_eq, not_true_eq_false, if_false, Option.isNone_none, if_true,
      publishArtifact, publishSeed, hinbox, hseed, hseeds, Option.getD_some, writeReceipt, hreceipt,
      Option.map_some, List.take_zero, hfiles, lockLeft]
    rfl
  refine ⟨_, _, hpublish, ?_, Archive.get?_put hfiles⟩
  simp only [Publication.seed?, Function.update_self, Option.bind_some]
  exact Archive.get?_put hseeds
/-- A host on which a promotion has been killed between the seed and its receipt. -/
theorem exists_tornHost : ∃ (promoter : Promoter) (host : PromotionHost zeroHash)
    (auth : Authorization), Promotes promoter host ∧
    host.publication.seed? auth.spec.inbox auth.candidate.artifactDigest = some auth.payload ∧
    host.publication.receipts.get? (stemOf auth.candidateDigest) = some [] := by
  obtain ⟨store, envelope, manifest, payload, validation, canary, candidate, hrecorded, -⟩ :=
    recorded_ready
  have hlength : payload.length ≤ 2048 := by
    rw [(buildValidationReport_iff.mp ⟨_, hrecorded.validation_built⟩).1.payload_size]
    exact manifest.payloadSizeBytes.2.2
  have hauthorized : (readyAuthorization candidate payload).payload.length ≤ 2048 := hlength
  obtain ⟨publication, result, hpublish, hseed, hreceipt⟩ := publish_torn zeroHash
    (readyPromoter envelope validation canary candidate).parsers.receipt hauthorized nopsTime
  have hready : Promotes (readyPromoter envelope validation canary candidate)
      (readyHost store validation canary candidate) := promotes_ready
  obtain ⟨start, hfresh, hrun⟩ := hready
  have hpending : [readyAuthorization candidate payload]
      = [] ++ readyAuthorization candidate payload :: [] := rfl
  have hkilled := (hrun.tail (.authorized (authorize_ready hrecorded cleanWorld.started))).tail
    (.published hpending nopsTime 0 (some candidate.targetHashes) (some (.killed, .wrote 0)))
  have hstate := congrArg Prod.fst hpublish
  refine ⟨_, _, readyAuthorization candidate payload, ⟨start, hfresh, hkilled⟩, ?_, ?_⟩
  · exact (congrArg (fun publication : Publication => publication.seed? _ _) hstate).trans hseed
  · exact (congrArg (fun publication : Publication => publication.receipts.get? _) hstate).trans
      hreceipt

end Ready

/-! ## Every seed was approved -/

/-- What a candidate says of its canary and of its manifest. -/
theorem of_buildExecutionCandidate {validationReportDigest canaryReportDigest manifestDigest : Digest}
    {validation : DeterministicValidationReport} {canary : CanaryReportFields}
    {manifest : ArtifactManifest} {scope : PromotionScope} {readyAt : Timestamp}
    {allowed : List Digest} {candidate : ExecutionCandidate}
    (h : buildExecutionCandidate sha256 validationReportDigest validation canaryReportDigest canary
      manifestDigest manifest scope readyAt allowed = .ok candidate) :
    canary.outcome = .passed ∧ canary.runnerHash ∈ allowed ∧
      canary.artifactDigest = candidate.artifactDigest ∧
      canary.targetHashes = candidate.targetHashes ∧
      candidate.artifactDigest = manifest.payloadDigest ∧
      candidate.artifactSizeBytes = manifest.payloadSizeBytes := by
  simp only [buildExecutionCandidate, raiseIf_bind_eq_ok, not_not, pure_eq_ok] at h
  obtain ⟨-, -, -, -, hpassed, hallowed, ⟨-, -, -, -, hartifact, -, -, htargets⟩, rfl⟩ := h
  exact ⟨hpassed, hallowed, hartifact, htargets, rfl, rfl⟩

/-- The event of an approval is in the outbox. -/
theorem mem_of_findEvent {outbox : Outbox sha256} {digest : Digest} {ready : ExecutionReadyEvent sha256}
    (h : findEvent outbox digest = .ok (.execution ready)) :
    .executionReady ready ∈ outbox ∧ (RedactedEvent.executionReady ready).digest = digest := by
  unfold findEvent at h
  cases hfound : (outbox.filterMap approvalEvent?).find? fun event => event.digest = digest with
  | none => simp [hfound] at h
  | some event =>
    rw [hfound] at h
    cases h
    have hdigest := List.find?_some hfound
    obtain ⟨event, hevent, hready⟩ := List.mem_filterMap.mp (List.mem_of_find?_eq_some hfound)
    refine ⟨?_, of_decide_eq_true hdigest⟩
    cases event with
    | executionReady other =>
      cases hready
      exact hevent
    | _ => cases hready

/-- What stands behind a seed: a signed approval on the challenge of one event, the artifact that the
event names, an envelope that the artifact is bound to, and a canary that it has passed. -/
structure Backed (promoter : Promoter) (stores : HostStores sha256) (spec : DestinationSpec)
    (digest : Digest) (payload : Bytes) (signed : SignedDecision) (decision : ExecutionDecision)
    (ready : ExecutionReadyEvent sha256) : Prop where
  archived : ∃ name, stores.decisions.get? name = some signed
  verified : verifySignature promoter.hmac promoter.key signed
  execution : signed.decision = .execution decision
  approved : decision.action = .approveForLiveExecution
  event : .executionReady ready ∈ stores.events
  event_digest : decision.core.eventDigest = (RedactedEvent.executionReady ready).digest
  binding_eq : decision.binding = ready.binding
  challenge : decision.core.approvalBindingDigest = executionApprovalBindingDigest sha256 ready.binding
    decision.core.decisionNonce decision.core.humanCode decision.core.expiresAt
  destination : promoter.destinations.get? ready.binding.promotionScope.destinationId = some spec
  scope : spec.scope? = some ready.binding.promotionScope
  artifact : ready.binding.artifactDigest = digest ∧ contentDigest sha256 payload = digest ∧
    payload.length = ready.binding.artifactSizeBytes
  validated : ∃ envelope manifest, loadEnvelope sha256 promoter.parsers.loads promoter.parsers.envelope
      stores.quarantine ready.binding.envelopeDigest = .ok envelope ∧
    stores.artifacts.getManifest sha256 ready.binding.artifactManifestDigest = .ok manifest ∧
    Revalidates sha256 ready.binding.envelopeDigest envelope ready.binding.artifactManifestDigest
      manifest payload
  canaried : ∃ canary, Promoter.getAuthority sha256 promoter.reportModel stores.reports
      ready.binding.canaryReportDigest = .ok canary ∧ canary.val.outcome = .passed ∧
    canary.val.runnerHash ∈ spec.allowedRunnerHashes ∧ canary.val.artifactDigest = digest ∧
    canary.val.targetHashes = ready.binding.targetHashes

theorem Warranted.backed {promoter : Promoter} {stores : HostStores sha256} {auth : Authorization}
    (h : Warranted promoter stores auth) : ∃ ready, Backed promoter stores auth.spec
      auth.candidate.artifactDigest auth.payload auth.signed auth.decision ready := by
  obtain ⟨ready, current, hfind, hagrees, -⟩ := h.decided
  obtain ⟨hevent, hdigest⟩ := mem_of_findEvent hfind
  have hbinding := (hagrees.execution ready auth.decision rfl h.decision).1
  obtain ⟨henvelope, hmanifest, hartifact, hsize, -, hcanary, htargets, hscope⟩ :=
    h.authorizes.matched
  rw [hbinding] at henvelope hmanifest hartifact hsize hcanary htargets hscope
  obtain ⟨validation, canary, manifest, envelope, hreproduces⟩ :=
    reproduce_eq_ok.mp h.authorizes.reproduced
  obtain ⟨hpassed, hallowed, hcanaryArtifact, hcanaryTargets, hpayload, hsizes⟩ :=
    of_buildExecutionCandidate hreproduces.candidate_rebuilt
  have hrevalidates := (buildValidationReport_iff.mp ⟨_, hreproduces.validation_rebuilt⟩).1
  have hcore : auth.signed.decision.core = auth.decision.core := by
    rw [h.decision]
    rfl
  have hchallenge := hagrees.approvalBinding
  have hnonce := hagrees.nonce
  have hcode := hagrees.code
  have hexpiration := hagrees.expiration
  rw [hcore] at hchallenge hnonce hcode hexpiration
  refine ⟨ready, ?_⟩
  constructor
  case archived => exact h.archived
  case verified => exact h.verified
  case execution => exact h.decision
  case approved => exact h.action
  case event => exact hevent
  case event_digest =>
    rw [hdigest, SignedDecision.eventDigest, hcore]
  case binding_eq => exact hbinding
  case challenge =>
    rw [hchallenge, hnonce, hcode, hexpiration]
    exact ready.challenge_binds_execution
  case destination =>
    rw [← hscope]
    exact hreproduces.destination
  case scope =>
    rw [← hscope]
    exact hreproduces.scope
  case artifact =>
    refine ⟨hartifact.symm, hrevalidates.payload_digest.trans hpayload.symm, ?_⟩
    rw [← hsize, hsizes]
    exact hrevalidates.payload_size
  case validated =>
    rw [← henvelope, ← hmanifest]
    exact ⟨envelope, manifest, hreproduces.envelope_stored, hreproduces.manifest_stored, hrevalidates⟩
  case canaried =>
    rw [← hcanary, ← htargets]
    exact ⟨canary, hreproduces.canary_stored, hpassed, hallowed, hcanaryArtifact, hcanaryTargets⟩

/-- **Every seed was approved.** Whatever promoters, importers and stores have done, and wherever they
have stopped, a seed in an inbox is backed, and the destination of the approval has that inbox. -/
theorem seed_approved {promoter : Promoter} {host : PromotionHost sha256}
    (h : Promotes promoter host) {inbox : String} {digest : Digest} {payload : Bytes}
    (hseed : host.publication.seed? inbox digest = some payload) :
    ∃ spec signed decision ready, spec.inbox = inbox ∧
      Backed promoter host.stores spec digest payload signed decision ready := by
  obtain ⟨auth, hwarranted, rfl, rfl, rfl⟩ := h.sound.seeds inbox digest payload hseed
  obtain ⟨ready, hbacked⟩ := hwarranted.backed
  exact ⟨auth.spec, auth.signed, auth.decision, ready, rfl, hbacked⟩

theorem seed_approved_torn : ∃ (promoter : Promoter) (host : PromotionHost zeroHash)
    (spec : DestinationSpec) (digest : Digest) (payload : Bytes) (signed : SignedDecision)
    (decision : ExecutionDecision) (ready : ExecutionReadyEvent zeroHash),
    host.publication.seed? spec.inbox digest = some payload ∧
      Backed promoter host.stores spec digest payload signed decision ready := by
  obtain ⟨promoter, host, auth, hpromotes, hseed, -⟩ := exists_tornHost
  obtain ⟨spec, signed, decision, ready, hinbox, hbacked⟩ := seed_approved hpromotes hseed
  exact ⟨promoter, host, spec, _, _, signed, decision, ready, by rw [hinbox]; exact hseed, hbacked⟩

/-! ## Receipts -/

namespace PromotionReceipt

/-- No text of a receipt begins another one. -/
theorem payload_eq_of_isPrefix {receipt other : PromotionReceipt}
    (h : receipt.payload <+: other.payload) : receipt.payload = other.payload := by
  refine canonicalJson_eq_of_isPrefix ?_ ?_ h <;>
    simp [TargetHashes.toJson, Json.Integral, Json.IntegralFields]

/-- The candidate, the destination and the artifact are read back from the text. -/
theorem fields_of_payload_eq {receipt other : PromotionReceipt}
    (h : receipt.payload = other.payload) : receipt.candidateDigest = other.candidateDigest ∧
      receipt.destinationId = other.destinationId ∧
      receipt.artifactDigest = other.artifactDigest := by
  have hencode := encode_eq_of_canonicalJson_eq h
  have hplain : ∀ receipt : PromotionReceipt, receipt.toJson.Plain := fun receipt => by
    simp [toJson, TargetHashes.toJson, Json.Plain, Json.PlainFields]
  have hstr : ∀ key {text text'}, receipt.toJson.field? key = some (.str text) →
      other.toJson.field? key = some (.str text') → text = text' := fun _ _ _ htext htext' =>
    Json.lookup_str_eq (hplain receipt) (hplain other) hencode htext htext'
  have hcandidate : receipt.candidateDigest = other.candidateDigest :=
    hstr "candidate_digest" rfl rfl
  have hdestination : receipt.destinationId.text = other.destinationId.text :=
    hstr "destination_id" rfl rfl
  have hartifact : receipt.artifactDigest = other.artifactDigest :=
    hstr "artifact_digest" rfl rfl
  refine ⟨hcandidate, ?_, hartifact⟩
  cases hid : receipt.destinationId <;> cases hid' : other.destinationId <;>
    simp [hid, hid', Destination.text] at hdestination ⊢

end PromotionReceipt

/-- A file that is not the whole text of a receipt is not read. -/
theorem readReceipt_of_torn {parse : Storage.Parse PromotionReceipt} {receipt found : PromotionReceipt}
    {stem : Nonce256} {bytes : Bytes} (hbytes : bytes <+: receipt.payload)
    (h : readReceipt parse stem bytes = .ok found) :
    bytes = receipt.payload ∧ found.candidateDigest = receipt.candidateDigest ∧
      found.destinationId = receipt.destinationId ∧
      found.artifactDigest = receipt.artifactDigest := by
  obtain ⟨-, -, hpayload, -⟩ := readReceipt_eq_ok.mp h
  rw [← hpayload] at hbytes ⊢
  have heq := PromotionReceipt.payload_eq_of_isPrefix hbytes
  exact ⟨heq, PromotionReceipt.fields_of_payload_eq heq⟩

/-- Only the last receipt may be torn, and receipts on one artifact at one destination are one. -/
structure Publication.Orderly (parse : Storage.Parse PromotionReceipt) (publication : Publication) :
    Prop where
  whole : ∀ entry ∈ publication.receipts.entries.dropLast, ∃ receipt,
    readReceipt parse entry.1 entry.2 = .ok receipt
  distinct : ∀ {stem stem' bytes bytes' receipt receipt'},
    publication.receipts.get? stem = some bytes → readReceipt parse stem bytes = .ok receipt →
    publication.receipts.get? stem' = some bytes' → readReceipt parse stem' bytes' = .ok receipt' →
    receipt.destinationId = receipt'.destinationId →
    receipt.artifactDigest = receipt'.artifactDigest → stem = stem'

section Receipts

variable {promoter : Promoter} {host host' : PromotionHost sha256}

theorem Publication.Orderly.change {parse : Storage.Parse PromotionReceipt} {auth : Authorization}
    {promotedAt : Timestamp} {publication publication' : Publication}
    (h : publication.Orderly parse)
    (hchange : Change sha256 parse auth promotedAt publication publication') :
    publication'.Orderly parse := by
  rcases hchange.receipts with hsame | ⟨⟨receipts, hread, hclear⟩, -, written, hwritten, hput, hstem⟩
  · obtain ⟨hwhole, hdistinct⟩ := h
    constructor <;> rw [hsame]
    · exact hwhole
    · exact hdistinct
  · have hentries : publication'.receipts.entries
        = publication.receipts.entries ++ [(stemOf auth.candidateDigest, written)] := by
      rcases Archive.entries_of_put hput with ⟨-, hentries⟩ | ⟨hsome, -⟩
      · exact hentries
      · rw [hstem] at hsome
        cases hsome
    have hget : ∀ {stem bytes}, publication'.receipts.get? stem = some bytes →
        publication.receipts.get? stem = some bytes ∨
          stem = stemOf auth.candidateDigest ∧ bytes = written := by
      intro stem bytes hget
      have hmem := Archive.get?_eq_some.mp hget
      rw [hentries] at hmem
      rcases List.mem_append.mp hmem with hold | hnew
      · exact .inl (Archive.get?_eq_some.mpr hold)
      · exact .inr (Prod.mk.inj (List.mem_singleton.mp hnew))
    -- A receipt that is there is not on the artifact of the new one.
    have hnew : ∀ {stem bytes receipt found}, publication.receipts.get? stem = some bytes →
        readReceipt parse stem bytes = .ok receipt →
        readReceipt parse (stemOf auth.candidateDigest) written = .ok found →
        receipt.destinationId = found.destinationId →
        receipt.artifactDigest ≠ found.artifactDigest := by
      intro stem bytes receipt found hold hreceipt hfound hdestination hartifact
      obtain ⟨-, -, hdestination', hartifact'⟩ := readReceipt_of_torn hwritten hfound
      refine (hclear receipt ((mem_of_readReceipts hread).mpr ⟨stem, bytes, hold, hreceipt⟩)).2 ?_
      exact ⟨hdestination.trans hdestination', hartifact.trans hartifact'⟩
    constructor
    · rw [hentries, List.dropLast_concat]
      intro entry hentry
      exact allWhole_iff.mpr ⟨receipts, hread⟩ entry.1 entry.2 (Archive.get?_eq_some.mpr hentry)
    · intro stem stem' bytes bytes' receipt receipt' hfirst hreceipt hsecond hreceipt' hdestination
        hartifact
      rcases hget hfirst with hold | ⟨rfl, rfl⟩
      · rcases hget hsecond with hold' | ⟨rfl, rfl⟩
        · exact h.distinct hold hreceipt hold' hreceipt' hdestination hartifact
        · exact absurd hartifact (hnew hold hreceipt hreceipt' hdestination)
      · rcases hget hsecond with hold' | ⟨rfl, rfl⟩
        · exact absurd hartifact.symm (hnew hold' hreceipt' hreceipt hdestination.symm)
        · rfl

theorem Promotes.orderly (h : Promotes promoter host) :
    host.publication.Orderly promoter.parsers.receipt := by
  obtain ⟨start, hfresh, hrun⟩ := h
  refine Runs.reflTransGen_preserves (P := fun host : PromotionHost sha256 =>
    host.publication.Orderly promoter.parsers.receipt) ?_ hrun ?_
  · intro before after hstep horderly
    cases hstep with
    | published _ promotedAt wall probe halt? =>
      exact horderly.change (publish_change promotedAt wall probe halt?)
    | _ => exact ⟨horderly.whole, horderly.distinct⟩
  · constructor
    · rw [hfresh.receipts]
      exact fun entry hentry => absurd hentry List.not_mem_nil
    · intro stem stem' bytes bytes' receipt receipt' hget
      rw [hfresh.receipts] at hget
      cases hget

/-- Two files that cannot be read are one. -/
theorem Publication.Orderly.torn_eq {parse : Storage.Parse PromotionReceipt}
    {publication : Publication} (h : publication.Orderly parse) {stem stem' : Nonce256}
    {bytes bytes' : Bytes} (hget : publication.receipts.get? stem = some bytes)
    (hget' : publication.receipts.get? stem' = some bytes')
    (htorn : ∀ receipt, readReceipt parse stem bytes ≠ .ok receipt)
    (htorn' : ∀ receipt, readReceipt parse stem' bytes' ≠ .ok receipt) : stem = stem' := by
  have hlast : ∀ {stem bytes}, publication.receipts.get? stem = some bytes →
      (∀ receipt, readReceipt parse stem bytes ≠ .ok receipt) →
      publication.receipts.entries.getLast? = some (stem, bytes) := by
    intro stem bytes hget htorn
    have hmem := Archive.get?_eq_some.mp hget
    have hne := List.ne_nil_of_mem hmem
    rw [← List.dropLast_append_getLast hne] at hmem
    rcases List.mem_append.mp hmem with hold | hnew
    · obtain ⟨receipt, hreceipt⟩ := h.whole _ hold
      exact absurd hreceipt (htorn receipt)
    · rw [List.getLast?_eq_some_getLast hne, List.mem_singleton.mp hnew]
  have heq := (hlast hget htorn).symm.trans (hlast hget' htorn')
  exact congrArg Prod.fst (Option.some.inj heq)

/-- **One receipt for a publication.** In every state the receipts that can be read are on different
artifacts or at different destinations, at most one file cannot be read, and the seed that a file is
about is in its inbox, with its approval behind it. -/
theorem receipts_distinct (h : Promotes promoter host) :
    (∀ stem stem' bytes bytes' receipt receipt',
      host.publication.receipts.get? stem = some bytes →
      readReceipt promoter.parsers.receipt stem bytes = .ok receipt →
      host.publication.receipts.get? stem' = some bytes' →
      readReceipt promoter.parsers.receipt stem' bytes' = .ok receipt' →
      receipt.destinationId = receipt'.destinationId →
      receipt.artifactDigest = receipt'.artifactDigest → stem = stem') ∧
    (∀ stem stem' bytes bytes', host.publication.receipts.get? stem = some bytes →
      host.publication.receipts.get? stem' = some bytes' →
      (∀ receipt, readReceipt promoter.parsers.receipt stem bytes ≠ .ok receipt) →
      (∀ receipt, readReceipt promoter.parsers.receipt stem' bytes' ≠ .ok receipt) → stem = stem') ∧
    ∀ stem bytes, host.publication.receipts.get? stem = some bytes →
      ∃ (auth : Authorization) (promotedAt : Timestamp) (ready : ExecutionReadyEvent sha256),
        stem = stemOf auth.candidateDigest ∧ bytes <+: (auth.receipt sha256 promotedAt).payload ∧
        host.publication.seed? auth.spec.inbox auth.candidate.artifactDigest = some auth.payload ∧
        Backed promoter host.stores auth.spec auth.candidate.artifactDigest auth.payload auth.signed
          auth.decision ready := by
  refine ⟨fun _ _ _ _ _ _ => h.orderly.distinct, fun _ _ _ _ => h.orderly.torn_eq, ?_⟩
  intro stem bytes hget
  obtain ⟨auth, promotedAt, hwarranted, hstem, hbytes, hseed⟩ := h.sound.receipts stem bytes hget
  obtain ⟨ready, hbacked⟩ := hwarranted.backed
  exact ⟨auth, promotedAt, ready, hstem, hbytes, hseed, hbacked⟩

theorem receipts_distinct_torn : ∃ (promoter : Promoter) (host : PromotionHost zeroHash)
    (stem : Nonce256) (auth : Authorization) (promotedAt : Timestamp), Promotes promoter host ∧
      host.publication.receipts.get? stem = some [] ∧ stem = stemOf auth.candidateDigest ∧
      [] <+: (auth.receipt zeroHash promotedAt).payload ∧
      host.publication.seed? auth.spec.inbox auth.candidate.artifactDigest = some auth.payload := by
  obtain ⟨promoter, host, auth, hpromotes, -, hreceipt⟩ := exists_tornHost
  obtain ⟨-, -, habout⟩ := receipts_distinct hpromotes
  obtain ⟨other, promotedAt, ready, hstem, hbytes, hseed, -⟩ := habout _ _ hreceipt
  exact ⟨promoter, host, _, other, promotedAt, hpromotes, hreceipt, hstem, hbytes, hseed⟩

/-! ## A torn receipt -/

/-- Nothing is published while a receipt cannot be read. -/
theorem HostStep.stuck (h : HostStep promoter host host')
    (htorn : ¬ AllWhole promoter.parsers.receipt host.publication.receipts) :
    host'.publication.receipts = host.publication.receipts ∧
      host'.publication.seed? = host.publication.seed? := by
  cases h with
  | published _ promotedAt wall probe halt? =>
    obtain ⟨hinboxes, hreceipts⟩ := (publish_change promotedAt wall probe halt?).stuck htorn
    refine ⟨hreceipts, ?_⟩
    funext inbox digest
    simp only [Publication.seed?, hinboxes]
  | opened hnone => exact ⟨rfl, seed?_opened hnone⟩
  | _ => exact ⟨rfl, rfl⟩

/-- No promotion succeeds while a receipt cannot be read. -/
theorem promote_of_torn {stores : HostStores sha256} {publication : Publication}
    (htorn : ¬ AllWhole promoter.parsers.receipt publication.receipts) (candidateDigest : String)
    (turn : PromotionTurn) (receipt : PromotionReceipt) :
    (promoter.promote sha256 stores candidateDigest turn publication).2 ≠ .ok receipt := by
  intro h
  unfold Promoter.promote at h
  split at h
  · cases h
  · rename_i auth hauth
    unfold publish at h
    split at h
    · cases h
    · dsimp only at h
      unfold publishLocked at h
      cases hread : readReceipts promoter.parsers.receipt publication.receipts with
      | ok receipts => exact htorn (allWhole_iff.mpr ⟨receipts, hread⟩)
      | error error =>
        rw [hread] at h
        cases h

/-- **A torn receipt stops the promoter for good.** Once a promotion has stopped in the middle of
its receipt, nothing is published in any later state, and no promotion of any candidate succeeds. -/
theorem torn_receipt_stops {stem : Nonce256} {bytes : Bytes} {receipt : PromotionReceipt}
    (hget : host.publication.receipts.get? stem = some bytes) (hbytes : bytes <+: receipt.payload)
    (htorn : bytes ≠ receipt.payload) (hrun : Relation.ReflTransGen (HostStep promoter) host host') :
    host'.publication.receipts = host.publication.receipts ∧
      host'.publication.seed? = host.publication.seed? ∧
      ∀ candidateDigest turn found, (promoter.promote sha256 host'.stores candidateDigest turn
        host'.publication).2 ≠ .ok found := by
  have hbroken : ¬ AllWhole promoter.parsers.receipt host.publication.receipts := by
    intro hwhole
    obtain ⟨found, hfound⟩ := hwhole stem bytes hget
    exact htorn (readReceipt_of_torn hbytes hfound).1
  have hkept : host'.publication.receipts = host.publication.receipts ∧
      host'.publication.seed? = host.publication.seed? := by
    induction hrun with
    | refl => exact ⟨rfl, rfl⟩
    | tail _ hstep ih =>
      obtain ⟨hreceipts, hseed⟩ := hstep.stuck (by rwa [ih.1])
      exact ⟨hreceipts.trans ih.1, hseed.trans ih.2⟩
  refine ⟨hkept.1, hkept.2, fun candidateDigest turn found => ?_⟩
  exact promote_of_torn (by rwa [hkept.1]) candidateDigest turn found

theorem torn_receipt_stops_empty : ∃ (promoter : Promoter) (host : PromotionHost zeroHash)
    (stem : Nonce256), host.publication.receipts.get? stem = some [] ∧
      ∀ candidateDigest turn found, (promoter.promote zeroHash host.stores candidateDigest turn
        host.publication).2 ≠ .ok found := by
  obtain ⟨promoter, host, auth, -, -, hreceipt⟩ := exists_tornHost
  have htorn : [] ≠ (auth.receipt zeroHash nopsTime).payload := by
    intro hempty
    have hlength := congrArg List.length hempty
    rw [PromotionReceipt.payload, canonicalJson, PromotionReceipt.toJson, Json.Encoder.encode,
      utf8_append, utf8_append, List.length_append, List.length_append] at hlength
    have hbrace : (utf8 "\x7b").length = 1 := by
      rw [utf8_eq_map (by decide)]
      rfl
    rw [hbrace, List.length_nil] at hlength
    omega
  obtain ⟨-, -, hstops⟩ := torn_receipt_stops hreceipt List.nil_prefix htorn .refl
  exact ⟨promoter, host, _, hreceipt, hstops⟩

end Receipts

end IouAi.Authority
