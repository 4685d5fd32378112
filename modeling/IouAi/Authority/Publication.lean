import IouAi.Authority.Promotion
import IouAi.Wire.Texts

/-!
# Publication

The second half of `Promoter.promote`. Under the lock of the receipts it looks for an earlier
publication and at the targets once more, links the seed into the inbox of the destination and writes
a receipt (`publish`).

The operations under the lock come one after the other. One of them may raise, or the process may be
killed between two of them; what is there then is what the operations before have made. Whatever a
promotion does, it adds at most its seed, and after it some bytes of its receipt (`publish_change`).
-/

namespace IouAi.Authority

open Calendar Checks Wire

variable (sha256 : Sha256)

/-! ## Publication -/

/-- What a promoter writes: the seeds in the inboxes, under their digests, the receipts under their
names, and the time at which the lock was taken. -/
structure Publication where
  inboxes : String → Option (Archive Digest Bytes)
  receipts : Archive Nonce256 Bytes
  lock : Option ℕ

/-- After how many microseconds a lock is taken for stale. -/
def lockStaleAfter : ℕ := 10 * 60 * microsPerSecond

/-- `_lock`: whether the lock is free, or stale. -/
def acquireLock (wall : ℕ) (lock : Option ℕ) : Except PromotionError Unit :=
  match lock with
  | none => .ok ()
  | some modified => raiseIf (wall - modified ≤ lockStaleAfter) .lockHeld

/-- What `_receipts` does with one file. -/
def readReceipt (parse : Storage.Parse PromotionReceipt) (stem : Nonce256) (payload : Bytes) :
    Except PromotionError PromotionReceipt := do
  raiseIf (64 * 1024 < payload.length) .unbounded
  match parse payload with
  | none => throw .receiptInvalid
  | some receipt =>
    raiseIf (receipt.payload ≠ payload) .receiptNotCanonical
    raiseIf (stem.val ≠ removePrefix receipt.candidateDigest) .receiptFilename
    return receipt

/-- `_receipts`, in the order of the file names. -/
def readReceipts (parse : Storage.Parse PromotionReceipt) (receipts : Archive Nonce256 Bytes) :
    Except PromotionError (List PromotionReceipt) :=
  (receipts.entries.insertionSort fun entry other => entry.1.val ≤ other.1.val).mapM fun entry =>
    readReceipt parse entry.1 entry.2

/-- The receipt of the candidate, unless a receipt before it is on the same artifact. -/
def existingReceipt (candidateDigest artifactDigest : Digest) (destinationId : Destination) :
    List PromotionReceipt → Except PromotionError (Option PromotionReceipt)
  | [] => .ok none
  | receipt :: receipts =>
    if receipt.candidateDigest = candidateDigest.val then .ok (some receipt)
    else if receipt.destinationId = destinationId ∧ receipt.artifactDigest = artifactDigest.val then
      .error .alreadyPublished
    else existingReceipt candidateDigest artifactDigest destinationId receipts

/-- What is read under the name of a seed is the seed. -/
def checkSeed (visible payload : Bytes) : Except PromotionError Unit := do
  raiseIf (2048 < visible.length) .unbounded
  raiseIf (visible ≠ payload) .wrongBytes

/-- `_publish`: link the seed, or look at the file that is there, and read it back. -/
def publishSeed (inbox : Archive Digest Bytes) (digest : Digest) (payload : Bytes) :
    Archive Digest Bytes × Except PromotionError Unit :=
  match inbox.get? digest with
  | some visible => (inbox, checkSeed visible payload)
  | none => ((inbox.put digest payload).getD inbox, checkSeed payload payload)

/-- The name of a seed for those who read receipts. -/
def entryIdOf (digest : Digest) : String :=
  "seed-" ++ String.ofList ((removePrefix digest.val).toList.take 24)

/-- How a promotion stops before its end. -/
inductive Fault
  | raised
  | killed
  deriving DecidableEq

/-- Where a promotion can stop: when it has looked at everything, when it has linked the seed, and
when it has written some bytes of the receipt. -/
inductive Moment
  | looked
  | linked
  | wrote (bytes : ℕ)
  deriving DecidableEq

namespace Authorization

variable (auth : Authorization)

def receipt (promotedAt : Timestamp) : PromotionReceipt where
  candidateDigest := auth.candidateDigest
  decisionDigest := (decisionFileDigest sha256 auth.signed).val
  eventDigest := auth.decision.core.eventDigest
  envelopeDigest := auth.candidate.envelopeDigest
  artifactManifestDigest := auth.candidate.artifactManifestDigest
  artifactDigest := auth.candidate.artifactDigest
  validationReportDigest := auth.candidate.validationReportDigest
  canaryReportDigest := auth.candidate.canaryReportDigest
  targetHashes := auth.candidate.targetHashes
  destinationId := auth.spec.destinationId
  destinationEntryId := entryIdOf auth.candidate.artifactDigest
  promotedAt := promotedAt

end Authorization

section Publish

variable (parse : Storage.Parse PromotionReceipt) (auth : Authorization) (promotedAt : Timestamp)
  (probe : Option TargetHashes) (moment? : Option Moment)

/-- The receipt is written when its file can be created; a file that is there is compared. -/
def writeReceipt (publication : Publication) :
    Publication × Except PromoteError PromotionReceipt :=
  let receipt := auth.receipt sha256 promotedAt
  let stem := stemOf auth.candidateDigest
  match publication.receipts.get? stem with
  | some existing =>
    (publication, if existing = receipt.payload then .ok receipt
      else .error (.promotion .receiptCollision))
  | none =>
    let written := match moment? with
      | some (.wrote bytes) => receipt.payload.take bytes
      | _ => receipt.payload
    ({ publication with receipts := (publication.receipts.put stem written).getD publication.receipts },
      match moment? with
      | some (.wrote _) => .error .interrupted
      | _ => .ok receipt)

/-- The seed is linked and its receipt is written. -/
def publishArtifact (publication : Publication) :
    Publication × Except PromoteError PromotionReceipt :=
  match publication.inboxes auth.spec.inbox with
  | none => (publication, .error (.promotion .directory))
  | some inbox =>
    let (inbox', checked) := publishSeed inbox auth.candidate.artifactDigest auth.payload
    let linked := { publication with
      inboxes := Function.update publication.inboxes auth.spec.inbox (some inbox') }
    match checked with
    | .error error => (linked, .error (.promotion error))
    | .ok () =>
      if moment? = some .linked then (linked, .error .interrupted)
      else writeReceipt sha256 auth promotedAt moment? linked

/-- `promote`, under the lock. -/
def publishLocked (publication : Publication) :
    Publication × Except PromoteError PromotionReceipt :=
  let found : Except PromoteError (Option PromotionReceipt) := do
    let receipts ← (readReceipts parse publication.receipts).mapError .promotion
    let existing ← (existingReceipt auth.candidateDigest auth.candidate.artifactDigest
      auth.spec.destinationId receipts).mapError .promotion
    if existing.isNone then
      Promoter.checkTargets probe auth.candidate .driftedDuringPromotion
    return existing
  match found with
  | .error error => (publication, .error error)
  | .ok (some receipt) => (publication, .ok receipt)
  | .ok none =>
    if moment? = some .looked then (publication, .error .interrupted)
    else publishArtifact sha256 auth promotedAt moment? publication

end Publish

/-- What is left of a lock. It is removed, unless its holder was killed. -/
def lockLeft (wall : ℕ) (fault : Fault) (result : Except PromoteError PromotionReceipt) : Option ℕ :=
  if fault = .killed ∧ result = .error .interrupted then some wall else none

/-- The end of `promote`: take the lock, publish, and release it. -/
def publish (parse : Storage.Parse PromotionReceipt) (auth : Authorization) (promotedAt : Timestamp)
    (wall : ℕ) (probe : Option TargetHashes) (halt? : Option (Fault × Moment))
    (publication : Publication) : Publication × Except PromoteError PromotionReceipt :=
  match acquireLock wall publication.lock with
  | .error error => (publication, .error (.promotion error))
  | .ok () =>
    let (publication', result) := publishLocked sha256 parse auth promotedAt probe
      (halt?.map Prod.snd) publication
    ({ publication' with lock := lockLeft wall ((halt?.map Prod.fst).getD .raised) result }, result)

/-- What the world does during a promotion: the time, as the program reads it and as the lock is
judged by, the targets at both looks, and where the promotion stops. -/
structure PromotionTurn where
  current : Datetime
  wall : ℕ
  probe : Option TargetHashes
  finalProbe : Option TargetHashes
  halt? : Option (Fault × Moment)

/-- `promote`. -/
def Promoter.promote (promoter : Promoter) (stores : HostStores sha256) (candidateDigest : String)
    (turn : PromotionTurn) (publication : Publication) :
    Publication × Except PromoteError PromotionReceipt :=
  match promoter.authorize sha256 stores candidateDigest turn.current turn.probe with
  | .error error => (publication, .error error)
  | .ok auth =>
    publish sha256 promoter.parsers.receipt auth (timestamp turn.current) turn.wall turn.finalProbe
      turn.halt? publication

/-! ## What a publication does -/

section Effect

variable {sha256 : Sha256} {parse : Storage.Parse PromotionReceipt} {auth : Authorization}
  {publication : Publication}

theorem readReceipt_eq_ok {stem : Nonce256} {payload : Bytes} {receipt : PromotionReceipt} :
    readReceipt parse stem payload = .ok receipt ↔ payload.length ≤ 64 * 1024 ∧
      parse payload = some receipt ∧ receipt.payload = payload ∧
      stem.val = removePrefix receipt.candidateDigest := by
  unfold readReceipt
  simp only [raiseIf_bind_eq_ok, not_lt]
  cases hparse : parse payload with
  | none => simp
  | some other =>
    simp only [raiseIf_bind_eq_ok, not_not, pure_eq_ok, Option.some.injEq]
    constructor
    · rintro ⟨hlength, hpayload, hstem, rfl⟩
      exact ⟨hlength, rfl, hpayload, hstem⟩
    · rintro ⟨hlength, rfl, hpayload, hstem⟩
      exact ⟨hlength, hpayload, hstem, rfl⟩

/-- All receipts are read, or none is. -/
theorem readReceipts_eq_ok {files : Archive Nonce256 Bytes} {receipts : List PromotionReceipt} :
    readReceipts parse files = .ok receipts ↔ List.Forall₂
      (fun entry receipt => readReceipt parse entry.1 entry.2 = .ok receipt)
      (files.entries.insertionSort fun entry other => entry.1.val ≤ other.1.val) receipts :=
  mapM_eq_ok_iff_forall₂

/-- The receipts are whole. -/
def AllWhole (parse : Storage.Parse PromotionReceipt) (files : Archive Nonce256 Bytes) : Prop :=
  ∀ stem payload, files.get? stem = some payload → ∃ receipt, readReceipt parse stem payload = .ok receipt

theorem allWhole_iff {files : Archive Nonce256 Bytes} :
    AllWhole parse files ↔ ∃ receipts, readReceipts parse files = .ok receipts := by
  simp only [readReceipts_eq_ok]
  constructor
  · intro h
    refine exists_forall₂ fun entry hentry => h entry.1 entry.2 ?_
    exact Archive.get?_eq_some.mpr (List.mem_insertionSort _ |>.mp hentry)
  · rintro ⟨receipts, hreceipts⟩ stem payload hget
    have hmem := (List.mem_insertionSort fun entry other : Nonce256 × Bytes =>
      entry.1.val ≤ other.1.val).mpr (Archive.get?_eq_some.mp hget)
    obtain ⟨i, hi⟩ := List.getElem?_of_mem hmem
    obtain ⟨hlength, hall⟩ := List.forall₂_iff_get.mp hreceipts
    obtain ⟨hlt, heq⟩ := List.getElem?_eq_some_iff.mp hi
    have hitem := hall i hlt (hlength ▸ hlt)
    simp only [List.get_eq_getElem, heq] at hitem
    exact ⟨_, hitem⟩

theorem mem_of_readReceipts {files : Archive Nonce256 Bytes} {receipts : List PromotionReceipt}
    (h : readReceipts parse files = .ok receipts) {receipt : PromotionReceipt} :
    receipt ∈ receipts ↔ ∃ stem payload, files.get? stem = some payload ∧
      readReceipt parse stem payload = .ok receipt := by
  rw [readReceipts_eq_ok] at h
  constructor
  · intro hreceipt
    obtain ⟨entry, hentry, hread⟩ := exists_of_mem_right h hreceipt
    exact ⟨entry.1, entry.2, Archive.get?_eq_some.mpr (List.mem_insertionSort _ |>.mp hentry), hread⟩
  · rintro ⟨stem, payload, hget, hread⟩
    have hmem := (List.mem_insertionSort fun entry other : Nonce256 × Bytes =>
      entry.1.val ≤ other.1.val).mpr (Archive.get?_eq_some.mp hget)
    obtain ⟨other, hother, hread'⟩ := exists_of_mem_right h.flip hmem
    rw [hread, Except.ok.injEq] at hread'
    exact hread' ▸ hother

/-- The receipt is on the artifact of the authorization, under another candidate. -/
def Conflicts (auth : Authorization) (receipt : PromotionReceipt) : Prop :=
  receipt.candidateDigest ≠ auth.candidateDigest.val ∧
    receipt.destinationId = auth.spec.destinationId ∧
    receipt.artifactDigest = auth.candidate.artifactDigest.val

theorem existingReceipt_eq_none {receipts : List PromotionReceipt} :
    existingReceipt auth.candidateDigest auth.candidate.artifactDigest auth.spec.destinationId receipts
        = .ok none
      ↔ ∀ receipt ∈ receipts, receipt.candidateDigest ≠ auth.candidateDigest.val ∧
        ¬ (receipt.destinationId = auth.spec.destinationId ∧
          receipt.artifactDigest = auth.candidate.artifactDigest.val) := by
  induction receipts with
  | nil => simp [existingReceipt]
  | cons receipt receipts ih =>
    rw [existingReceipt, List.forall_mem_cons]
    split
    · rename_i hsame
      simp [hsame]
    · rename_i hother
      split
      · rename_i hconflict
        simp [hconflict]
      · rename_i hclear
        rw [ih]
        exact (and_iff_right ⟨hother, hclear⟩).symm

/-- The receipt of the candidate is found, unless a receipt before it is on the same artifact. -/
theorem existingReceipt_eq_some {receipts : List PromotionReceipt} {receipt : PromotionReceipt}
    (h : existingReceipt auth.candidateDigest auth.candidate.artifactDigest auth.spec.destinationId
      receipts = .ok (some receipt)) :
    receipt ∈ receipts ∧ receipt.candidateDigest = auth.candidateDigest.val := by
  induction receipts with
  | nil => cases h
  | cons other receipts ih =>
    rw [existingReceipt] at h
    split at h
    · rename_i hsame
      cases h
      exact ⟨List.mem_cons_self, hsame⟩
    · split at h
      · cases h
      · exact ⟨List.mem_cons_of_mem _ (ih h).1, (ih h).2⟩

theorem existingReceipt_of_mem {receipts : List PromotionReceipt} {receipt : PromotionReceipt}
    (hmem : receipt ∈ receipts) (hsame : receipt.candidateDigest = auth.candidateDigest.val)
    (hclear : ∀ other ∈ receipts, ¬ Conflicts auth other) :
    ∃ found, existingReceipt auth.candidateDigest auth.candidate.artifactDigest
      auth.spec.destinationId receipts = .ok (some found) := by
  induction receipts with
  | nil => cases hmem
  | cons other receipts ih =>
    obtain ⟨hother, hrest⟩ := List.forall_mem_cons.mp hclear
    rw [existingReceipt]
    split
    · exact ⟨other, rfl⟩
    · rename_i hne
      rw [if_neg fun h => hother ⟨hne, h⟩]
      rcases List.mem_cons.mp hmem with rfl | hmem
      · exact absurd hsame hne
      · exact ih hmem hrest

/-- The seed under a digest in an inbox. -/
def Publication.seed? (publication : Publication) (inbox : String) (digest : Digest) : Option Bytes :=
  (publication.inboxes inbox).bind fun seeds => seeds.get? digest

/-- The receipts are whole, and none of them is on the candidate or on its artifact. -/
def Clear (parse : Storage.Parse PromotionReceipt) (auth : Authorization)
    (files : Archive Nonce256 Bytes) : Prop :=
  ∃ receipts, readReceipts parse files = .ok receipts ∧ ∀ receipt ∈ receipts,
    receipt.candidateDigest ≠ auth.candidateDigest.val ∧
      ¬ (receipt.destinationId = auth.spec.destinationId ∧
        receipt.artifactDigest = auth.candidate.artifactDigest.val)

/-- How a promotion changes what is published. It may add the seed, and then some bytes of the
receipt. -/
structure Change (sha256 : Sha256) (parse : Storage.Parse PromotionReceipt) (auth : Authorization)
    (promotedAt : Timestamp) (publication publication' : Publication) : Prop where
  kept : ∀ inbox digest payload, publication.seed? inbox digest = some payload →
    publication'.seed? inbox digest = some payload
  seeds : ∀ inbox digest payload, publication'.seed? inbox digest = some payload →
    publication.seed? inbox digest = some payload ∨ (inbox = auth.spec.inbox ∧
      digest = auth.candidate.artifactDigest ∧ payload = auth.payload)
  receipts : publication'.receipts = publication.receipts ∨ Clear parse auth publication.receipts ∧
    publication'.seed? auth.spec.inbox auth.candidate.artifactDigest = some auth.payload ∧
    ∃ written, written <+: (auth.receipt sha256 promotedAt).payload ∧
      publication.receipts.put (stemOf auth.candidateDigest) written = some publication'.receipts ∧
      publication.receipts.get? (stemOf auth.candidateDigest) = none
  stuck : ¬ AllWhole parse publication.receipts →
    publication'.inboxes = publication.inboxes ∧ publication'.receipts = publication.receipts

theorem Change.same {promotedAt : Timestamp} {publication' : Publication}
    (hinboxes : publication'.inboxes = publication.inboxes)
    (hreceipts : publication'.receipts = publication.receipts) :
    Change sha256 parse auth promotedAt publication publication' := by
  have hseed : publication'.seed? = publication.seed? := by
    funext inbox digest
    rw [Publication.seed?, Publication.seed?, hinboxes]
  refine ⟨?_, ?_, .inl hreceipts, fun _ => ⟨hinboxes, hreceipts⟩⟩
  · intro inbox digest payload h
    rwa [hseed]
  · intro inbox digest payload h
    rw [hseed] at h
    exact .inl h

theorem put_of_get?_eq_none {κ β : Type} [DecidableEq κ] [DecidableEq β] {archive : Archive κ β}
    {key : κ} (h : archive.get? key = none) (value : β) :
    ∃ archive', archive.put key value = some archive' := by
  unfold Archive.put
  split
  · exact ⟨_, rfl⟩
  · rename_i existing hsome
    rw [h] at hsome
    cases hsome

/-- The seed is there when it is checked. -/
theorem checkSeed_eq_ok {visible payload : Bytes} {u : Unit} :
    checkSeed visible payload = .ok u ↔ visible.length ≤ 2048 ∧ visible = payload := by
  unfold checkSeed
  simp only [raiseIf_bind_eq_ok, raiseIf_eq_ok, not_lt, not_not]

/-- What is in an inbox when a seed has been linked. -/
theorem publishSeed_fst {inbox : Archive Digest Bytes} {digest other : Digest} {payload : Bytes} :
    (publishSeed inbox digest payload).1.get? other
      = if other = digest then some ((inbox.get? digest).getD payload) else inbox.get? other := by
  unfold publishSeed
  cases hget : inbox.get? digest with
  | some visible =>
    dsimp only
    split
    · rename_i heq
      rw [heq, hget]
      rfl
    · rfl
  | none =>
    obtain ⟨inbox', hput⟩ := put_of_get?_eq_none hget payload
    dsimp only
    rw [hput, Option.getD_some]
    split
    · rename_i heq
      rw [heq, Archive.get?_put hput]
      rfl
    · rename_i hne
      rcases Archive.entries_of_put hput with ⟨-, hentries⟩ | ⟨hsome, -⟩
      · refine Option.ext fun value => ?_
        rw [Archive.get?_eq_some, Archive.get?_eq_some, hentries]
        simp [hne]
      · rw [hget] at hsome
        cases hsome

/-- The seed that a promotion finds or links. -/
theorem seed?_update {inbox : Archive Digest Bytes} {name : String}
    (hinbox : publication.inboxes name = some inbox) (digest : Digest) (payload : Bytes)
    (receipts : Archive Nonce256 Bytes) (lock : Option ℕ) (other : String) (otherDigest : Digest) :
    Publication.seed? ⟨Function.update publication.inboxes name
        (some (publishSeed inbox digest payload).1), receipts, lock⟩ other otherDigest
      = if other = name ∧ otherDigest = digest then
          some ((publication.seed? name digest).getD payload)
        else publication.seed? other otherDigest := by
  by_cases hname : other = name
  · subst hname
    simp only [Publication.seed?, Function.update_self, hinbox, Option.bind_some, publishSeed_fst,
      true_and]
  · rw [if_neg fun h => hname h.1]
    simp only [Publication.seed?, Function.update_of_ne hname]

/-- Linking the seed, with what follows, is a change. -/
theorem Change.of_linked {promotedAt : Timestamp} {inbox : Archive Digest Bytes}
    (hclear : Clear parse auth publication.receipts)
    (hinbox : publication.inboxes auth.spec.inbox = some inbox)
    {publication' : Publication}
    (hinboxes : publication'.inboxes = Function.update publication.inboxes auth.spec.inbox
      (some (publishSeed inbox auth.candidate.artifactDigest auth.payload).1))
    (hreceipts : publication'.receipts = publication.receipts ∨
      (publishSeed inbox auth.candidate.artifactDigest auth.payload).2 = .ok () ∧
      ∃ written, written <+: (auth.receipt sha256 promotedAt).payload ∧
        publication.receipts.put (stemOf auth.candidateDigest) written = some publication'.receipts ∧
        publication.receipts.get? (stemOf auth.candidateDigest) = none) :
    Change sha256 parse auth promotedAt publication publication' := by
  obtain ⟨inboxes', receipts', lock'⟩ := publication'
  subst hinboxes
  have hseed := seed?_update hinbox auth.candidate.artifactDigest auth.payload receipts' lock'
  constructor
  · intro name digest payload h
    rw [hseed]
    split
    · rename_i heq
      obtain ⟨rfl, rfl⟩ := heq
      rw [h]
      rfl
    · exact h
  · intro name digest payload h
    rw [hseed] at h
    split at h
    · rename_i heq
      obtain ⟨rfl, rfl⟩ := heq
      cases hold : publication.seed? auth.spec.inbox auth.candidate.artifactDigest with
      | none =>
        rw [hold] at h
        exact .inr ⟨rfl, rfl, (Option.some.inj h).symm⟩
      | some old =>
        rw [hold] at h
        exact .inl h
    · exact .inl h
  · rcases hreceipts with hsame | ⟨hchecked, hwritten⟩
    · exact .inl hsame
    · refine .inr ⟨hclear, ?_, hwritten⟩
      rw [hseed, if_pos ⟨rfl, rfl⟩]
      have hold : publication.seed? auth.spec.inbox auth.candidate.artifactDigest
          = inbox.get? auth.candidate.artifactDigest := by
        rw [Publication.seed?, hinbox, Option.bind_some]
      rw [hold]
      unfold publishSeed at hchecked
      cases hget : inbox.get? auth.candidate.artifactDigest with
      | none => rfl
      | some visible =>
        rw [hget] at hchecked
        rw [(checkSeed_eq_ok.mp hchecked).2]
        rfl
  · intro hbroken
    obtain ⟨receipts, hread, -⟩ := hclear
    exact absurd (allWhole_iff.mpr ⟨receipts, hread⟩) hbroken

theorem publish_change (promotedAt : Timestamp) (wall : ℕ) (probe : Option TargetHashes)
    (halt? : Option (Fault × Moment)) :
    Change sha256 parse auth promotedAt publication
      (publish sha256 parse auth promotedAt wall probe halt? publication).1 := by
  unfold publish
  cases acquireLock wall publication.lock with
  | error error => exact .same rfl rfl
  | ok u =>
    dsimp only
    generalize halt?.map Prod.snd = moment?
    unfold publishLocked
    dsimp only
    split
    · exact .same rfl rfl
    · exact .same rfl rfl
    · rename_i hfound
      have hclear : Clear parse auth publication.receipts := by
        simp only [bind_eq_ok, mapError_eq_ok] at hfound
        obtain ⟨receipts, hread, existing, hexisting, hrest⟩ := hfound
        have hnone : existing = none := by
          cases existing with
          | none => rfl
          | some receipt => cases hrest
        rw [hnone, existingReceipt_eq_none] at hexisting
        exact ⟨receipts, hread, hexisting⟩
      split
      · exact .same rfl rfl
      · unfold publishArtifact
        split
        · exact .same rfl rfl
        · rename_i inbox hinbox
          dsimp only
          split
          · exact .of_linked hclear hinbox rfl (.inl rfl)
          · rename_i hchecked
            split
            · exact .of_linked hclear hinbox rfl (.inl rfl)
            · unfold writeReceipt
              dsimp only
              split
              · exact .of_linked hclear hinbox rfl (.inl rfl)
              · rename_i hstem
                refine .of_linked hclear hinbox rfl (.inr ⟨hchecked, ?_⟩)
                have hwritten : ∀ written, ∃ files,
                    publication.receipts.put (stemOf auth.candidateDigest) written = some files :=
                  put_of_get?_eq_none hstem
                split
                · rename_i bytes _ _
                  obtain ⟨files, hput⟩ :=
                    hwritten ((auth.receipt sha256 promotedAt).payload.take bytes)
                  refine ⟨_, List.take_prefix bytes _, ?_, hstem⟩
                  dsimp only
                  rw [hput]
                  rfl
                · obtain ⟨files, hput⟩ := hwritten (auth.receipt sha256 promotedAt).payload
                  refine ⟨_, List.prefix_rfl, ?_, hstem⟩
                  dsimp only
                  rw [hput]
                  rfl

end Effect

end IouAi.Authority
