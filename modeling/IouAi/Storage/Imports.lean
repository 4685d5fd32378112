import IouAi.Storage.Stores
import IouAi.Wire.Texts

/-!
# Concurrent imports of decisions

`DecisionArchive.import_signed` reads the archive, finds no decision on its event, and then creates
the file of its own decision under the digest of that one. Nothing ties the creation to the reading:
of two imports on one event that both read first, both create (`exists_conflict`). Where no decision
on the event of an import appears between its reading and its creation, the archive holds at most one
decision on each event (`DecisionArchive.oneDecision`).
-/

namespace IouAi.Storage

open Authority Checks Files Threads Wire

namespace DecisionArchive

variable (sha256 : Sha256) (hmac : HmacSha256) (key : VerificationKey) (parse : Parse SignedDecision)

/-- The archive holds a decision: its whole text is in the file under its digest, and is read as this
decision. -/
def Holds (disk : Disk Digest) (signed : SignedDecision) : Prop :=
  (∃ file, disk.files (decisionFileDigest sha256 signed) = some file ∧ file.content = signed.payload) ∧
    parse signed.payload = some signed

/-- The archive holds at most one decision on each event. -/
def OneDecision (disk : Disk Digest) : Prop :=
  ∀ signed other, Holds sha256 parse disk signed → Holds sha256 parse disk other →
    signed.eventDigest = other.eventDigest → signed = other

/-- No file of another decision on the event of an import has appeared since the import began to read
the archive. -/
def Undisturbed (items : Set SignedDecision) : List (FileEntry Digest) → Prop :=
  Throughout fun earlier entry => ∀ signed ∈ items,
    entry.op = .create (decisionFileDigest sha256 signed) →
      entry.before.files (decisionFileDigest sha256 signed) = none →
        ∀ other ∈ items, other.eventDigest = signed.eventDigest →
          (entry.before.files (decisionFileDigest sha256 other)).isSome →
            ∃ listing ∈ earlier.head?, (listing.before.files (decisionFileDigest sha256 other)).isSome

/-- A thread has read the archive and found no decision on the event of its own one. -/
def Checked (trace : List (FileEntry Digest)) (signed : SignedDecision) : Prop :=
  ∃ listing names reads, trace = listing :: reads ∧ Listed listing names ∧
    ∀ name ∈ names, ∃ entry ∈ reads, ∃ bytes?, Met entry name bytes? ∧
      ∃ other, decode sha256 hmac key parse name bytes? = .ok other ∧
        other.eventDigest ≠ signed.eventDigest

/-- How imports write: they create the file of a decision when they have checked its event. -/
def importing (items : Set SignedDecision) : Conduct Digest where
  Fragment name bytes :=
    ∃ signed ∈ items, decisionFileDigest sha256 signed = name ∧ bytes <+: signed.payload
  Whole name bytes :=
    ∃ signed ∈ items, decisionFileDigest sha256 signed = name ∧ bytes = signed.payload
  Creates trace name :=
    ∃ signed ∈ items, decisionFileDigest sha256 signed = name ∧
      Checked sha256 hmac key parse trace signed

/-- Of the files of decisions on one event there is at most one. -/
def OnePerEvent (items : Set SignedDecision) (disk : Disk Digest) : Prop :=
  ∀ signed ∈ items, ∀ other ∈ items, (disk.files (decisionFileDigest sha256 signed)).isSome →
    (disk.files (decisionFileDigest sha256 other)).isSome →
      signed.eventDigest = other.eventDigest → signed = other

variable {sha256 hmac key parse} {items : Set SignedDecision}

/-! ## What a reader accepts -/

theorem decode_eq_ok {digest : Digest} {bytes? : Option Bytes} {signed : SignedDecision}
    (h : decode sha256 hmac key parse digest bytes? = .ok signed) :
    bytes? = some signed.payload ∧ decisionFileDigest sha256 signed = digest ∧
      parse signed.payload = some signed := by
  unfold decode readRegular at h
  cases bytes? with
  | none => cases h
  | some payload =>
    simp only [bind_assoc, pure_bind, raiseIf_bind_eq_ok, not_not] at h
    obtain ⟨-, hdigest, h⟩ := h
    cases hparse : parse payload with
    | none =>
      rw [hparse] at h
      cases h
    | some other =>
      simp only [hparse, raiseIf_bind_eq_ok, not_not, pure_eq_ok] at h
      obtain ⟨rfl, -, rfl⟩ := h
      exact ⟨rfl, hdigest, hparse⟩

theorem integral_toJson (decision : Decision) : Json.Integral decision.toJson := by
  cases decision <;>
    simp [Decision.toJson, TargetHashes.toJson, PromotionScope.toJson, Json.Integral,
      Json.IntegralFields]

/-- No text of a decision begins another one. -/
theorem payload_eq_of_isPrefix {signed other : SignedDecision}
    (h : signed.payload <+: other.payload) : signed.payload = other.payload := by
  have hfields : ∀ signed : SignedDecision, Json.IntegralFields
      [("decision", signed.decision.toJson), ("signature_hmac_sha256", .str signed.signatureHmacSha256)] :=
    fun signed => ⟨integral_toJson signed.decision, trivial, trivial⟩
  exact canonicalJson_eq_of_isPrefix (hfields signed) (hfields other) h

theorem eq_of_fileDigest (hreadable : Readable sha256 parse items) {signed other : SignedDecision}
    (hsigned : signed ∈ items) (hother : other ∈ items)
    (h : decisionFileDigest sha256 signed = decisionFileDigest sha256 other) : signed = other := by
  have hparse := hreadable.parse signed hsigned
  rw [hreadable.digest signed hsigned other hother h, hreadable.parse other hother] at hparse
  exact (Option.some.inj hparse).symm

/-- What a reader gets from the beginning of the file of a decision is that decision. -/
theorem eq_of_content (hreadable : Readable sha256 parse items) {disk : Disk Digest}
    (hsound : Sound (importing sha256 hmac key parse items) disk) {name : Digest} {file : File}
    (hfile : disk.files name = some file) {signed : SignedDecision}
    (hcontent : file.content = signed.payload) (hparse : parse signed.payload = some signed) :
    signed ∈ items ∧ decisionFileDigest sha256 signed = name := by
  obtain ⟨third, hthird, rfl, hprefix⟩ := hsound.fragment hfile
  rw [hcontent] at hprefix
  rw [payload_eq_of_isPrefix hprefix, hreadable.parse third hthird] at hparse
  rw [← Option.some.inj hparse]
  exact ⟨hthird, rfl⟩

/-- What has been checked has not been there. -/
theorem not_checked (hreadable : Readable sha256 parse items) {trace : List (FileEntry Digest)}
    (hsound : ∀ entry ∈ trace, Sound (importing sha256 hmac key parse items) entry.before)
    {signed other : SignedDecision} (hother : other ∈ items)
    (hevent : other.eventDigest = signed.eventDigest) {listing : FileEntry Digest}
    (hhead : listing ∈ trace.head?)
    (hlisted : (listing.before.files (decisionFileDigest sha256 other)).isSome) :
    ¬ Checked sha256 hmac key parse trace signed := by
  rintro ⟨listing', names, reads, rfl, ⟨-, hnames⟩, hreads⟩
  cases hhead
  obtain ⟨entry, hentry, bytes?, ⟨-, hbytes⟩, third, hdecode, hne⟩ := hreads _ ((hnames _).mpr hlisted)
  obtain ⟨rfl, -, hparse⟩ := decode_eq_ok hdecode
  obtain ⟨file, hfile, hcontent⟩ := Option.map_eq_some_iff.mp hbytes
  obtain ⟨hthird, hname⟩ := eq_of_content hreadable (hsound entry (List.mem_cons_of_mem _ hentry))
    hfile hcontent hparse
  rw [eq_of_fileDigest hreadable hthird hother hname] at hne
  exact hne hevent

/-! ## The calls of the archive are safe -/

/-- The decisions that pass their signature. -/
abbrev signedItems (hmac : HmacSha256) (key : VerificationKey) (items : Set SignedDecision) :
    Set SignedDecision :=
  {signed ∈ items | verifySignature hmac key signed}

theorem checked_of_readAll {trace : List (FileEntry Digest)} {found : List SignedDecision}
    {signed : SignedDecision} (h : ReadAll (shelf sha256 hmac key parse) trace (.ok found))
    (hscan : scanDecisions found signed = .ok false) :
    Checked sha256 hmac key parse trace signed := by
  obtain ⟨listing, names, reads, rfl, hlisted, -, hread | ⟨limit, tooMany, hlimit, -⟩⟩ := h
  rotate_left
  · cases hlimit
  have hnone : ∀ other ∈ found, other.eventDigest ≠ signed.eventDigest := by
    unfold scanDecisions at hscan
    split at hscan
    · rename_i hfind
      intro other hother
      simpa using List.find?_eq_none.mp hfind other hother
    · split at hscan <;> cases hscan
  refine ⟨listing, names, reads, rfl, hlisted, fun name hname => ?_⟩
  obtain ⟨entry, hentry, bytes?, hmet, other, hother, hdecode⟩ := hread name hname
  exact ⟨entry, hentry, bytes?, hmet, other, hdecode, hnone other hother⟩

theorem safe_call {program : FileProgram Digest (Except DecisionError (List SignedDecision))}
    (hcall : Call sha256 hmac key parse items program) (disk : Disk Digest) :
    Safe (writers (importing sha256 hmac key parse (signedItems hmac key items))) (fun _ _ => True)
      program [] disk := by
  cases hcall with
  | verifiedDecisions => exact safe_readAll fun _ _ _ => trivial
  | @importSigned signed hsigned outbox? current =>
    rw [importSigned]
    split
    · rename_i hverify
      refine Safe.bind (Q := fun result trace' =>
        ReadAll (shelf sha256 hmac key parse) trace' result) ?_ ?_
      · exact safe_readAll fun _ _ hread => hread
      · intro result trace disk' hread
        cases result with
        | error error => exact trivial
        | ok found =>
          rcases haccept : accept sha256 outbox? current signed found with error | _ | item
          · simp only [haccept]
            exact trivial
          · simp only [haccept]
            exact trivial
          · simp only [haccept]
            obtain ⟨rfl, hscan⟩ := eq_of_accept haccept
            have hmem : item ∈ signedItems hmac key items := ⟨hsigned, hverify⟩
            have hlook : held trace = none := by
              obtain ⟨-, -, -, -, -, hlook, -⟩ := hread
              exact held_append_of_isLook [] hlook
            refine Safe.bind (Q := fun _ _ => True) ?_ fun _ _ _ _ => trivial
            exact safe_createOnly hlook ⟨item, hmem, rfl, checked_of_readAll hread hscan⟩
              (fun start hstart => ⟨item, hmem, rfl, hstart⟩) ⟨item, hmem, rfl, rfl⟩
              fun _ _ _ => trivial
    · exact trivial

/-! ## One decision on each event -/

/-- What appears on the disk has been created. -/
theorem isSome_of_exec {C : Conduct Digest} {trace : List (FileEntry Digest)} {disk disk' : Disk Digest}
    {op : FileOp Digest} {outcome : op.Result} (hwrites : Writes C trace op)
    (hexec : Exec disk op outcome disk') {name : Digest} (h : (disk'.files name).isSome) :
    (disk.files name).isSome ∨ (op = .create name ∧ disk.files name = none) := by
  cases hexec with
  | @created name' hfree =>
    rcases eq_or_ne name name' with rfl | hne
    · exact .inr ⟨rfl, hfree⟩
    · rw [Disk.files_create, Function.update_of_ne hne] at h
      exact .inl h
  | appended name' byte =>
    unfold Disk.append at h
    split at h
    · rename_i file hfile
      split at h
      · exact .inl h
      · rcases eq_or_ne name name' with rfl | hne
        · exact .inl (by rw [hfile]; rfl)
        · rw [Disk.files_set, Function.update_of_ne hne] at h
          exact .inl h
    · exact .inl h
  | closed name' =>
    unfold Disk.close at h
    split at h
    · rename_i file hfile
      rcases eq_or_ne name name' with rfl | hne
      · exact .inl (by rw [hfile]; rfl)
      · rw [Disk.files_set, Function.update_of_ne hne] at h
        exact .inl h
    · exact .inl h
  | linked => exact hwrites.elim
  | @unlinked name' _ =>
    rcases eq_or_ne name name' with rfl | hne
    · rw [Disk.files_set, Function.update_self] at h
      cases h
    · rw [Disk.files_set, Function.update_of_ne hne] at h
      exact .inl h
  | _ => exact .inl h

/-- The step of an undisturbed import. -/
theorem onePerEvent_of_exec (hreadable : Readable sha256 parse items)
    {disk disk' : Disk Digest} {trace : List (FileEntry Digest)} {op : FileOp Digest}
    {outcome : op.Result}
    (hsound : ∀ entry ∈ trace, Sound (importing sha256 hmac key parse items) entry.before)
    (hwrites : Writes (importing sha256 hmac key parse items) trace op)
    (hexec : Exec disk op outcome disk')
    (hundisturbed : Undisturbed sha256 items (trace ++ [⟨disk, op, outcome⟩]))
    (h : OnePerEvent sha256 items disk) : OnePerEvent sha256 items disk' := by
  have hnew : ∀ signed ∈ items, ∀ other ∈ items, op = .create (decisionFileDigest sha256 signed) →
      disk.files (decisionFileDigest sha256 signed) = none →
        (disk.files (decisionFileDigest sha256 other)).isSome →
          other.eventDigest ≠ signed.eventDigest := by
    intro signed hsigned other hother hop hfree hsome hevent
    obtain ⟨listing, hlisting, hlisted⟩ :=
      hundisturbed.last signed hsigned hop hfree other hother hevent hsome
    subst hop
    obtain ⟨-, -, third, hthird, hname, hchecked⟩ := hwrites
    obtain rfl := eq_of_fileDigest hreadable hthird hsigned hname
    exact not_checked hreadable hsound hother hevent hlisting hlisted hchecked
  intro signed hsigned other hother hsome hsome' hevent
  rcases isSome_of_exec hwrites hexec hsome with hold | ⟨hop, hfree⟩
  · rcases isSome_of_exec hwrites hexec hsome' with hold' | ⟨hop, hfree⟩
    · exact h signed hsigned other hother hold hold' hevent
    · exact absurd hevent (hnew other hother signed hsigned hop hfree hold)
  · rcases isSome_of_exec hwrites hexec hsome' with hold' | ⟨hop', -⟩
    · exact absurd hevent.symm (hnew signed hsigned other hother hop hfree hold')
    · rw [hop] at hop'
      exact eq_of_fileDigest hreadable hsigned hother (FileOp.create.inj hop')

theorem Readable.mono {items' : Set SignedDecision} (h : Readable sha256 parse items)
    (hsub : items' ⊆ items) : Readable sha256 parse items' where
  parse signed hsigned := h.parse signed (hsub hsigned)
  digest signed hsigned other hother := h.digest signed (hsub hsigned) other (hsub hother)

/-- The invariant of concurrent imports. -/
theorem traced (hreadable : Readable sha256 parse items)
    {sys : ShelfSystem Digest SignedDecision DecisionError}
    (h : ShelfReachable (Call sha256 hmac key parse items) sys) :
    System.Traced (writers (importing sha256 hmac key parse (signedItems hmac key items)))
      (fun _ _ => True) (fun disk traces =>
        Kept (importing sha256 hmac key parse (signedItems hmac key items)) disk traces ∧
          ((∀ trace ∈ traces, Undisturbed sha256 (signedItems hmac key items) trace) →
            OnePerEvent sha256 (signedItems hmac key items) disk)) sys := by
  have hverified : Readable sha256 parse (signedItems hmac key items) :=
    hreadable.mono fun _ h => h.1
  have hempty : OnePerEvent sha256 (signedItems hmac key items) .empty := by
    intro signed _ other _ hsome
    cases hsome
  refine System.traced_reachable trivial ⟨Kept.empty, fun _ => hempty⟩ ?_ ?_ ?_ ?_ h
  · exact fun program hcall disk _ => safe_call hcall disk
  · rintro disk traces ⟨hkept, hone⟩
    exact ⟨hkept.start, fun hall => hone fun trace htrace => hall trace (List.mem_append_left _ htrace)⟩
  · rintro disk before trace after op outcome disk' - ⟨hkept, hone⟩ hwrites hexec
    refine ⟨hkept.exec hwrites hexec, fun hall => ?_⟩
    have hmine := hall (trace ++ [⟨disk, op, outcome⟩]) (by simp)
    exact onePerEvent_of_exec hverified (hkept.before_sound trace (by simp)) hwrites hexec hmine
      (hone (forall_mem_replace hall hmine.of_append))
  · rintro disk traces disk' - ⟨hkept, hone⟩ htick
    refine ⟨hkept.tick htick, fun hall => ?_⟩
    cases htick
    exact hone hall

/-- **One decision on each event.** When no decision on the event of an import appears between its
reading of the archive and its creation of a file, the archive holds at most one decision on each
event. -/
theorem oneDecision (hreadable : Readable sha256 parse items)
    {sys : ShelfSystem Digest SignedDecision DecisionError}
    (h : ShelfReachable (Call sha256 hmac key parse items) sys)
    (hundisturbed : ∀ thread ∈ sys.threads,
      Undisturbed sha256 (signedItems hmac key items) thread.trace) :
    OneDecision sha256 parse sys.state := by
  have hverified : Readable sha256 parse (signedItems hmac key items) :=
    hreadable.mono fun _ h => h.1
  obtain ⟨hkept, hone⟩ := (traced hreadable h).history
  have hper := hone (by
    intro trace htrace
    obtain ⟨thread, hthread, rfl⟩ := List.mem_map.mp htrace
    exact hundisturbed thread hthread)
  have hmem : ∀ signed, Holds sha256 parse sys.state signed →
      signed ∈ signedItems hmac key items ∧
        (sys.state.files (decisionFileDigest sha256 signed)).isSome := by
    rintro signed ⟨⟨file, hfile, hcontent⟩, hparse⟩
    refine ⟨(eq_of_content hverified hkept.sound hfile hcontent hparse).1, ?_⟩
    rw [hfile]
    rfl
  intro signed other hsigned hother
  obtain ⟨hsigned, hsome⟩ := hmem signed hsigned
  obtain ⟨hother, hsome'⟩ := hmem other hother
  exact hper signed hsigned other hother hsome hsome'

/-! ## Two decisions on one event -/

/-- Two imports on one event read the empty archive, and then each stores its decision. -/
theorem exists_conflict {outbox? : Option (Outbox sha256)} {current : Calendar.Datetime}
    {signed other : SignedDecision} (hsigned : signed ∈ items) (hother : other ∈ items)
    (hverify : verifySignature hmac key signed) (hverify' : verifySignature hmac key other)
    (haccept : accept sha256 outbox? current signed [] = .ok (some signed))
    (haccept' : accept sha256 outbox? current other [] = .ok (some other))
    (hname : decisionFileDigest sha256 signed ≠ decisionFileDigest sha256 other)
    (hparse : parse signed.payload = some signed) (hparse' : parse other.payload = some other) :
    ∃ sys, ShelfReachable (Call sha256 hmac key parse items) sys ∧
      Holds sha256 parse sys.state signed ∧ Holds sha256 parse sys.state other := by
  have hcall : ∀ signed ∈ items, verifySignature hmac key signed →
      Call sha256 hmac key parse items
        (visit (shelf sha256 hmac key parse) (accept sha256 outbox? current signed)) := by
    intro signed hsigned hverify
    have himport : Call sha256 hmac key parse items
        (importSigned sha256 hmac key parse outbox? current signed) :=
      .importSigned hsigned outbox? current
    rwa [importSigned, if_pos hverify] at himport
  obtain ⟨sys, file, file', hreach, hfile, hcontent, hfile', hcontent'⟩ :=
    exists_both (shelf sha256 hmac key parse) (hcall signed hsigned hverify)
      (hcall other hother hverify') haccept haccept' hname
  exact ⟨sys, hreach, ⟨⟨file, hfile, hcontent⟩, hparse⟩, ⟨file', hfile', hcontent'⟩, hparse'⟩

/-- A digest that repeats the first letter of the action of a decision. -/
def actionSha256 : Sha256 := fun payload => Vector.replicate 32 (payload.getD 23 0)

def zeroHmac : HmacSha256 := fun _ _ => Vector.replicate 32 0

def zeroKey : VerificationKey := ⟨List.replicate 32 0, by decide⟩

def sampleItem : QuarantineItem where
  envelopeDigest := contentDigest PromptHost.zeroBytes []
  proposalHash := contentDigest PromptHost.zeroBytes []
  targetHashes := ⟨contentDigest PromptHost.zeroBytes [], contentDigest PromptHost.zeroBytes [],
    contentDigest PromptHost.zeroBytes [], contentDigest PromptHost.zeroBytes []⟩
  compiledArtifactHashes := []

/-- 2026-01-01. -/
def sampleInstant : Calendar.Datetime := ⟨63902822400000000, Calendar.newYear_lt⟩

/-- A proposal with thirty minutes for the answer. -/
def sampleEvent : ProposalQuarantinedEvent actionSha256 :=
  proposalEvent actionSha256 sampleInstant ⟨63902824200000000, by decide⟩ sampleItem
    (Vector.replicate 32 0)

def sampleDecision (action : OfflineAction) (reasonCode : OfflineReason) : SignedDecision :=
  signDecision zeroHmac zeroKey (.human {
    core := {
      signerId := .operatorLocal
      channel := .operator
      eventDigest := (ApprovalEvent.offline sampleEvent).digest
      approvalBindingDigest := sampleEvent.approval.bindingDigest
      decisionNonce := sampleEvent.approval.nonce
      humanCode := sampleEvent.approval.humanCode
      senderBinding := contentDigest PromptHost.zeroBytes []
      issuedAt := sampleEvent.createdAt
      expiresAt := sampleEvent.approval.expiresAt }
    envelopeDigest := sampleEvent.envelopeDigest
    targetHashes := sampleEvent.targetHashes
    action := action
    reasonCode := reasonCode
    signer_human := by decide })

def approval : SignedDecision := sampleDecision .approveForOfflineValidation .operatorApproved

def denial : SignedDecision := sampleDecision .deny .operatorDenied

theorem payload_sampleDecision (action : OfflineAction) (reasonCode : OfflineReason) :
    utf8 ("\x7b\"decision\":\x7b\"action\":\"" ++ action.text)
      <+: (sampleDecision action reasonCode).payload := by
  have hquote : (Json.python.quote action.text).toList = '"' :: action.text.toList ++ ['"'] := by
    cases action <;> decide +kernel
  have hkeys : Json.python.sortKeys ["schema_version", "signer_id", "channel", "event_digest",
      "envelope_digest", "target_hashes", "approval_binding_digest", "decision_nonce", "human_code",
      "sender_binding", "action", "reason_code", "issued_at", "expires_at"]
      = "action" :: ["approval_binding_digest", "channel", "decision_nonce", "envelope_digest",
        "event_digest", "expires_at", "human_code", "issued_at", "reason_code", "schema_version",
        "sender_binding", "signer_id", "target_hashes"] := by decide +kernel
  have hkeys' : Json.python.sortKeys ["decision", "signature_hmac_sha256"]
      = "decision" :: ["signature_hmac_sha256"] := by decide +kernel
  have haction : '"' :: action.text.toList <+: (Json.python.encode (.str action.text)).toList := by
    rw [Json.Encoder.encode, hquote]
    exact List.prefix_append _ _
  have hinner : _ <+: (Json.python.encode (sampleDecision action reasonCode).decision.toJson).toList :=
    isPrefix_encode_obj hkeys rfl haction
  have houter : _ <+: (Json.python.encode (.obj [
      ("decision", (sampleDecision action reasonCode).decision.toJson),
      ("signature_hmac_sha256",
        .str (sampleDecision action reasonCode).signatureHmacSha256)])).toList :=
    isPrefix_encode_obj hkeys' rfl hinner
  refine utf8_isPrefix ?_
  cases action <;> exact houter

theorem eventDigest_sampleDecision (action : OfflineAction) (reasonCode : OfflineReason) :
    (sampleDecision action reasonCode).eventDigest = (ApprovalEvent.offline sampleEvent).digest := rfl

theorem agrees_sampleDecision {action : OfflineAction} {reasonCode : OfflineReason}
    (hreason : ∀ human, (sampleDecision action reasonCode).decision = .human human →
      human.reasonCode = human.expectedReason) :
    Agrees (.offline sampleEvent) (sampleDecision action reasonCode).decision where
  kind := .offline _ _
  envelope := rfl
  targets := rfl
  approvalBinding := rfl
  nonce := rfl
  code := rfl
  expiration := rfl
  human := hreason
  execution _ _ h := by cases h

theorem inWindow_sampleDecision (action : OfflineAction) (reasonCode : OfflineReason) :
    InWindow (.offline sampleEvent) (sampleDecision action reasonCode).decision sampleInstant where
  times := by
    refine ⟨_, _, _, ⟨63902822700000000, by decide⟩, instantOf_timestamp sampleInstant,
      instantOf_timestamp _, instantOf_timestamp sampleInstant, ?_, ?_, ?_, ?_, ?_⟩
      <;> decide +kernel

theorem accept_sampleDecision {action : OfflineAction} {reasonCode : OfflineReason}
    (hreason : ∀ human, (sampleDecision action reasonCode).decision = .human human →
      human.reasonCode = human.expectedReason) :
    accept actionSha256 (some [.proposalQuarantined sampleEvent]) sampleInstant
      (sampleDecision action reasonCode) [] = .ok (some (sampleDecision action reasonCode)) := by
  have hfind : findEvent [.proposalQuarantined sampleEvent]
      (sampleDecision action reasonCode).eventDigest = .ok (.offline sampleEvent) := by
    rw [eventDigest_sampleDecision]
    exact findEvent_singleton (.offline sampleEvent)
  have hcheck : checkDecision [.proposalQuarantined sampleEvent] (sampleDecision action reasonCode)
      sampleInstant = .ok () :=
    bind_eq_ok.mpr ⟨_, hfind, bind_eq_ok.mpr ⟨(), checkBinding_eq_ok.mpr (agrees_sampleDecision hreason),
      checkWindow_eq_ok.mpr (inWindow_sampleDecision action reasonCode)⟩⟩
  exact bind_eq_ok.mpr ⟨false, rfl, bind_eq_ok.mpr ⟨(), hcheck, rfl⟩⟩

/-- The digest of a sample repeats the first letter of its action. -/
theorem sha256_sampleDecision (action : OfflineAction) (reasonCode : OfflineReason) {byte : UInt8}
    (h : (utf8 ("\x7b\"decision\":\x7b\"action\":\"" ++ action.text))[23]? = some byte) :
    actionSha256 (sampleDecision action reasonCode).payload = Vector.replicate 32 byte := by
  obtain ⟨rest, hrest⟩ := payload_sampleDecision action reasonCode
  have hlt := (List.getElem?_eq_some_iff.mp h).1
  rw [actionSha256, ← hrest, List.getD_eq_getElem?_getD, List.getElem?_append_left hlt, h]
  rfl

theorem sha256_approval : actionSha256 approval.payload = Vector.replicate 32 97 :=
  sha256_sampleDecision _ _ (by rw [utf8_eq_map (by decide)]; rfl)

theorem sha256_denial : actionSha256 denial.payload = Vector.replicate 32 100 :=
  sha256_sampleDecision _ _ (by rw [utf8_eq_map (by decide)]; rfl)

theorem fileDigest_approval_ne :
    decisionFileDigest actionSha256 approval ≠ decisionFileDigest actionSha256 denial := by
  intro h
  have htext := congrArg Subtype.val h
  simp only [decisionFileDigest, contentDigest, sha256_approval, sha256_denial] at htext
  exact absurd htext (by decide +kernel)

theorem payload_approval_ne : approval.payload ≠ denial.payload :=
  fun h => fileDigest_approval_ne (congrArg (contentDigest actionSha256) h)

/-- A parser that knows the two decisions. -/
def parseSamples : Parse SignedDecision := fun payload =>
  if payload = approval.payload then some approval
  else if payload = denial.payload then some denial else none

theorem verify_approval : verifySignature zeroHmac zeroKey approval :=
  verifySignature_signDecision zeroHmac zeroKey _

theorem verify_denial : verifySignature zeroHmac zeroKey denial :=
  verifySignature_signDecision zeroHmac zeroKey _

theorem parse_approval : parseSamples approval.payload = some approval := if_pos rfl

theorem parse_denial : parseSamples denial.payload = some denial := by
  rw [parseSamples, if_neg payload_approval_ne.symm, if_pos rfl]

theorem readable_samples : Readable actionSha256 parseSamples {approval, denial} where
  parse := by
    rintro _ (rfl | rfl)
    · exact parse_approval
    · exact parse_denial
  digest := by
    rintro _ (rfl | rfl) _ (rfl | rfl) h
    · rfl
    · exact absurd h fileDigest_approval_ne
    · exact absurd h.symm fileDigest_approval_ne
    · rfl

theorem accept_approval : accept actionSha256 (some [.proposalQuarantined sampleEvent]) sampleInstant
    approval [] = .ok (some approval) :=
  accept_sampleDecision (by rintro _ ⟨⟩; rfl)

theorem accept_denial : accept actionSha256 (some [.proposalQuarantined sampleEvent]) sampleInstant
    denial [] = .ok (some denial) :=
  accept_sampleDecision (by rintro _ ⟨⟩; rfl)

/-- The approval of a proposal is imported, and the archive holds one decision on the proposal. -/
theorem oneDecision_approval :
    ∃ sys, ShelfReachable (Call actionSha256 zeroHmac zeroKey parseSamples {approval, denial}) sys ∧
      Holds actionSha256 parseSamples sys.state approval ∧
      OneDecision actionSha256 parseSamples sys.state := by
  have hcall : Call actionSha256 zeroHmac zeroKey parseSamples {approval, denial}
      (importSigned actionSha256 zeroHmac zeroKey parseSamples
        (some [.proposalQuarantined sampleEvent]) sampleInstant approval) :=
    .importSigned (.inl rfl) _ _
  rw [importSigned, if_pos verify_approval] at hcall
  obtain ⟨sys, thread, file, hreach, hthreads, hfile, hcontent, hempty⟩ :=
    exists_visited (shelf actionSha256 zeroHmac zeroKey parseSamples) hcall accept_approval
  refine ⟨sys, hreach, ⟨⟨file, hfile, hcontent⟩, parse_approval⟩,
    oneDecision readable_samples hreach ?_⟩
  rw [hthreads]
  rintro thread' hthread earlier entry later heq signed _ hop _ other _ _ hsome
  rw [List.mem_singleton.mp hthread] at heq
  rw [hempty entry (by rw [heq]; simp) _ hop] at hsome
  cases hsome

/-- One importer stores the approval of a proposal and another one its denial. -/
theorem not_oneDecision :
    Readable actionSha256 parseSamples {approval, denial} ∧
      ∃ sys, ShelfReachable (Call actionSha256 zeroHmac zeroKey parseSamples {approval, denial}) sys ∧
        ¬ OneDecision actionSha256 parseSamples sys.state := by
  have hitems : approval ∈ ({approval, denial} : Set SignedDecision) := .inl rfl
  obtain ⟨sys, hreach, happroval, hdenial⟩ := exists_conflict hitems (.inr rfl) verify_approval verify_denial accept_approval accept_denial
    fileDigest_approval_ne parse_approval parse_denial
  refine ⟨readable_samples, sys, hreach, fun hone => ?_⟩
  have hevent : approval.eventDigest = denial.eventDigest := by
    rw [approval, denial, eventDigest_sampleDecision, eventDigest_sampleDecision]
  exact payload_approval_ne
    (congrArg SignedDecision.payload (hone approval denial happroval hdenial hevent))

end DecisionArchive

end IouAi.Storage
