import IouAi.Relay.Polling

/-!
# Polls that go through

A poll can end and succeed exactly when it can read every checkpoint, accepts the page, and meets no
file that it refuses: every file of a decision of the page, and that of the checkpoint behind it, is
either missing or whole (`poll_succeeds_iff`).
-/

namespace IouAi.Relay

open Authority Checks Files Storage Threads Wire

variable {sha256 : Sha256} {parse : Parse RelayCursorCheckpoint} {binding : Digest}
  {disk disk' : Disk RelayFile}
  {fetch : RelayCursor → Except NotificationError (RelayDecisionPage sha256)}

/-- The file under a name, if there is one, passes a check. -/
def Passes (disk : Disk RelayFile) (name : RelayFile)
    (recheck : Option Bytes → Except NotificationError Unit) : Prop :=
  ∀ file, disk.files name = some file → recheck (some file.content) = .ok ()

/-! ## Cursors -/

theorem ReadsCursor.le {cursor other : RelayCursor}
    (h : ReadsCursor sha256 parse binding disk cursor)
    (h' : ReadsCursor sha256 parse binding disk other) : cursor ≤ other := by
  rcases h.attained with rfl | ⟨digest, file, checkpoint, hfile, hread, rfl⟩
  · exact Nat.zero_le other.val
  · obtain ⟨checkpoint', hread', hle⟩ := h'.readable digest file hfile
    rw [hread] at hread'
    cases hread'
    exact hle

/-- A disk has one cursor. -/
theorem ReadsCursor.unique {cursor other : RelayCursor}
    (h : ReadsCursor sha256 parse binding disk cursor)
    (h' : ReadsCursor sha256 parse binding disk other) : cursor = other :=
  le_antisymm (h.le h') (h'.le h)

/-- The decisions that are put do not touch the checkpoints. -/
theorem cursors_of_items {data : List SignedDecision} (h : Adds (ItemOf sha256 data) disk disk')
    (digest : Digest) : disk'.files (.cursors, digest) = disk.files (.cursors, digest) := by
  rcases h (.cursors, digest) with hsame | ⟨-, _, -, _, -, hname, -⟩
  · exact hsame
  · cases hname

theorem ReadsCursor.items {cursor : RelayCursor} {data : List SignedDecision}
    (hitems : Adds (ItemOf sha256 data) disk disk')
    (h : ReadsCursor sha256 parse binding disk cursor) :
    ReadsCursor sha256 parse binding disk' cursor := by
  constructor
  · intro digest file hfile
    rw [cursors_of_items hitems] at hfile
    exact h.readable digest file hfile
  · refine h.attained.imp_right fun ⟨digest, file, checkpoint, hfile, hread⟩ => ?_
    exact ⟨digest, file, checkpoint, by rw [cursors_of_items hitems, hfile], hread⟩

namespace RelayCursorStore

/-- A poller can read the cursor. -/
theorem completes_current (hlist : Listable disk) {cursor : RelayCursor}
    (hcursor : ReadsCursor sha256 parse binding disk cursor) :
    Completes Files.semantics (current sha256 parse binding) disk (.ok cursor) disk := by
  obtain ⟨names, hnodup, hnames⟩ := hlist.exists_names
  have hreads : ∀ name ∈ (shelf sha256 parse binding).order
      (names.filter fun name => name.1 = .cursors),
      ∃ checkpoint, reading (shelf sha256 parse binding) disk name = .ok checkpoint := by
    rintro ⟨directory, digest⟩ hname
    obtain ⟨rfl, hname⟩ := mem_order.mp hname
    obtain ⟨file, hfile⟩ := Option.isSome_iff_exists.mp ((hnames _).mp hname)
    obtain ⟨checkpoint, hread, -⟩ := hcursor.readable digest file hfile
    refine ⟨checkpoint, ?_⟩
    rw [reading, hfile]
    exact hread
  cases hfound : ((shelf sha256 parse binding).order
      (names.filter fun name => name.1 = .cursors)).mapM (reading (shelf sha256 parse binding) disk) with
  | error error =>
    obtain ⟨before, name, after, heq, -, hname⟩ := mapM_eq_error.mp hfound
    obtain ⟨checkpoint, hread⟩ := hreads name (by simp [heq])
    rw [hread] at hname
    cases hname
  | ok found =>
    have hcompletes : Completes Files.semantics (current sha256 parse binding) disk
        (.ok (latest found)) disk := by
      refine completes_call.mpr ⟨names, disk, .list hnodup hnames, ?_⟩
      refine completes_bind.mpr ⟨.ok found, disk, completes_readItems.mpr ⟨hfound.symm, rfl⟩, ?_⟩
      exact completes_done.mpr ⟨rfl, rfl⟩
    rwa [hcursor.unique (readsCursor_of_completes hcompletes)]

theorem recheck_eq_ok {checkpoint : RelayCursorCheckpoint} {bytes : Bytes} :
    recheck checkpoint (some bytes) = .ok ()
      ↔ bytes = checkpoint.payload ∧ checkpoint.payload.length ≤ 16 * 1024 := by
  simp only [recheck, readCheckpointFile, bind_assoc, pure_bind, raiseIf_bind_eq_ok, raiseIf_eq_ok,
    not_not, Nat.not_lt]
  constructor
  · rintro ⟨hbounded, rfl⟩
    exact ⟨rfl, hbounded⟩
  · rintro ⟨rfl, hbounded⟩
    exact ⟨hbounded, rfl⟩

/-- The checkpoint of the cursor that is read, where it has a file, is whole. -/
theorem passes_current {cursor : RelayCursor}
    (h : ReadsCursor sha256 parse binding disk cursor) :
    Passes disk (nameOf sha256 ⟨binding, cursor⟩) (recheck ⟨binding, cursor⟩) := by
  intro file hfile
  rw [recheck_eq_ok]
  obtain ⟨checkpoint, hread, hle⟩ := h.readable _ file hfile
  obtain ⟨hcontent, hbounded, -, -, hbinding⟩ := decodeCheckpoint_eq_ok.mp hread
  have hsame : checkpoint.nextCursor = cursor →
      file.content = (⟨binding, cursor⟩ : RelayCursorCheckpoint).payload ∧
        (⟨binding, cursor⟩ : RelayCursorCheckpoint).payload.length ≤ 16 * 1024 := by
    rintro rfl
    subst hbinding
    exact ⟨Option.some.inj hcontent, hbounded⟩
  rcases h.attained with rfl | ⟨digest, file', reached, hfile', hread', rfl⟩
  · exact hsame (le_antisymm hle (Nat.zero_le _))
  · obtain ⟨hcontent', hbounded', hdigest, -, hbinding'⟩ := decodeCheckpoint_eq_ok.mp hread'
    subst hbinding'
    have hname : nameOf sha256 ⟨reached.endpointBinding, reached.nextCursor⟩ = (.cursors, digest) :=
      congrArg (Prod.mk Directory.cursors) hdigest
    rw [hname, hfile'] at hfile
    cases hfile
    exact ⟨Option.some.inj hcontent', hbounded'⟩

/-- The cursor can be moved to a place that is not before it, unless the checkpoint is torn. -/
theorem advance_succeeds_iff (hlist : Listable disk) {cursor next : RelayCursor}
    (hcursor : ReadsCursor sha256 parse binding disk cursor) :
    (∃ disk', Completes Files.semantics (advance sha256 parse binding next) disk (.ok ()) disk')
      ↔ cursor ≤ next ∧ Passes disk (nameOf sha256 ⟨binding, next⟩) (recheck ⟨binding, next⟩) := by
  constructor
  · rintro ⟨disk', h⟩
    obtain ⟨result, s₁, hcurrent, h⟩ := completes_bind.mp h
    obtain rfl := leaves_current hcurrent.leaves
    cases result with
    | error error => cases (completes_done.mp h).1
    | ok current =>
      obtain rfl := hcursor.unique (readsCursor_of_completes hcurrent)
      dsimp only at h
      split at h
      · cases (completes_done.mp h).1
      · rename_i hle
        refine ⟨not_lt.mp hle, ?_⟩
        split at h
        · rename_i hsame
          rw [hsame]
          exact passes_current hcursor
        · obtain ⟨stored, s₂, hwrite, hdone⟩ := completes_bind.mp h
          obtain ⟨hstored, -⟩ := completes_done.mp hdone
          cases stored with
          | error error => cases hstored
          | ok stored => exact createOrCompare_succeeds_iff.mp ⟨stored, s₂, hwrite⟩
  · rintro ⟨hle, hpasses⟩
    have hcurrent := completes_current hlist hcursor
    by_cases hsame : next = cursor
    · refine ⟨disk, completes_bind.mpr ⟨_, _, hcurrent, ?_⟩⟩
      dsimp only
      rw [if_neg (not_lt.mpr hle), if_pos hsame]
      exact completes_done.mpr ⟨rfl, rfl⟩
    · obtain ⟨created, disk', hwrite⟩ := createOrCompare_succeeds_iff.mpr hpasses
      refine ⟨disk', completes_bind.mpr ⟨_, _, hcurrent, ?_⟩⟩
      dsimp only
      rw [if_neg (not_lt.mpr hle), if_neg hsame]
      exact completes_bind.mpr ⟨_, _, hwrite, completes_done.mpr ⟨rfl, rfl⟩⟩

end RelayCursorStore

/-! ## Decisions -/

/-- The decisions of a page can be put, unless the file of one of them is torn. -/
theorem putAll_succeeds_iff {data : List SignedDecision}
    (hdistinct : (data.map (decisionFileDigest sha256)).Nodup) :
    (∃ stored disk', Completes Files.semantics (putAll sha256 data) disk (.ok stored) disk')
      ↔ ∀ signed ∈ data,
        Passes disk (.inbox, decisionFileDigest sha256 signed) (recheckItem signed) := by
  induction data generalizing disk with
  | nil => exact ⟨fun _ => by simp, fun _ => ⟨0, disk, completes_done.mpr ⟨rfl, rfl⟩⟩⟩
  | cons signed rest ih =>
    rw [List.map_cons, List.nodup_cons] at hdistinct
    obtain ⟨hnew, hdistinct⟩ := hdistinct
    -- the first decision has another name than the rest
    have hrest : ∀ {later result}, Completes Files.semantics (DecisionInbox.put sha256 signed) disk
        result later → ((∀ other ∈ rest,
          Passes later (.inbox, decisionFileDigest sha256 other) (recheckItem other)) ↔
            ∀ other ∈ rest,
              Passes disk (.inbox, decisionFileDigest sha256 other) (recheckItem other)) := by
      intro later result hput
      refine forall₂_congr fun other hother => ?_
      rw [Passes, leaves_put_other hput.leaves hnew hother, Passes]
    rw [List.forall_mem_cons]
    constructor
    · rintro ⟨stored, disk', h⟩
      obtain ⟨result, s₁, hput, h⟩ := completes_bind.mp h
      cases result with
      | error error => cases (completes_done.mp h).1
      | ok created =>
        obtain ⟨result, s₂, hothers, hdone⟩ := completes_bind.mp h
        obtain ⟨hresult, -⟩ := completes_done.mp hdone
        cases result with
        | error error => cases hresult
        | ok others =>
          exact ⟨createOrCompare_succeeds_iff.mp ⟨created, s₁, hput⟩,
            (hrest hput).mp ((ih hdistinct).mp ⟨others, s₂, hothers⟩)⟩
    · rintro ⟨hpasses, hothers⟩
      obtain ⟨created, s₁, hput⟩ := createOrCompare_succeeds_iff.mpr hpasses
      obtain ⟨others, s₂, hothers⟩ := (ih hdistinct).mpr ((hrest hput).mpr hothers)
      refine ⟨created.toNat + others, s₂, completes_bind.mpr ⟨.ok created, s₁, hput, ?_⟩⟩
      exact completes_bind.mpr ⟨.ok others, s₂, hothers, completes_done.mpr ⟨rfl, rfl⟩⟩

/-! ## Polls -/

theorem passes_checkpoint {next : RelayCursor} {data : List SignedDecision}
    (hitems : Adds (ItemOf sha256 data) disk disk') :
    Passes disk' (RelayCursorStore.nameOf sha256 ⟨binding, next⟩)
        (RelayCursorStore.recheck ⟨binding, next⟩)
      ↔ Passes disk (RelayCursorStore.nameOf sha256 ⟨binding, next⟩)
        (RelayCursorStore.recheck ⟨binding, next⟩) := by
  have hsame : disk'.files (RelayCursorStore.nameOf sha256 ⟨binding, next⟩)
      = disk.files (RelayCursorStore.nameOf sha256 ⟨binding, next⟩) := cursors_of_items hitems _
  rw [Passes, hsame, Passes]

theorem exists_pollDecisions (hlist : Listable disk) {cursor : RelayCursor}
    {page : RelayDecisionPage sha256} (hcursor : ReadsCursor sha256 parse binding disk cursor)
    (hpage : fetch cursor = .ok page) (hle : cursor ≤ page.nextCursor)
    (hitems : ∀ signed ∈ page.data,
      Passes disk (.inbox, decisionFileDigest sha256 signed) (recheckItem signed))
    (hcheckpoint : Passes disk (RelayCursorStore.nameOf sha256 ⟨binding, page.nextCursor⟩)
      (RelayCursorStore.recheck ⟨binding, page.nextCursor⟩)) :
    ∃ result disk', Completes Files.semantics (pollDecisions sha256 parse binding fetch) disk
      (.ok result) disk' := by
  obtain ⟨stored, mid, hput⟩ := (putAll_succeeds_iff page.data_distinct).mpr hitems
  have hadds := leaves_putAll hput.leaves
  obtain ⟨disk', hadvance⟩ := (RelayCursorStore.advance_succeeds_iff
    (hput.leaves.listable hlist) (hcursor.items hadds)).mpr
      ⟨hle, (passes_checkpoint hadds).mpr hcheckpoint⟩
  refine ⟨(page.data.length, stored, page.nextCursor), disk', completes_bind.mpr
    ⟨.ok cursor, disk, RelayCursorStore.completes_current hlist hcursor, ?_⟩⟩
  dsimp only
  rw [hpage]
  refine completes_bind.mpr ⟨.ok stored, mid, hput, ?_⟩
  exact completes_bind.mpr ⟨.ok (), disk', hadvance, completes_done.mpr ⟨rfl, rfl⟩⟩

/-- What a poll that succeeds has done: it returns how many decisions it received, how many of them
are new, and the cursor behind them, which is stored. -/
theorem completes_pollDecisions {received stored : ℕ} {next : RelayCursor}
    (h : Completes Files.semantics (pollDecisions sha256 parse binding fetch) disk
      (.ok (received, stored, next)) disk') :
    ∃ cursor page, ReadsCursor sha256 parse binding disk cursor ∧ fetch cursor = .ok page ∧
      received = page.data.length ∧ next = page.nextCursor ∧
      stored = page.data.countP (fun signed =>
        (disk.files (.inbox, decisionFileDigest sha256 signed)).isNone) ∧
      (ReadsCursor sha256 parse binding disk next ∨
        ∃ file, disk'.files (RelayCursorStore.nameOf sha256 ⟨binding, next⟩) = some file ∧
          file.content = (⟨binding, next⟩ : RelayCursorCheckpoint).payload) := by
  obtain ⟨result, s₁, hcurrent, h⟩ := completes_bind.mp h
  obtain rfl := RelayCursorStore.leaves_current hcurrent.leaves
  cases result with
  | error error => cases (completes_done.mp h).1
  | ok cursor =>
    have hcursor := RelayCursorStore.readsCursor_of_completes hcurrent
    dsimp only at h
    split at h
    · cases (completes_done.mp h).1
    · rename_i page hpage
      obtain ⟨result, s₂, hput, h⟩ := completes_bind.mp h
      cases result with
      | error error => cases (completes_done.mp h).1
      | ok others =>
        have hitems := leaves_putAll hput.leaves
        obtain ⟨result, s₃, hadvance, h⟩ := completes_bind.mp h
        cases result with
        | error error => cases (completes_done.mp h).1
        | ok _ =>
          obtain ⟨hresult, rfl⟩ := completes_done.mp h
          cases hresult
          refine ⟨cursor, page, hcursor, hpage, rfl, rfl,
            (completes_putAll page.data_distinct hput).2, ?_⟩
          refine (completes_advance hadvance).imp_left fun hreads => ?_
          rwa [← (hcursor.items hitems).unique hreads]

/-! ## A poll of the sample relay -/

theorem readsCursor_empty : ReadsCursor sha256 parse binding .empty .zero where
  readable digest file hfile := by cases hfile
  attained := .inl rfl

theorem isHumanCode_sample : isHumanCode "AAAAAAAA" = true := by decide +kernel

theorem isTimestamp_sample : isTimestamp "2026-01-01T00:30:00Z" = true := by decide +kernel

theorem signer_sample : SignerId.relaySms ≠ SignerId.operatorAuto := by decide

theorem one_lt_cursors : 1 < 10 ^ 18 := by decide

/-- What the operator of the sample relay has decided, as the host reads it. -/
def sampleSigned : SignedDecision where
  decision := .human {
    core := {
      signerId := .relaySms
      channel := .sms
      eventDigest := contentDigest zeroSha256 []
      approvalBindingDigest := contentDigest zeroSha256 []
      decisionNonce := nonceOf (zeroSha256 [])
      humanCode := ⟨"AAAAAAAA", isHumanCode_sample⟩
      senderBinding := contentDigest zeroSha256 []
      issuedAt := timestamp sampleClock
      expiresAt := ⟨"2026-01-01T00:30:00Z", isTimestamp_sample⟩ }
    envelopeDigest := contentDigest zeroSha256 []
    targetHashes := ⟨contentDigest zeroSha256 [], contentDigest zeroSha256 [],
      contentDigest zeroSha256 [], contentDigest zeroSha256 []⟩
    action := .approveForOfflineValidation
    reasonCode := .operatorApproved
    signer_human := signer_sample }
  signatureHmacSha256 := nonceOf (zeroSha256 [])

/-- Reads the decision that says the same. -/
def readSample (value : Json) : Option SignedDecision := do
  let decision ← value.field? "decision"
  if [("schema_version", "human-decision.v1"), ("signer_id", "relay:sms-v1"), ("channel", "sms"),
      ("human_code", "AAAAAAAA"), ("action", "approve_for_offline_validation"),
      ("reason_code", "operator_approved"), ("issued_at", "2026-01-01T00:10:00Z"),
      ("expires_at", "2026-01-01T00:30:00Z")].all
      fun field => isText (decision.field? field.1) field.2 then some sampleSigned
  else none

def sampleBinding : Digest := contentDigest zeroSha256 []

/-- The checkpoint behind it. -/
def sampleCheckpoint : RelayCursorCheckpoint := ⟨sampleBinding, ⟨1, one_lt_cursors⟩⟩

def parseSample (payload : Bytes) : Option RelayCursorCheckpoint :=
  if payload = sampleCheckpoint.payload then some sampleCheckpoint else none

/-- The page of the sample relay. -/
def sampleReply : Reply :=
  ((listDecisions zeroSha256 sampleEnv ("Bearer " ++ sampleToken)
    (toString RelayCursor.zero.val)).play (fun s op => op.perform s) sampleSystem.state []).1

theorem decisions_sample :
    sampleSystem.state.database.decisions.map (fun row => readSample row.signed)
        = [some sampleSigned] ∧
      (decisions zeroSha256 readSample (some sampleReply) .zero).toOption.map
        (fun page => (page.data, page.nextCursor))
          = some ([sampleSigned], sampleCheckpoint.nextCursor) := by decide +kernel

theorem row_sample : ∃ row, sampleSystem.state.database.decisions = [row] ∧
    readSample row.signed = some sampleSigned := by
  obtain ⟨row, rest, hrow, hsigned, hrest⟩ := List.map_eq_cons_iff.mp decisions_sample.1
  rw [List.map_eq_nil_iff.mp hrest] at hrow
  exact ⟨row, hrow, hsigned⟩

theorem fetch_sample : ∃ page, decisions zeroSha256 readSample (some sampleReply) .zero = .ok page ∧
    page.data = [sampleSigned] ∧ page.nextCursor = sampleCheckpoint.nextCursor := by
  have hpage := decisions_sample.2
  cases hfetch : decisions zeroSha256 readSample (some sampleReply) .zero with
  | error error =>
    rw [hfetch] at hpage
    cases hpage
  | ok page =>
    rw [hfetch] at hpage
    obtain ⟨hdata, hnext⟩ := Prod.mk.inj (Option.some.inj hpage)
    exact ⟨page, rfl, hdata, hnext⟩

theorem decode_sample : decodeCheckpoint zeroSha256 parseSample sampleBinding
    (contentDigest zeroSha256 sampleCheckpoint.payload) (some sampleCheckpoint.payload)
      = .ok sampleCheckpoint := by
  have hlength : sampleCheckpoint.payload.length ≤ 16 * 1024 := by decide +kernel
  exact decodeCheckpoint_eq_ok.mpr ⟨rfl, hlength, rfl, if_pos rfl, rfl⟩

theorem passes_empty (name : RelayFile) (recheck : Option Bytes → Except NotificationError Unit) :
    Passes .empty name recheck := by
  intro file hfile
  cases hfile

/-- A poll can go through, and leaves the checkpoint behind the decision. -/
theorem exists_samplePoll : ∃ disk file, ∃ result, Completes Files.semantics
    (pollDecisions zeroSha256 parseSample sampleBinding
      (decisions zeroSha256 readSample (some sampleReply))) .empty (.ok result) disk ∧
    disk.files (.cursors, contentDigest zeroSha256 sampleCheckpoint.payload) = some file ∧
    decodeCheckpoint zeroSha256 parseSample sampleBinding
      (contentDigest zeroSha256 sampleCheckpoint.payload) (some file.content)
        = .ok sampleCheckpoint := by
  obtain ⟨page, hpage, -, hnext⟩ := fetch_sample
  obtain ⟨⟨received, stored, next⟩, disk, hpoll⟩ := exists_pollDecisions listable_empty
    readsCursor_empty hpage (Nat.zero_le page.nextCursor.val) (fun _ _ => passes_empty _ _)
    (passes_empty _ _)
  obtain ⟨cursor, page', hcursor, hpage', -, hnext', -, hstored⟩ := completes_pollDecisions hpoll
  obtain rfl := hcursor.unique readsCursor_empty
  rw [hpage] at hpage'
  cases hpage'
  rw [hnext', hnext] at hstored
  rcases hstored with hreads | ⟨file, hfile, hcontent⟩
  · cases congrArg Subtype.val (hreads.unique readsCursor_empty)
  · refine ⟨disk, file, _, hpoll, hfile, ?_⟩
    rw [hcontent]
    exact decode_sample

/-- It may be stopped when it has created the file of the decision. -/
theorem leaves_sample : Leaves Files.semantics
    (pollDecisions zeroSha256 parseSample sampleBinding
      (decisions zeroSha256 readSample (some sampleReply))) .empty
    (Disk.empty.create (.inbox, decisionFileDigest zeroSha256 sampleSigned)) := by
  obtain ⟨page, hpage, hdata, -⟩ := fetch_sample
  have hput : Leaves Files.semantics (putAll zeroSha256 [sampleSigned]) .empty
      (Disk.empty.create (.inbox, decisionFileDigest zeroSha256 sampleSigned)) := by
    refine leaves_bind.mpr (.inl (leaves_call.mpr (.inr ⟨true, _, Exec.created rfl, ?_⟩)))
    exact .refl _ _
  refine leaves_bind.mpr (.inr ⟨.ok .zero, .empty,
    RelayCursorStore.completes_current listable_empty readsCursor_empty, ?_⟩)
  dsimp only
  rw [hpage]
  refine leaves_bind.mpr (.inl ?_)
  rwa [hdata]

/-! ## When polls go through -/

/-- A poll can go through exactly when the cursor is read, the page is accepted and does not lie
before it, and no file of its decisions or of its checkpoint is torn. -/
theorem poll_succeeds_iff (hlist : Listable disk) :
    (∃ result disk', Completes Files.semantics (pollDecisions sha256 parse binding fetch) disk
      (.ok result) disk')
      ↔ ∃ cursor page, ReadsCursor sha256 parse binding disk cursor ∧ fetch cursor = .ok page ∧
        cursor ≤ page.nextCursor ∧
        (∀ signed ∈ page.data,
          Passes disk (.inbox, decisionFileDigest sha256 signed) (recheckItem signed)) ∧
        Passes disk (RelayCursorStore.nameOf sha256 ⟨binding, page.nextCursor⟩)
          (RelayCursorStore.recheck ⟨binding, page.nextCursor⟩) := by
  constructor
  · rintro ⟨result, disk', h⟩
    obtain ⟨result, s₁, hcurrent, h⟩ := completes_bind.mp h
    obtain rfl := RelayCursorStore.leaves_current hcurrent.leaves
    cases result with
    | error error => cases (completes_done.mp h).1
    | ok cursor =>
      have hcursor := RelayCursorStore.readsCursor_of_completes hcurrent
      dsimp only at h
      split at h
      · cases (completes_done.mp h).1
      · rename_i page hpage
        obtain ⟨result, s₂, hput, h⟩ := completes_bind.mp h
        cases result with
        | error error => cases (completes_done.mp h).1
        | ok stored =>
          have hadds := leaves_putAll hput.leaves
          obtain ⟨result, s₃, hadvance, h⟩ := completes_bind.mp h
          cases result with
          | error error => cases (completes_done.mp h).1
          | ok _ =>
            obtain ⟨hle, hpasses⟩ := (RelayCursorStore.advance_succeeds_iff
              (hput.leaves.listable hlist) (hcursor.items hadds)).mp ⟨s₃, hadvance⟩
            exact ⟨cursor, page, hcursor, hpage, hle,
              (putAll_succeeds_iff page.data_distinct).mp ⟨stored, s₂, hput⟩,
              (passes_checkpoint hadds).mp hpasses⟩
  · rintro ⟨cursor, page, hcursor, hpage, hle, hitems, hcheckpoint⟩
    exact exists_pollDecisions hlist hcursor hpage hle hitems hcheckpoint

theorem poll_succeeds_sample : ∃ result disk', Completes Files.semantics
    (pollDecisions zeroSha256 parseSample sampleBinding
      (decisions zeroSha256 readSample (some sampleReply))) .empty (.ok result) disk' := by
  obtain ⟨page, hpage, -⟩ := fetch_sample
  exact (poll_succeeds_iff listable_empty).mpr ⟨.zero, page, readsCursor_empty, hpage,
    Nat.zero_le page.nextCursor.val, fun _ _ => passes_empty _ _, passes_empty _ _⟩

end IouAi.Relay
