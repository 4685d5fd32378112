import IouAi.Authority.Decisions
import IouAi.Foundations.JsonText
import IouAi.Relay.Pages
import IouAi.Storage.Stores
import IouAi.Wire.Texts

/-!
# The poller

The host fetches the decisions of the relay page by page (`pollDecisions`). It puts every decision of
a page into its inbox, and only then stores the cursor behind the page. Polls come one after the
other, and each may be killed at any of its operations.

The relay need not be trusted for what the cursor says: a cursor that the host reads back counts
decisions that are all in the inbox (`cursor_backed`). Together with the relay of this repository the
cursor says which ones: the first ones of its log, each of them and in their order
(`cursor_covered`).
-/

namespace IouAi.Relay

open Authority Calendar Checks Files Json Storage Threads Wire

/-! ## Pages -/

/-- A cursor is kept as its number, `^(?:0|[1-9][0-9]{0,17})$`. -/
abbrev RelayCursor := {n : ℕ // n < 10 ^ 18}

def RelayCursor.zero : RelayCursor := ⟨0, by decide⟩

/-- The cursor that a text is of. -/
def relayCursor? (text : String) : Option RelayCursor :=
  let digits := text.toList
  if h : digitsValue digits < 10 ^ 18 then
    if digits.all isAsciiDigit ∧ toString (digitsValue digits) = text then
      some ⟨digitsValue digits, h⟩
    else none
  else none

structure RelayDecisionPage (sha256 : Sha256) where
  data : List SignedDecision
  nextCursor : RelayCursor
  data_bounded : data.length ≤ 100
  data_distinct : (data.map (decisionFileDigest sha256)).Nodup

structure RelayCursorCheckpoint where
  endpointBinding : Digest
  nextCursor : RelayCursor

namespace RelayCursorCheckpoint

variable (checkpoint : RelayCursorCheckpoint)

def toJson : Json :=
  .obj [("schema_version", .str "relay-cursor.v1"),
    ("endpoint_binding", .str checkpoint.endpointBinding),
    ("next_cursor", .str (toString checkpoint.nextCursor.val))]

def payload : Bytes := canonicalJson checkpoint.toJson

end RelayCursorCheckpoint

/-- What the poller fails with; `interrupted` is the error of a write. -/
inductive NotificationError
  | transport
  | http (status : ℕ)
  | pageInvalid
  | cursorRegressed
  | decisionsWithoutAdvancing
  | cursorSkipped
  | advancedPastEmpty
  | itemUnavailable
  | itemUnbounded
  | itemCollision
  | checkpointUnavailable
  | checkpointUnbounded
  | checkpointDigest
  | checkpointInvalid
  | checkpointNotCanonical
  | endpointBinding
  | checkpointRegressed
  | checkpointCollision
  | interrupted
  deriving DecidableEq

section Client

variable (sha256 : Sha256) (readSigned : Json → Option SignedDecision)

/-- `RelayDecisionPage.model_validate_json`, over what the model of a signed decision makes of one
item. -/
def readPage (body : Json) : Option (RelayDecisionPage sha256) :=
  match body with
  | .obj fields =>
    if fields.all (fun field => field.1 ∈ ["schema_version", "data", "next_cursor"]) ∧
        isText ((body.field? "schema_version").or (some (.str "relay-decisions.v1")))
          "relay-decisions.v1" then
      match body.field? "data", body.field? "next_cursor" with
      | some (.arr items), some (.str text) => do
        let data ← items.mapM readSigned
        let nextCursor ← relayCursor? text
        if h : data.length ≤ 100 ∧ (data.map (decisionFileDigest sha256)).Nodup then
          some ⟨data, nextCursor, h.1, h.2⟩
        else none
      | _, _ => none
    else none
  | _ => none

/-- `NotificationRelayClient.decisions`, with the reply that its request gets; none when the request
fails. -/
def decisions (reply : Option Reply) (after : RelayCursor) :
    Except NotificationError (RelayDecisionPage sha256) := do
  match reply with
  | none => throw .transport
  | some .uncaught => throw (.http 500)
  | some (.response status body) =>
    raiseIf (status ≠ 200) (.http status)
    match readPage sha256 readSigned body with
    | none => throw .pageInvalid
    | some page =>
      let current := after.val
      let following := page.nextCursor.val
      raiseIf (following < current) .cursorRegressed
      raiseIf (page.data ≠ [] ∧ following ≤ current) .decisionsWithoutAdvancing
      raiseIf (page.data ≠ [] ∧ following ≠ current + page.data.length) .cursorSkipped
      raiseIf (page.data = [] ∧ following ≠ current) .advancedPastEmpty
      return page

end Client

/-! ## The files of the poller -/

inductive Directory
  | inbox | cursors
  deriving DecidableEq

/-- A file of one of the two directories, under the digest that its name says. -/
abbrev RelayFile := Directory × Digest

section Poller

variable (sha256 : Sha256) (parse : Parse RelayCursorCheckpoint) (endpointBinding : Digest)

/-- `_read_limited` of an item of the inbox, and its comparison. -/
def recheckItem (signed : SignedDecision) (bytes? : Option Bytes) : Except NotificationError Unit :=
  match bytes? with
  | none => .error .itemUnavailable
  | some existing => do
    raiseIf (64 * 1024 < existing.length) .itemUnbounded
    raiseIf (existing ≠ signed.payload) .itemCollision

/-- `DecisionInbox.put`. A signed decision is valid as it is. -/
def DecisionInbox.put (signed : SignedDecision) :
    FileProgram RelayFile (Except NotificationError Bool) :=
  createOrCompare (.inbox, decisionFileDigest sha256 signed) signed.payload (recheckItem signed)
    .interrupted

/-- `_read_limited` of a checkpoint. -/
def readCheckpointFile (bytes? : Option Bytes) : Except NotificationError Bytes :=
  match bytes? with
  | none => .error .checkpointUnavailable
  | some payload => do
    raiseIf (16 * 1024 < payload.length) .checkpointUnbounded
    return payload

/-- What `_checkpoints` does with one file. -/
def decodeCheckpoint (digest : Digest) (bytes? : Option Bytes) :
    Except NotificationError RelayCursorCheckpoint := do
  let payload ← readCheckpointFile bytes?
  raiseIf (contentDigest sha256 payload ≠ digest) .checkpointDigest
  match parse payload with
  | none => throw .checkpointInvalid
  | some checkpoint =>
    raiseIf (checkpoint.payload ≠ payload) .checkpointNotCanonical
    raiseIf (checkpoint.endpointBinding ≠ endpointBinding) .endpointBinding
    return checkpoint

namespace RelayCursorStore

def nameOf (checkpoint : RelayCursorCheckpoint) : RelayFile :=
  (.cursors, contentDigest sha256 checkpoint.payload)

def recheck (checkpoint : RelayCursorCheckpoint) (bytes? : Option Bytes) :
    Except NotificationError Unit := do
  let existing ← readCheckpointFile bytes?
  raiseIf (existing ≠ checkpoint.payload) .checkpointCollision

def shelf : Shelf RelayFile RelayCursorCheckpoint NotificationError where
  payload checkpoint := checkpoint.payload
  nameOf := nameOf sha256
  decode name := decodeCheckpoint sha256 parse endpointBinding name.2
  recheck := recheck
  interrupted := .interrupted
  order names := names.insertionSort fun name other => name.2.val ≤ other.2.val
  order_perm names := List.perm_insertionSort _ names
  limit := none

/-- `_checkpoints`. -/
def checkpoints : FileProgram RelayFile (Except NotificationError (List RelayCursorCheckpoint)) := do
  let names ← FileProgram.list
  readItems (shelf sha256 parse endpointBinding)
    ((shelf sha256 parse endpointBinding).order (names.filter fun name => name.1 = .cursors))

/-- The cursor of the checkpoints. -/
def latest (checkpoints : List RelayCursorCheckpoint) : RelayCursor :=
  (checkpoints.map RelayCursorCheckpoint.nextCursor).foldr max .zero

def current : FileProgram RelayFile (Except NotificationError RelayCursor) := do
  let found ← checkpoints sha256 parse endpointBinding
  return found.map latest

/-- Write a checkpoint, or look at the file that is there. -/
def write (checkpoint : RelayCursorCheckpoint) : FileProgram RelayFile (Except NotificationError Bool) :=
  createOrCompare (nameOf sha256 checkpoint) checkpoint.payload (recheck checkpoint) .interrupted

def advance (nextCursor : RelayCursor) : FileProgram RelayFile (Except NotificationError Unit) := do
  match ← current sha256 parse endpointBinding with
  | .error error => return .error error
  | .ok cursor =>
    if nextCursor < cursor then return .error .checkpointRegressed
    else if nextCursor = cursor then return .ok ()
    else do
      let stored ← write sha256 ⟨endpointBinding, nextCursor⟩
      return stored.map fun _ => ()

end RelayCursorStore

/-- Put the decisions of a page one after the other, and count the new ones. -/
def putAll : List SignedDecision → FileProgram RelayFile (Except NotificationError ℕ)
  | [] => return .ok 0
  | signed :: rest => do
    match ← DecisionInbox.put sha256 signed with
    | .error error => return .error error
    | .ok created =>
      let stored ← putAll rest
      return stored.map fun stored => created.toNat + stored

/-- `poll_decisions`, with what the client gets for a cursor: the number of decisions received, how
many of them are new, and the cursor behind them. -/
def pollDecisions
    (fetch : RelayCursor → Except NotificationError (RelayDecisionPage sha256)) :
    FileProgram RelayFile (Except NotificationError (ℕ × ℕ × RelayCursor)) := do
  match ← RelayCursorStore.current sha256 parse endpointBinding with
  | .error error => return .error error
  | .ok cursor =>
    match fetch cursor with
    | .error error => return .error error
    | .ok page =>
      match ← putAll sha256 page.data with
      | .error error => return .error error
      | .ok stored =>
        match ← RelayCursorStore.advance sha256 parse endpointBinding page.nextCursor with
        | .error error => return .error error
        | .ok () => return .ok (page.data.length, stored, page.nextCursor)

end Poller

variable {sha256 : Sha256} {hmac : Hmac} {env : Env} {readSigned : Json → Option SignedDecision}
  {parse : Parse RelayCursorCheckpoint} {binding : Digest}

/-! ## What a page says -/

theorem relayCursor?_toString {n : ℕ} {cursor : RelayCursor}
    (h : relayCursor? (toString n) = some cursor) : cursor.val = n := by
  simp only [relayCursor?] at h
  split at h
  · split at h
    · rename_i hdigits
      cases h
      exact repr_injective hdigits.2
    · cases h
  · cases h

/-- What the host reads in a page of the relay: the decisions of its rows, and the cursor behind
them. -/
theorem readPage_pageBody {rows : List DecisionRow} {next : ℕ} {page : RelayDecisionPage sha256}
    (h : readPage sha256 readSigned (pageBody rows next) = some page) :
    rows.mapM (fun row => readSigned row.signed) = some page.data ∧ page.nextCursor.val = next := by
  have hdata : (pageBody rows next).field? "data" = some (.arr (rows.map DecisionRow.signed)) := rfl
  have hnext : (pageBody rows next).field? "next_cursor" = some (.str (toString next)) := rfl
  unfold readPage at h
  split at h
  · split at h
    · split at h
      · rename_i items text hitems htext
        rw [hdata] at hitems
        rw [hnext] at htext
        cases hitems
        cases htext
        simp only [bind, Option.bind_eq_some_iff] at h
        obtain ⟨data, hitems, nextCursor, hcursor, h⟩ := h
        split at h
        · cases h
          rw [List.mapM_map] at hitems
          exact ⟨hitems, relayCursor?_toString hcursor⟩
        · cases h
      · cases h
    · cases h
  · cases h

/-- The checks of the client leave a page whose cursor has moved by as much as the page holds. -/
theorem decisions_eq_ok {reply : Option Reply} {after : RelayCursor}
    {page : RelayDecisionPage sha256} :
    decisions sha256 readSigned reply after = .ok page
      ↔ ∃ body, reply = some (.response 200 body) ∧ readPage sha256 readSigned body = some page ∧
        page.nextCursor.val = after.val + page.data.length := by
  constructor
  · intro h
    unfold decisions at h
    split at h
    · cases h
    · cases h
    · rename_i status body
      rw [raiseIf_bind_eq_ok, not_not] at h
      obtain ⟨rfl, h⟩ := h
      split at h
      · cases h
      · rename_i found hfound
        simp only [raiseIf_bind_eq_ok, pure_eq_ok] at h
        obtain ⟨-, -, hskipped, hempty, rfl⟩ := h
        refine ⟨body, rfl, hfound, ?_⟩
        by_cases hnil : found.data = []
        · have hsame : ¬ found.nextCursor.val ≠ after.val := fun hne => hempty ⟨hnil, hne⟩
          rw [hnil, List.length_nil, Nat.add_zero]
          exact not_not.mp hsame
        · exact not_not.mp fun hne => hskipped ⟨hnil, hne⟩
  · rintro ⟨body, rfl, hpage, hnext⟩
    have hpos : page.data ≠ [] → 0 < page.data.length := List.length_pos_iff.mpr
    simp only [decisions, hpage, raiseIf_bind_eq_ok, pure_eq_ok]
    refine ⟨not_not.mpr rfl, by omega, ?_, ?_, ?_, trivial⟩
    · rintro ⟨hne, hle⟩
      have := hpos hne
      omega
    · exact fun h => h.2 hnext
    · rintro ⟨hnil, hne⟩
      rw [hnil] at hnext
      exact hne hnext

/-! ## Checkpoints -/

theorem decodeCheckpoint_eq_ok {digest : Digest} {bytes? : Option Bytes}
    {checkpoint : RelayCursorCheckpoint} :
    decodeCheckpoint sha256 parse binding digest bytes? = .ok checkpoint
      ↔ bytes? = some checkpoint.payload ∧ checkpoint.payload.length ≤ 16 * 1024 ∧
        contentDigest sha256 checkpoint.payload = digest ∧
        parse checkpoint.payload = some checkpoint ∧ checkpoint.endpointBinding = binding := by
  constructor
  · intro h
    unfold decodeCheckpoint readCheckpointFile at h
    cases bytes? with
    | none => cases h
    | some payload =>
      simp only [bind_assoc, pure_bind, raiseIf_bind_eq_ok, not_not, Nat.not_lt] at h
      obtain ⟨hbounded, hdigest, h⟩ := h
      split at h
      · cases h
      · rename_i found hparse
        simp only [raiseIf_bind_eq_ok, not_not, pure_eq_ok] at h
        obtain ⟨rfl, hbinding, rfl⟩ := h
        exact ⟨rfl, hbounded, hdigest, hparse, hbinding⟩
  · rintro ⟨rfl, hbounded, hdigest, hparse, hbinding⟩
    simp only [decodeCheckpoint, readCheckpointFile, bind_assoc, pure_bind, raiseIf_bind_eq_ok,
      not_not, Nat.not_lt, hparse, pure_eq_ok]
    exact ⟨hbounded, hdigest, trivial, hbinding, trivial⟩

/-- No text of a checkpoint begins another one. -/
theorem RelayCursorCheckpoint.payload_eq_of_isPrefix {checkpoint other : RelayCursorCheckpoint}
    (h : checkpoint.payload <+: other.payload) : checkpoint.payload = other.payload := by
  refine canonicalJson_eq_of_isPrefix ?_ ?_ h <;> simp [Json.Integral, Json.IntegralFields]

theorem RelayCursorCheckpoint.nextCursor_of_payload_eq {checkpoint other : RelayCursorCheckpoint}
    (h : checkpoint.payload = other.payload) : checkpoint.nextCursor = other.nextCursor := by
  have hplain : ∀ checkpoint : RelayCursorCheckpoint, checkpoint.toJson.Plain := fun checkpoint => by
    simp [toJson, Json.Plain, Json.PlainFields]
  have hfield : ∀ checkpoint : RelayCursorCheckpoint,
      checkpoint.toJson.field? "next_cursor" = some (.str (toString checkpoint.nextCursor.val)) :=
    fun _ => rfl
  have htext : toString checkpoint.nextCursor.val = toString other.nextCursor.val :=
    Json.lookup_str_eq (hplain checkpoint) (hplain other) (encode_eq_of_canonicalJson_eq h)
      (hfield checkpoint) (hfield other)
  exact Subtype.ext (repr_injective htext)

/-- What the checkpoints on a disk say: every one of them is read, and the cursor is the largest. -/
structure ReadsCursor (sha256 : Sha256) (parse : Parse RelayCursorCheckpoint) (binding : Digest)
    (disk : Disk RelayFile) (cursor : RelayCursor) : Prop where
  readable : ∀ digest file, disk.files (.cursors, digest) = some file → ∃ checkpoint,
    decodeCheckpoint sha256 parse binding digest (some file.content) = .ok checkpoint ∧
      checkpoint.nextCursor ≤ cursor
  attained : cursor = .zero ∨ ∃ digest file checkpoint, disk.files (.cursors, digest) = some file ∧
    decodeCheckpoint sha256 parse binding digest (some file.content) = .ok checkpoint ∧
      checkpoint.nextCursor = cursor

namespace RelayCursorStore

theorem nextCursor_le_latest {found : List RelayCursorCheckpoint} {checkpoint : RelayCursorCheckpoint}
    (h : checkpoint ∈ found) : checkpoint.nextCursor ≤ latest found := by
  induction found with
  | nil => cases h
  | cons other found ih =>
    rcases List.mem_cons.mp h with rfl | h
    · exact le_max_left _ _
    · exact (ih h).trans (le_max_right _ _)

theorem latest_attained (found : List RelayCursorCheckpoint) :
    latest found = .zero ∨ ∃ checkpoint ∈ found, checkpoint.nextCursor = latest found := by
  induction found with
  | nil => exact .inl rfl
  | cons other found ih =>
    have hcons : latest (other :: found) = max other.nextCursor (latest found) := rfl
    rcases le_total (latest found) other.nextCursor with hle | hle
    · rw [hcons, max_eq_left hle]
      exact .inr ⟨other, List.mem_cons_self, rfl⟩
    · rw [hcons, max_eq_right hle]
      exact ih.imp_right fun ⟨checkpoint, hmem, heq⟩ =>
        ⟨checkpoint, List.mem_cons_of_mem _ hmem, heq⟩

variable {disk disk' : Disk RelayFile}

theorem mem_order {names : List RelayFile} {name : RelayFile} :
    name ∈ (shelf sha256 parse binding).order (names.filter fun name => name.1 = .cursors)
      ↔ name.1 = .cursors ∧ name ∈ names := by
  rw [((shelf sha256 parse binding).order_perm _).mem_iff, List.mem_filter, decide_eq_true_eq,
    and_comm]

theorem only_current : (current sha256 parse binding).Only fun op => isLook op = true :=
  ⟨rfl, fun _ => (only_readItems _).bind fun _ => trivial⟩

theorem leaves_current (h : Leaves Files.semantics (current sha256 parse binding) disk disk') :
    disk' = disk :=
  h.preserves (P := (· = disk))
    (fun _ _ _ _ hlook (hexec : Files.Exec _ _ _ _) hs => (eq_of_isLook hlook hexec).trans hs)
    only_current rfl

/-- A poller that gets a cursor has read every checkpoint. -/
theorem readsCursor_of_completes {cursor : RelayCursor}
    (h : Completes Files.semantics (current sha256 parse binding) disk (.ok cursor) disk') :
    ReadsCursor sha256 parse binding disk cursor := by
  obtain ⟨names, s₁, hexec, h⟩ := completes_call.mp h
  cases hexec with
  | list hnodup hnames =>
    obtain ⟨found, s₂, hread, hdone⟩ := completes_bind.mp h
    obtain ⟨hfound, rfl⟩ := completes_readItems.mp hread
    obtain ⟨hlatest, rfl⟩ := completes_done.mp hdone
    cases found with
    | error error => cases hlatest
    | ok found =>
      cases hlatest
      -- the checkpoints are those of the files, one for one
      have hall := mapM_eq_ok_iff_forall₂.mp hfound.symm
      have hmem : ∀ name, name ∈ (shelf sha256 parse binding).order
          (names.filter fun name => name.1 = .cursors)
            ↔ name.1 = .cursors ∧ (disk'.files name).isSome := by
        intro name
        exact mem_order.trans (and_congr_right fun _ => hnames name)
      constructor
      · intro digest file hfile
        obtain ⟨checkpoint, hin, hread⟩ := exists_of_mem_right hall.flip
          ((hmem (.cursors, digest)).mpr ⟨rfl, by simp [hfile]⟩)
        have hdecode : decodeCheckpoint sha256 parse binding digest
            ((disk'.files (.cursors, digest)).map File.content) = .ok checkpoint := hread
        rw [hfile, Option.map_some] at hdecode
        exact ⟨checkpoint, hdecode, nextCursor_le_latest hin⟩
      · refine (latest_attained found).imp_right fun ⟨checkpoint, hin, hlatest⟩ => ?_
        obtain ⟨⟨directory, digest⟩, hname, hread⟩ := exists_of_mem_right hall hin
        obtain ⟨rfl, hsome⟩ := (hmem (directory, digest)).mp hname
        obtain ⟨file, hfile⟩ := Option.isSome_iff_exists.mp hsome
        have hdecode : decodeCheckpoint sha256 parse binding digest
            ((disk'.files (.cursors, digest)).map File.content) = .ok checkpoint := hread
        rw [hfile, Option.map_some] at hdecode
        exact ⟨digest, file, checkpoint, hfile, hdecode, hlatest⟩

end RelayCursorStore

/-! ## What a poll stores -/

section Stored

variable {disk disk' : Disk RelayFile}

/-- The inbox has the whole text of a decision. -/
def InInbox (sha256 : Sha256) (disk : Disk RelayFile) (signed : SignedDecision) : Prop :=
  ∃ file, disk.files (.inbox, decisionFileDigest sha256 signed) = some file ∧
    file.content = signed.payload

/-- A file of the inbox with a beginning of the text of one of some decisions. -/
def ItemOf (sha256 : Sha256) (data : List SignedDecision) (name : RelayFile) (bytes : Bytes) : Prop :=
  ∃ signed ∈ data, name = (.inbox, decisionFileDigest sha256 signed) ∧ bytes <+: signed.payload

/-- The file of a checkpoint with a beginning of its text. -/
def CheckpointOf (sha256 : Sha256) (checkpoint : RelayCursorCheckpoint) (name : RelayFile)
    (bytes : Bytes) : Prop :=
  name = RelayCursorStore.nameOf sha256 checkpoint ∧ bytes <+: checkpoint.payload

theorem InInbox.adds {P : RelayFile → Bytes → Prop} {signed : SignedDecision}
    (h : InInbox sha256 disk signed) (hadds : Adds P disk disk') : InInbox sha256 disk' signed := by
  obtain ⟨file, hfile, hcontent⟩ := h
  exact ⟨file, hadds.keeps hfile, hcontent⟩

theorem ItemOf.mono {data data' : List SignedDecision} {name : RelayFile} {bytes : Bytes}
    (h : ItemOf sha256 data name bytes) (hsub : data ⊆ data') : ItemOf sha256 data' name bytes := by
  obtain ⟨signed, hsigned, h⟩ := h
  exact ⟨signed, hsub hsigned, h⟩

theorem recheckItem_eq_ok {signed : SignedDecision} {bytes : Bytes}
    (h : recheckItem signed (some bytes) = .ok ()) : bytes = signed.payload := by
  simp only [recheckItem, raiseIf_bind_eq_ok, raiseIf_eq_ok, not_not] at h
  exact h.2

theorem leaves_put {signed : SignedDecision}
    (h : Leaves Files.semantics (DecisionInbox.put sha256 signed) disk disk') :
    Adds (ItemOf sha256 [signed]) disk disk' :=
  (leaves_createOrCompare h).adds fun _ hstart => ⟨signed, List.mem_cons_self, rfl, hstart⟩

/-- A decision that is put does not touch the files of others. -/
theorem leaves_put_other {signed other : SignedDecision} {rest : List SignedDecision}
    (h : Leaves Files.semantics (DecisionInbox.put sha256 signed) disk disk')
    (hnew : decisionFileDigest sha256 signed ∉ rest.map (decisionFileDigest sha256))
    (hother : other ∈ rest) : disk'.files (.inbox, decisionFileDigest sha256 other)
      = disk.files (.inbox, decisionFileDigest sha256 other) := by
  rcases leaves_put h (.inbox, decisionFileDigest sha256 other) with
    hsame | ⟨-, file, -, other', hother', hname, -⟩
  · exact hsame
  · rw [List.mem_singleton.mp hother', Prod.mk.injEq] at hname
    exact absurd (hname.2 ▸ List.mem_map_of_mem hother) hnew

/-- A decision that was put is in the inbox; it is new when it had no file. -/
theorem completes_put {signed : SignedDecision} {created : Bool}
    (h : Completes Files.semantics (DecisionInbox.put sha256 signed) disk (.ok created) disk') :
    InInbox sha256 disk' signed ∧
      created = (disk.files (.inbox, decisionFileDigest sha256 signed)).isNone := by
  have hcreated := completes_createOrCompare h
  generalize hresult : (Except.ok created : Except NotificationError Bool) = result at hcreated
  cases hcreated with
  | @created file hfree hfiles hcontent =>
    cases hresult
    refine ⟨⟨file, ?_, hcontent⟩, ?_⟩
    · rw [hfiles, Function.update_self]
    · rw [hfree]
      rfl
  | raised => cases hresult
  | @found file hfile hfiles =>
    cases hrecheck : recheckItem signed (some file.content) with
    | error error =>
      rw [hrecheck] at hresult
      cases hresult
    | ok _ =>
      rw [hrecheck] at hresult
      cases hresult
      refine ⟨⟨file, ?_, recheckItem_eq_ok hrecheck⟩, ?_⟩
      · rw [hfiles, hfile]
      · rw [hfile]
        rfl

theorem leaves_putAll {data : List SignedDecision}
    (h : Leaves Files.semantics (putAll sha256 data) disk disk') :
    Adds (ItemOf sha256 data) disk disk' := by
  induction data generalizing disk with
  | nil =>
    rw [leaves_done.mp h]
    exact .of_files rfl
  | cons signed rest ih =>
    have hhead : ∀ {later}, Leaves Files.semantics (DecisionInbox.put sha256 signed) disk later →
        Adds (ItemOf sha256 (signed :: rest)) disk later :=
      fun h => (leaves_put h).mono fun _ _ h => h.mono (by simp)
    rcases leaves_bind.mp h with hput | ⟨result, s₁, hput, h⟩
    · exact hhead hput
    · cases result with
      | error error =>
        rw [leaves_done.mp h]
        exact hhead hput.leaves
      | ok created =>
        have hrest : Leaves Files.semantics (putAll sha256 rest) s₁ disk' := by
          rcases leaves_bind.mp h with hrest | ⟨stored, s₂, hrest, hdone⟩
          · exact hrest
          · rw [leaves_done.mp hdone]
            exact hrest.leaves
        exact (hhead hput.leaves).trans ((ih hrest).mono fun _ _ h => h.mono (by simp))

/-- When all decisions of a page were put, they are in the inbox, and the new ones are counted. -/
theorem completes_putAll {data : List SignedDecision} {stored : ℕ}
    (hdistinct : (data.map (decisionFileDigest sha256)).Nodup)
    (h : Completes Files.semantics (putAll sha256 data) disk (.ok stored) disk') :
    (∀ signed ∈ data, InInbox sha256 disk' signed) ∧
      stored = data.countP fun signed =>
        (disk.files (.inbox, decisionFileDigest sha256 signed)).isNone := by
  induction data generalizing disk stored with
  | nil =>
    obtain ⟨hstored, -⟩ := completes_done.mp h
    cases hstored
    exact ⟨by simp, rfl⟩
  | cons signed rest ih =>
    obtain ⟨result, s₁, hput, h⟩ := completes_bind.mp h
    cases result with
    | error error => cases (completes_done.mp h).1
    | ok created =>
      obtain ⟨result, s₂, hrest, hdone⟩ := completes_bind.mp h
      obtain ⟨hresult, rfl⟩ := completes_done.mp hdone
      cases result with
      | error error => cases hresult
      | ok others =>
        cases hresult
        rw [List.map_cons, List.nodup_cons] at hdistinct
        obtain ⟨hnew, hdistinct⟩ := hdistinct
        obtain ⟨hholds, hcreated⟩ := completes_put hput
        obtain ⟨hall, hothers⟩ := ih hdistinct hrest
        refine ⟨?_, ?_⟩
        · intro other hother
          rcases List.mem_cons.mp hother with rfl | hother
          · exact hholds.adds (leaves_putAll hrest.leaves)
          · exact hall other hother
        · -- the first decision has another name than the rest
          have hcount : rest.countP (fun other =>
              (s₁.files (.inbox, decisionFileDigest sha256 other)).isNone)
              = rest.countP fun other =>
                (disk.files (.inbox, decisionFileDigest sha256 other)).isNone := by
            refine List.countP_congr fun other hother => ?_
            rw [leaves_put_other hput.leaves hnew hother]
          rw [hothers, hcount, List.countP_cons, hcreated, Nat.add_comm]
          cases (disk.files (.inbox, decisionFileDigest sha256 signed)).isNone <;> rfl

theorem leaves_advance {next : RelayCursor}
    (h : Leaves Files.semantics (RelayCursorStore.advance sha256 parse binding next) disk disk') :
    Adds (CheckpointOf sha256 ⟨binding, next⟩) disk disk' := by
  rcases leaves_bind.mp h with hcurrent | ⟨result, s₁, hcurrent, h⟩
  · rw [RelayCursorStore.leaves_current hcurrent]
    exact .of_files rfl
  · obtain rfl := RelayCursorStore.leaves_current hcurrent.leaves
    cases result with
    | error error =>
      rw [leaves_done.mp h]
      exact .of_files rfl
    | ok cursor =>
      dsimp only at h
      split at h
      · rw [leaves_done.mp h]
        exact .of_files rfl
      · split at h
        · rw [leaves_done.mp h]
          exact .of_files rfl
        · have hwrite : ∀ {later},
              Leaves Files.semantics (RelayCursorStore.write sha256 ⟨binding, next⟩) s₁ later →
                Adds (CheckpointOf sha256 ⟨binding, next⟩) s₁ later :=
            fun h => (leaves_createOrCompare h).adds fun _ hstart => ⟨rfl, hstart⟩
          rcases leaves_bind.mp h with h | ⟨stored, s₂, h, hdone⟩
          · exact hwrite h
          · rw [leaves_done.mp hdone]
            exact hwrite h.leaves

/-- A cursor that was stored is there. -/
theorem completes_advance {next : RelayCursor}
    (h : Completes Files.semantics (RelayCursorStore.advance sha256 parse binding next) disk
      (.ok ()) disk') :
    ReadsCursor sha256 parse binding disk next ∨
      ∃ file, disk'.files (RelayCursorStore.nameOf sha256 ⟨binding, next⟩) = some file ∧
        file.content = (⟨binding, next⟩ : RelayCursorCheckpoint).payload := by
  obtain ⟨result, s₁, hcurrent, h⟩ := completes_bind.mp h
  obtain rfl := RelayCursorStore.leaves_current hcurrent.leaves
  cases result with
  | error error => cases (completes_done.mp h).1
  | ok cursor =>
    dsimp only at h
    split at h
    · cases (completes_done.mp h).1
    · split at h
      · rename_i hsame
        rw [hsame]
        exact .inl (RelayCursorStore.readsCursor_of_completes hcurrent)
      · obtain ⟨stored, s₂, hwrite, hdone⟩ := completes_bind.mp h
        obtain ⟨hstored, rfl⟩ := completes_done.mp hdone
        right
        cases completes_createOrCompare hwrite with
        | @created file hfree hfiles hcontent =>
          refine ⟨file, ?_, hcontent⟩
          rw [hfiles, Function.update_self]
        | raised => cases hstored
        | @found file hfile hfiles =>
          refine ⟨file, by rw [hfiles, hfile], ?_⟩
          cases hrecheck : RelayCursorStore.recheck ⟨binding, next⟩ (some file.content) with
          | error error =>
            rw [hrecheck] at hstored
            cases hstored
          | ok _ =>
            simp only [RelayCursorStore.recheck, readCheckpointFile, bind_assoc, pure_bind,
              raiseIf_bind_eq_ok, raiseIf_eq_ok, not_not] at hrecheck
            exact hrecheck.2

/-- What a poll leaves that may have been stopped: before it has a page, the disk as it was; then
some files of the page; and some of its checkpoint only when the whole page is in the inbox. -/
inductive Polled (sha256 : Sha256) (parse : Parse RelayCursorCheckpoint) (binding : Digest)
    (fetch : RelayCursor → Except NotificationError (RelayDecisionPage sha256))
    (disk disk' : Disk RelayFile) : Prop
  | same (hdisk : disk' = disk)
  | putting {cursor : RelayCursor} {page : RelayDecisionPage sha256}
      (hcursor : ReadsCursor sha256 parse binding disk cursor) (hpage : fetch cursor = .ok page)
      (hitems : Adds (ItemOf sha256 page.data) disk disk')
  | storing {cursor : RelayCursor} {page : RelayDecisionPage sha256} {mid : Disk RelayFile}
      (hcursor : ReadsCursor sha256 parse binding disk cursor) (hpage : fetch cursor = .ok page)
      (hitems : Adds (ItemOf sha256 page.data) disk mid)
      (hinbox : ∀ signed ∈ page.data, InInbox sha256 mid signed)
      (hcheckpoint : Adds (CheckpointOf sha256 ⟨binding, page.nextCursor⟩) mid disk')

variable {fetch : RelayCursor → Except NotificationError (RelayDecisionPage sha256)}

theorem leaves_pollDecisions
    (h : Leaves Files.semantics (pollDecisions sha256 parse binding fetch) disk disk') :
    Polled sha256 parse binding fetch disk disk' := by
  rcases leaves_bind.mp h with hcurrent | ⟨result, s₁, hcurrent, h⟩
  · exact .same (RelayCursorStore.leaves_current hcurrent)
  · obtain rfl := RelayCursorStore.leaves_current hcurrent.leaves
    cases result with
    | error error => exact .same (leaves_done.mp h)
    | ok cursor =>
      have hcursor := RelayCursorStore.readsCursor_of_completes hcurrent
      dsimp only at h
      split at h
      · exact .same (leaves_done.mp h)
      · rename_i page hpage
        rcases leaves_bind.mp h with hput | ⟨result, s₂, hput, h⟩
        · exact .putting hcursor hpage (leaves_putAll hput)
        · have hitems := leaves_putAll hput.leaves
          cases result with
          | error error =>
            rw [leaves_done.mp h]
            exact .putting hcursor hpage hitems
          | ok stored =>
            have hinbox := (completes_putAll page.data_distinct hput).1
            refine .storing hcursor hpage hitems hinbox ?_
            rcases leaves_bind.mp h with hadvance | ⟨result, s₃, hadvance, h⟩
            · exact leaves_advance hadvance
            · have hlast : disk' = s₃ := by
                cases result <;> exact leaves_done.mp h
              rw [hlast]
              exact leaves_advance hadvance.leaves

end Stored

end IouAi.Relay
