import IouAi.Foundations.Runs
import IouAi.Relay.Success

/-!
# Exchanges between the relay and the host

Runs of polls, each of which may be stopped at any of its operations. What a checkpoint says when it
is read back holds whatever the relay answers (`cursor_backed`); with the relay of this repository it
covers the beginning of its log (`cursor_covered`), and polls that succeed get on through the log a
page at a time (`polls_cover`). A file that a stopped poll has left torn is never written again: the
cursor does not get past a torn decision (`torn_item_holds_cursor`), and after a torn checkpoint no
poll does anything (`torn_checkpoint_stops`).
-/

namespace IouAi.Relay

open Authority Calendar Checks Files Json Runs Storage Threads Wire

variable {sha256 : Sha256} {hmac : Hmac} {env : Env} {authorization : String}
  {readSigned : Json → Option SignedDecision} {parse : Parse RelayCursorCheckpoint}
  {binding : Digest} {disk disk' : Disk RelayFile}
  {fetch : RelayCursor → Except NotificationError (RelayDecisionPage sha256)}

/-! ## Checkpoints -/

/-- Every file of a checkpoint holds a beginning of the text of one, and its cursor is as `P` says. -/
def Checkpointed (binding : Digest) (P : ℕ → Prop) (disk : Disk RelayFile) : Prop :=
  ∀ digest file, disk.files (.cursors, digest) = some file → ∃ cursor : RelayCursor,
    file.content <+: (⟨binding, cursor⟩ : RelayCursorCheckpoint).payload ∧ P cursor.val

/-- A checkpoint that is read back is the one that was to be written. -/
theorem Checkpointed.of_decode {P : ℕ → Prop} (h : Checkpointed binding P disk) {digest : Digest}
    {file : File} (hfile : disk.files (.cursors, digest) = some file)
    {checkpoint : RelayCursorCheckpoint}
    (hread : decodeCheckpoint sha256 parse binding digest (some file.content) = .ok checkpoint) :
    P checkpoint.nextCursor.val := by
  obtain ⟨cursor, hcontent, hcursor⟩ := h digest file hfile
  obtain ⟨hpayload, -⟩ := decodeCheckpoint_eq_ok.mp hread
  rw [Option.some.inj hpayload] at hcontent
  rwa [RelayCursorCheckpoint.nextCursor_of_payload_eq
    (RelayCursorCheckpoint.payload_eq_of_isPrefix hcontent)]

theorem Checkpointed.of_readsCursor {P : ℕ → Prop} (h : Checkpointed binding P disk) (hzero : P 0)
    {cursor : RelayCursor} (hcursor : ReadsCursor sha256 parse binding disk cursor) :
    P cursor.val := by
  rcases hcursor.attained with rfl | ⟨digest, file, checkpoint, hfile, hread, rfl⟩
  · exact hzero
  · exact h.of_decode hfile hread

/-- What holds of the cursor before a page and of the cursor behind it holds of every checkpoint,
wherever polls are stopped. -/
theorem Polled.checkpointed {P : Disk RelayFile → ℕ → Prop} (hzero : ∀ disk, P disk 0)
    (hadds : ∀ {Q disk disk' n}, Adds Q disk disk' → P disk n → P disk' n)
    (hpage : ∀ {mid} {cursor : RelayCursor} {page}, ReadsCursor sha256 parse binding disk cursor →
      fetch cursor = .ok page → P mid cursor.val →
        (∀ signed ∈ page.data, InInbox sha256 mid signed) → P mid page.nextCursor.val)
    (h : Polled sha256 parse binding fetch disk disk')
    (hdisk : Checkpointed binding (P disk) disk) : Checkpointed binding (P disk') disk' := by
  -- a disk that gets items only
  have hitem : ∀ {later data}, Adds (ItemOf sha256 data) disk later →
      Checkpointed binding (P later) later := by
    intro later data hitems digest file hfile
    rw [cursors_of_items hitems] at hfile
    obtain ⟨cursor, hcontent, hcursor⟩ := hdisk digest file hfile
    exact ⟨cursor, hcontent, hadds hitems hcursor⟩
  cases h with
  | same hsame =>
    rw [hsame]
    exact hdisk
  | putting _ _ hitems => exact hitem hitems
  | @storing cursor page mid hcursor hfetch hitems hinbox hcheckpoint =>
    intro digest file hfile
    rcases hcheckpoint (.cursors, digest) with hsame | ⟨-, file', hfile', -, hcontent⟩
    · rw [hsame] at hfile
      obtain ⟨cursor', hcontent, hcursor'⟩ := hitem hitems digest file hfile
      exact ⟨cursor', hcontent, hadds hcheckpoint hcursor'⟩
    · rw [hfile] at hfile'
      cases hfile'
      have hbefore := hadds hitems (hdisk.of_readsCursor (hzero disk) hcursor)
      exact ⟨page.nextCursor, hcontent, hadds hcheckpoint (hpage hcursor hfetch hbefore hinbox)⟩

/-! ## Any relay -/

/-- The disks that polls leave which come one after the other, each with whatever it is answered, and
the pages that they were served, each with the cursor that it was served for. -/
inductive PolledDisk (sha256 : Sha256) (readSigned : Json → Option SignedDecision)
    (parse : Parse RelayCursorCheckpoint) (binding : Digest) :
    Set (RelayCursor × RelayDecisionPage sha256) → Disk RelayFile → Prop
  | empty : PolledDisk sha256 readSigned parse binding ∅ .empty
  | poll {served : Set (RelayCursor × RelayDecisionPage sha256)} {disk disk' : Disk RelayFile}
      {reply : Option Reply} (h : PolledDisk sha256 readSigned parse binding served disk)
      (hleaves : Leaves Files.semantics
        (pollDecisions sha256 parse binding (decisions sha256 readSigned reply)) disk disk') :
      PolledDisk sha256 readSigned parse binding
        (served ∪ {fetched | ReadsCursor sha256 parse binding disk fetched.1 ∧
          decisions sha256 readSigned reply fetched.1 = .ok fetched.2}) disk'

/-- Decisions of pages that were served one behind the other, from the first one on. -/
inductive Consecutive (served : Set (RelayCursor × RelayDecisionPage sha256)) :
    ℕ → List SignedDecision → Prop
  | nil : Consecutive served 0 []
  | page {cursor : RelayCursor} {page : RelayDecisionPage sha256} {before : List SignedDecision}
      (h : Consecutive served cursor.val before) (hpage : (cursor, page) ∈ served)
      (hnext : page.nextCursor.val = cursor.val + page.data.length) :
      Consecutive served page.nextCursor.val (before ++ page.data)

theorem Consecutive.mono {served served' : Set (RelayCursor × RelayDecisionPage sha256)}
    (hsub : served ⊆ served') {n : ℕ} {data : List SignedDecision} (h : Consecutive served n data) :
    Consecutive served' n data := by
  induction h with
  | nil => exact .nil
  | page _ hpage hnext ih => exact .page ih (hsub hpage) hnext

theorem Consecutive.length {served : Set (RelayCursor × RelayDecisionPage sha256)} {n : ℕ}
    {data : List SignedDecision} (h : Consecutive served n data) : data.length = n := by
  induction h with
  | nil => rfl
  | page _ _ hnext ih => rw [List.length_append, ih, hnext]

theorem PolledDisk.checkpointed {served : Set (RelayCursor × RelayDecisionPage sha256)}
    (h : PolledDisk sha256 readSigned parse binding served disk) :
    Checkpointed binding (fun n => ∃ data, Consecutive served n data ∧
      ∀ signed ∈ data, InInbox sha256 disk signed) disk := by
  induction h with
  | empty =>
    intro digest file hfile
    cases hfile
  | @poll served disk disk' reply _ hleaves ih =>
    refine (leaves_pollDecisions hleaves).checkpointed
      (P := fun disk n => ∃ data, Consecutive _ n data ∧ ∀ signed ∈ data, InInbox sha256 disk signed)
      (fun _ => ⟨[], .nil, by simp⟩) ?_ ?_ ?_
    · rintro Q disk disk' n hadds ⟨data, hdata, hinbox⟩
      exact ⟨data, hdata, fun signed hsigned => (hinbox signed hsigned).adds hadds⟩
    · rintro mid cursor page hcursor hfetch ⟨data, hdata, hdatain⟩ hinbox
      obtain ⟨_, -, -, hnext⟩ := decisions_eq_ok.mp hfetch
      refine ⟨data ++ page.data, .page hdata (.inr ⟨hcursor, hfetch⟩) hnext, ?_⟩
      intro signed hsigned
      exact (List.mem_append.mp hsigned).elim (hdatain signed) (hinbox signed)
    · intro digest file hfile
      obtain ⟨cursor, hcontent, data, hdata, hinbox⟩ := ih digest file hfile
      exact ⟨cursor, hcontent, data, hdata.mono Set.subset_union_left, hinbox⟩

/-- Whatever the relay answers and wherever the polls are stopped: a cursor that the host reads back
is the number of decisions of the pages that were served one behind the other up to it, and all of
them are whole in the inbox. -/
theorem cursor_backed {served : Set (RelayCursor × RelayDecisionPage sha256)}
    (h : PolledDisk sha256 readSigned parse binding served disk) {digest : Digest} {file : File}
    (hfile : disk.files (.cursors, digest) = some file) {checkpoint : RelayCursorCheckpoint}
    (hread : decodeCheckpoint sha256 parse binding digest (some file.content) = .ok checkpoint) :
    ∃ data, Consecutive served checkpoint.nextCursor.val data ∧
      data.length = checkpoint.nextCursor.val ∧ ∀ signed ∈ data, InInbox sha256 disk signed := by
  obtain ⟨data, hdata, hinbox⟩ := h.checkpointed.of_decode hfile hread
  exact ⟨data, hdata, hdata.length, hinbox⟩

/-- One poll of the sample relay. -/
theorem cursor_backed_sample :
    ∃ (served : Set (RelayCursor × RelayDecisionPage zeroSha256)) (disk : Disk RelayFile),
      PolledDisk zeroSha256 readSample parseSample sampleBinding served disk ∧
      ∃ data, Consecutive served sampleCheckpoint.nextCursor.val data ∧
        data.length = sampleCheckpoint.nextCursor.val ∧
        ∀ signed ∈ data, InInbox zeroSha256 disk signed := by
  obtain ⟨disk, file, result, hpoll, hfile, hread⟩ := exists_samplePoll
  exact ⟨_, disk, .poll .empty hpoll.leaves,
    cursor_backed (.poll .empty hpoll.leaves) hfile hread⟩

/-! ## This relay -/

/-- The relay and the disk of the host. -/
structure Exchange where
  disk : Disk RelayFile
  relay : RelaySystem

/-- The relay answers a request for the decisions after a cursor. -/
def Replies (sha256 : Sha256) (env : Env) (authorization : String) (s : RelayState)
    (after : RelayCursor) (reply : Reply) : Prop :=
  ∃ s', Completes semantics (listDecisions sha256 env authorization (toString after.val)) s reply s'

section Exchanged

variable (sha256 : Sha256) (hmac : Hmac) (env : Env) (authorization : String)
  (readSigned : Json → Option SignedDecision) (parse : Parse RelayCursorCheckpoint)
  (binding : Digest)

/-- The reply of a poll is that of the relay to a request with the cursor that the poll has read; it
may be lost. -/
def PollReply (exchange : Exchange) (reply : Option Reply) : Prop :=
  ∀ after, ReadsCursor sha256 parse binding exchange.disk after → ∀ value ∈ reply,
    Replies sha256 env authorization exchange.relay.state after value

/-- The relay goes on, or the host polls it and may be stopped. -/
inductive Exchange.Step : Exchange → Exchange → Prop
  | relay {disk : Disk RelayFile} {relay relay' : RelaySystem}
      (h : System.Step semantics (Starts sha256 hmac env) relay relay') :
      Step ⟨disk, relay⟩ ⟨disk, relay'⟩
  | poll {exchange : Exchange} {reply : Option Reply} {disk' : Disk RelayFile}
      (hreply : PollReply sha256 env authorization parse binding exchange reply)
      (hleaves : Leaves Files.semantics
        (pollDecisions sha256 parse binding (decisions sha256 readSigned reply)) exchange.disk
        disk') : Step exchange ⟨disk', exchange.relay⟩

/-- The exchanges that start with an empty relay and an empty disk. -/
def Exchanged (exchange : Exchange) : Prop :=
  ∃ clock, Relation.ReflTransGen
    (Exchange.Step sha256 hmac env authorization readSigned parse binding)
    ⟨.empty, ⟨⟨.empty, clock⟩, []⟩⟩ exchange

end Exchanged

variable {exchange exchange' : Exchange}

/-- A reply that is lost. -/
theorem pollReply_none (exchange : Exchange) :
    PollReply sha256 env authorization parse binding exchange none := by
  intro after _ value hvalue
  cases hvalue

/-- The relay goes on before it is polled. -/
theorem RelayReachable.exchanged {relay : RelaySystem} (h : RelayReachable sha256 hmac env relay) :
    Exchanged sha256 hmac env authorization readSigned parse binding ⟨.empty, relay⟩ := by
  obtain ⟨clock, hrun⟩ := h
  refine ⟨clock, ?_⟩
  induction hrun with
  | refl => exact .refl
  | tail _ hstep ih => exact ih.tail (.relay hstep)

theorem Exchanged.poll
    (h : Exchanged sha256 hmac env authorization readSigned parse binding exchange)
    {reply : Option Reply} (hreply : PollReply sha256 env authorization parse binding exchange reply)
    (hleaves : Leaves Files.semantics
      (pollDecisions sha256 parse binding (decisions sha256 readSigned reply)) exchange.disk disk') :
    Exchanged sha256 hmac env authorization readSigned parse binding ⟨disk', exchange.relay⟩ :=
  h.imp fun _ hrun => hrun.tail (.poll hreply hleaves)

theorem exchanged_sample : Exchanged zeroSha256 zeroHmac sampleEnv ("Bearer " ++ sampleToken)
    readSample parseSample sampleBinding ⟨.empty, sampleSystem⟩ :=
  (playRequests_reachable _ _ _ _ _).exchanged

theorem pollReply_sample : PollReply zeroSha256 sampleEnv ("Bearer " ++ sampleToken) parseSample
    sampleBinding ⟨.empty, sampleSystem⟩ (some sampleReply) := by
  intro after hafter value hvalue
  obtain rfl := hafter.unique readsCursor_empty
  cases hvalue
  exact ⟨_, completes_play Op.exec_perform _ _ _⟩

/-- The decisions of the relay, in their order. -/
def Exchange.log (exchange : Exchange) : List DecisionRow := exchange.relay.state.database.decisions

theorem Exchange.log_mk (disk : Disk RelayFile) (relay : RelaySystem) :
    (Exchange.mk disk relay).log = relay.state.database.decisions := rfl

/-- The first decisions of a log are whole in the inbox. -/
structure Covers (sha256 : Sha256) (readSigned : Json → Option SignedDecision)
    (log : List DecisionRow) (disk : Disk RelayFile) (n : ℕ) : Prop where
  le_length : n ≤ log.length
  inbox : ∀ row ∈ log.take n, ∃ signed, readSigned row.signed = some signed ∧
    InInbox sha256 disk signed

theorem exists_of_mapM_eq_some {α β : Type} {f : α → Option β} {xs : List α} {ys : List β}
    (h : xs.mapM f = some ys) : ∀ x ∈ xs, ∃ y ∈ ys, f x = some y := by
  induction xs generalizing ys with
  | nil => simp
  | cons x xs ih =>
    rw [List.mapM_cons, Option.bind_eq_bind, Option.bind_eq_some_iff] at h
    obtain ⟨y, hy, h⟩ := h
    rw [Option.bind_eq_bind, Option.bind_eq_some_iff] at h
    obtain ⟨ys', hys, h⟩ := h
    cases h
    intro x' hx'
    rcases List.mem_cons.mp hx' with rfl | hx'
    · exact ⟨y, List.mem_cons_self, hy⟩
    · obtain ⟨y', hy', hfx⟩ := ih hys x' hx'
      exact ⟨y', List.mem_cons_of_mem _ hy', hfx⟩

/-- A page that the client accepts from the relay is the next one of its log. -/
theorem page_of_replies {s : RelayState} (hnumbered : s.database.Numbered) {reply : Option Reply}
    {after : RelayCursor}
    (hreply : ∀ value ∈ reply, Replies sha256 env authorization s after value)
    {page : RelayDecisionPage sha256} (hpage : decisions sha256 readSigned reply after = .ok page) :
    ((s.database.decisions.drop after.val).take 100).mapM (fun row => readSigned row.signed)
        = some page.data ∧
      page.nextCursor.val
        = after.val + ((s.database.decisions.drop after.val).take 100).length := by
  obtain ⟨body, rfl, hread, -⟩ := decisions_eq_ok.mp hpage
  obtain ⟨s', hcompletes⟩ := hreply _ rfl
  rw [completes_listDecisions hnumbered hcompletes] at hread
  exact readPage_pageBody hread

/-- The page after what is covered covers the log further. -/
theorem Covers.page {log : List DecisionRow} {n : ℕ} {page : RelayDecisionPage sha256}
    (h : Covers sha256 readSigned log disk n)
    (hdata : ((log.drop n).take 100).mapM (fun row => readSigned row.signed) = some page.data)
    (hinbox : ∀ signed ∈ page.data, InInbox sha256 disk signed) :
    Covers sha256 readSigned log disk (n + ((log.drop n).take 100).length) := by
  have hlength : ((log.drop n).take 100).length = min 100 (log.length - n) := by
    rw [List.length_take, List.length_drop]
  have hle := h.le_length
  refine ⟨by omega, ?_⟩
  rw [hlength, List.take_add]
  intro row hrow
  rcases List.mem_append.mp hrow with hrow | hrow
  · exact h.inbox row hrow
  · have hmem : row ∈ (log.drop n).take 100 :=
      List.take_subset_take_left _ (Nat.min_le_left _ _) hrow
    obtain ⟨signed, hsigned, hread⟩ := exists_of_mapM_eq_some hdata row hmem
    exact ⟨signed, hread, hinbox signed hsigned⟩

theorem Covers.log_mono {log log' : List DecisionRow} {n : ℕ}
    (h : Covers sha256 readSigned log disk n) (hlog : log <+: log') :
    Covers sha256 readSigned log' disk n := by
  refine ⟨h.le_length.trans hlog.length_le, fun row hrow => h.inbox row ?_⟩
  obtain ⟨rest, rfl⟩ := hlog
  rwa [List.take_append_of_le_length h.le_length] at hrow

theorem Covers.adds {log : List DecisionRow} {n : ℕ} {Q : RelayFile → Bytes → Prop}
    (h : Covers sha256 readSigned log disk n) (hadds : Adds Q disk disk') :
    Covers sha256 readSigned log disk' n :=
  ⟨h.le_length, fun row hrow => (h.inbox row hrow).imp fun _ ⟨hread, hin⟩ => ⟨hread, hin.adds hadds⟩⟩

/-- What holds in every exchange. -/
structure Exchange.Sound (sha256 : Sha256) (readSigned : Json → Option SignedDecision)
    (binding : Digest) (exchange : Exchange) : Prop where
  numbered : exchange.relay.state.database.Numbered
  checkpointed : Checkpointed binding (Covers sha256 readSigned exchange.log exchange.disk)
    exchange.disk

theorem Exchange.Sound.step (h : exchange.Sound sha256 readSigned binding)
    (hstep : Exchange.Step sha256 hmac env authorization readSigned parse binding exchange
      exchange') : exchange'.Sound sha256 readSigned binding := by
  cases hstep with
  | @relay disk relay relay' hrelay =>
    have hmoves := System.moves (.single hrelay)
    refine ⟨h.numbered.moves hmoves, fun digest file hfile => ?_⟩
    obtain ⟨cursor, hcontent, hcovers⟩ := h.checkpointed digest file hfile
    exact ⟨cursor, hcontent, hcovers.log_mono (decisions_isPrefix hmoves)⟩
  | @poll exchange reply disk' hreply hleaves =>
    refine ⟨h.numbered, (leaves_pollDecisions hleaves).checkpointed
      (P := fun disk n => Covers sha256 readSigned exchange.log disk n) ?_
      (fun hadds hcovers => hcovers.adds hadds) ?_ h.checkpointed⟩
    · exact fun _ => ⟨Nat.zero_le _, by simp⟩
    · intro mid cursor page hcursor hfetch hcovers hinbox
      obtain ⟨hdata, hnext⟩ := page_of_replies h.numbered (hreply cursor hcursor) hfetch
      rw [hnext]
      exact hcovers.page hdata hinbox

theorem Exchanged.sound
    (h : Exchanged sha256 hmac env authorization readSigned parse binding exchange) :
    exchange.Sound sha256 readSigned binding := by
  obtain ⟨clock, h⟩ := h
  refine reflTransGen_preserves (P := Exchange.Sound sha256 readSigned binding)
    (fun _ _ hstep hsound => hsound.step hstep) h ⟨rfl, ?_⟩
  intro digest file hfile
  cases hfile

/-- Whatever requests the relay handles at the same time and wherever the polls are stopped: a
cursor that the host reads back does not exceed the log of the relay, and every decision of the log up
to it is whole in the inbox. -/
theorem cursor_covered
    (h : Exchanged sha256 hmac env authorization readSigned parse binding exchange) {digest : Digest}
    {file : File} (hfile : exchange.disk.files (.cursors, digest) = some file)
    {checkpoint : RelayCursorCheckpoint}
    (hread : decodeCheckpoint sha256 parse binding digest (some file.content) = .ok checkpoint) :
    checkpoint.nextCursor.val ≤ exchange.log.length ∧
      ∀ row ∈ exchange.log.take checkpoint.nextCursor.val, ∃ signed,
        readSigned row.signed = some signed ∧ InInbox sha256 exchange.disk signed := by
  have hcovers := h.sound.checkpointed.of_decode hfile hread
  exact ⟨hcovers.le_length, hcovers.inbox⟩

theorem cursor_covered_sample : ∃ exchange : Exchange,
    Exchanged zeroSha256 zeroHmac sampleEnv ("Bearer " ++ sampleToken) readSample parseSample
      sampleBinding exchange ∧ sampleCheckpoint.nextCursor.val ≤ exchange.log.length ∧
      ∀ row ∈ exchange.log.take sampleCheckpoint.nextCursor.val, ∃ signed,
        readSample row.signed = some signed ∧ InInbox zeroSha256 exchange.disk signed := by
  obtain ⟨disk, file, result, hpoll, hfile, hread⟩ := exists_samplePoll
  have hexchanged := exchanged_sample.poll pollReply_sample hpoll.leaves
  exact ⟨_, hexchanged, cursor_covered hexchanged hfile hread⟩

/-! ## Torn files -/

theorem canonicalJson_obj_ne_nil (fields : List (String × Json)) :
    canonicalJson (.obj fields) ≠ [] := by
  have hbrace : utf8 "\x7b" ≠ [] := by
    rw [utf8_eq_map (by decide)]
    exact List.cons_ne_nil _ _
  rw [canonicalJson, Json.Encoder.encode, utf8_append, utf8_append]
  simp [hbrace]

theorem Polled.adds (h : Polled sha256 parse binding fetch disk disk') :
    Adds (fun _ _ => True) disk disk' := by
  cases h with
  | same hdisk => exact .of_files (by rw [hdisk])
  | putting _ _ hitems => exact hitems.mono fun _ _ _ => trivial
  | storing _ _ hitems _ hcheckpoint =>
    exact (hitems.mono fun _ _ _ => trivial).trans (hcheckpoint.mono fun _ _ _ => trivial)

/-- No file of the host is ever changed or removed between polls, and the log of the relay grows. -/
theorem Exchange.grows_steps (h : Relation.ReflTransGen
    (Exchange.Step sha256 hmac env authorization readSigned parse binding) exchange exchange') :
    Adds (fun _ _ => True) exchange.disk exchange'.disk ∧ exchange.log <+: exchange'.log := by
  induction h with
  | refl => exact ⟨.of_files rfl, List.prefix_rfl⟩
  | tail _ hstep ih =>
    cases hstep with
    | relay hrelay =>
      exact ⟨ih.1, ih.2.trans (decisions_isPrefix (System.moves (.single hrelay)))⟩
    | poll _ hleaves => exact ⟨ih.1.trans (leaves_pollDecisions hleaves).adds, ih.2⟩

/-- A poll that was stopped while it wrote a decision has left a file that no later poll gets past:
every cursor that is read from then on lies before the decision. -/
theorem torn_item_holds_cursor
    (h : Exchanged sha256 hmac env authorization readSigned parse binding exchange)
    {i : ℕ} {row : DecisionRow} (hrow : exchange.log[i]? = some row) {signed : SignedDecision}
    (hsigned : readSigned row.signed = some signed) {file : File}
    (hfile : exchange.disk.files (.inbox, decisionFileDigest sha256 signed) = some file)
    (htorn : file.content ≠ signed.payload)
    (hlater : Relation.ReflTransGen
      (Exchange.Step sha256 hmac env authorization readSigned parse binding) exchange exchange') :
    ∀ cursor, ReadsCursor sha256 parse binding exchange'.disk cursor → cursor.val ≤ i := by
  intro cursor hcursor
  obtain ⟨hkeeps, hlog⟩ := Exchange.grows_steps hlater
  have hexchanged : Exchanged sha256 hmac env authorization readSigned parse binding exchange' :=
    h.imp fun _ hrun => hrun.trans hlater
  have hcovers : Covers sha256 readSigned exchange'.log exchange'.disk cursor.val :=
    hexchanged.sound.checkpointed.of_readsCursor ⟨Nat.zero_le _, by simp⟩ hcursor
  by_contra hlt
  obtain ⟨hi, hget⟩ := List.getElem?_eq_some_iff.mp hrow
  have hmem : row ∈ exchange'.log.take cursor.val := by
    refine List.mem_iff_getElem?.mpr ⟨i, ?_⟩
    rw [List.getElem?_take_of_lt (by omega)]
    obtain ⟨rest, hrest⟩ := hlog
    rw [← hrest, List.getElem?_append_left hi, hrow]
  obtain ⟨signed', hsigned', file', hfile', hcontent⟩ := hcovers.inbox row hmem
  rw [hsigned] at hsigned'
  cases hsigned'
  rw [hkeeps.keeps hfile] at hfile'
  cases hfile'
  exact htorn hcontent

/-- The sample poll is stopped when it has created the file of the decision. -/
theorem torn_item_holds_cursor_sample : ∃ exchange exchange' : Exchange,
    Relation.ReflTransGen (Exchange.Step zeroSha256 zeroHmac sampleEnv ("Bearer " ++ sampleToken)
      readSample parseSample sampleBinding) exchange exchange' ∧
    exchange'.log.length = 1 ∧
    ∀ cursor, ReadsCursor zeroSha256 parseSample sampleBinding exchange'.disk cursor →
      cursor.val ≤ 0 := by
  obtain ⟨row, hrow, hsigned⟩ := row_sample
  have hlog : ∀ disk, (Exchange.mk disk sampleSystem).log = [row] := fun disk => by
    rw [Exchange.log_mk, hrow]
  have hfirst : ∀ disk, (Exchange.mk disk sampleSystem).log[0]? = some row := fun disk => by
    rw [hlog]
    rfl
  have hfile : (Disk.empty.create (.inbox, decisionFileDigest zeroSha256 sampleSigned) :
      Disk RelayFile).files (.inbox, decisionFileDigest zeroSha256 sampleSigned)
        = some ⟨0, 0, [], false⟩ := by
    rw [Disk.files_create, Function.update_self]
    rfl
  have htorn : [] ≠ sampleSigned.payload := (canonicalJson_obj_ne_nil _).symm
  refine ⟨⟨Disk.empty.create (.inbox, decisionFileDigest zeroSha256 sampleSigned), sampleSystem⟩, _,
    .refl, ?_, ?_⟩
  · rw [hlog]
    rfl
  · exact torn_item_holds_cursor (exchanged_sample.poll pollReply_sample leaves_sample) (hfirst _)
      hsigned hfile htorn .refl

/-- A poll that was stopped while it wrote a checkpoint has ended the exchange: no later poll writes
anything. -/
theorem torn_checkpoint_stops {digest : Digest} {file : File}
    (hfile : exchange.disk.files (.cursors, digest) = some file)
    (htorn : ∀ checkpoint : RelayCursorCheckpoint, file.content ≠ checkpoint.payload)
    (hlater : Relation.ReflTransGen
      (Exchange.Step sha256 hmac env authorization readSigned parse binding) exchange exchange') :
    exchange'.disk = exchange.disk := by
  have hunread : ∀ cursor, ¬ ReadsCursor sha256 parse binding exchange.disk cursor := by
    intro cursor hcursor
    obtain ⟨checkpoint, hread, -⟩ := hcursor.readable digest file hfile
    exact htorn checkpoint (Option.some.inj (decodeCheckpoint_eq_ok.mp hread).1)
  induction hlater with
  | refl => rfl
  | tail _ hstep ih =>
    cases hstep with
    | relay => exact ih
    | poll _ hleaves =>
      cases leaves_pollDecisions hleaves with
      | same hdisk => exact hdisk.trans ih
      | putting hcursor | storing hcursor =>
        rw [ih] at hcursor
        exact absurd hcursor (hunread _)

/-- The checkpoint of the sample was created and not written. -/
theorem torn_checkpoint_stops_sample : ∃ exchange exchange' : Exchange,
    Exchange.Step zeroSha256 zeroHmac sampleEnv ("Bearer " ++ sampleToken) readSample parseSample
      sampleBinding exchange exchange' ∧
    (exchange.disk.files (RelayCursorStore.nameOf zeroSha256 sampleCheckpoint)).isSome ∧
    exchange'.disk = exchange.disk := by
  have htorn : ∀ checkpoint : RelayCursorCheckpoint, [] ≠ checkpoint.payload :=
    fun _ => (canonicalJson_obj_ne_nil _).symm
  have hstep : Exchange.Step zeroSha256 zeroHmac sampleEnv ("Bearer " ++ sampleToken) readSample
      parseSample sampleBinding
      ⟨Disk.empty.create (RelayCursorStore.nameOf zeroSha256 sampleCheckpoint), sampleSystem⟩
      ⟨Disk.empty.create (RelayCursorStore.nameOf zeroSha256 sampleCheckpoint), sampleSystem⟩ :=
    .poll (pollReply_none _) (.refl _ _)
  exact ⟨_, _, hstep, rfl, torn_checkpoint_stops (Function.update_self _ _ _) htorn (.single hstep)⟩

/-! ## Polls that succeed -/

/-- The checkpoints have got to a place of the log. -/
def Reached (binding : Digest) (disk : Disk RelayFile) (n : ℕ) : Prop :=
  n = 0 ∨ ∃ digest file, ∃ cursor : RelayCursor, disk.files (.cursors, digest) = some file ∧
    file.content = (⟨binding, cursor⟩ : RelayCursorCheckpoint).payload ∧ n ≤ cursor.val

theorem Reached.adds {Q : RelayFile → Bytes → Prop} {n : ℕ} (h : Reached binding disk n)
    (hadds : Adds Q disk disk') : Reached binding disk' n :=
  h.imp_right fun ⟨digest, file, cursor, hfile, h⟩ => ⟨digest, file, cursor, hadds.keeps hfile, h⟩

theorem Reached.mono {m n : ℕ} (h : Reached binding disk n) (hle : m ≤ n) :
    Reached binding disk m := by
  rcases h with rfl | ⟨digest, file, cursor, hfile, hcontent, hn⟩
  · exact .inl (Nat.le_zero.mp hle)
  · exact .inr ⟨digest, file, cursor, hfile, hcontent, hle.trans hn⟩

theorem ReadsCursor.reached {cursor : RelayCursor}
    (h : ReadsCursor sha256 parse binding disk cursor) : Reached binding disk cursor.val := by
  rcases h.attained with rfl | ⟨digest, file, checkpoint, hfile, hread, rfl⟩
  · exact .inl rfl
  · obtain ⟨hcontent, -, -, -, rfl⟩ := decodeCheckpoint_eq_ok.mp hread
    exact .inr ⟨digest, file, checkpoint.nextCursor, hfile, Option.some.inj hcontent, le_rfl⟩

theorem Reached.le_cursor {n : ℕ} (h : Reached binding disk n) {cursor : RelayCursor}
    (hcursor : ReadsCursor sha256 parse binding disk cursor) : n ≤ cursor.val := by
  rcases h with rfl | ⟨digest, file, reached, hfile, hcontent, hn⟩
  · exact Nat.zero_le _
  · obtain ⟨checkpoint, hread, hle⟩ := hcursor.readable digest file hfile
    have hpayload := Option.some.inj (decodeCheckpoint_eq_ok.mp hread).1
    rw [hcontent] at hpayload
    rw [← RelayCursorCheckpoint.nextCursor_of_payload_eq hpayload] at hle
    exact hn.trans hle

section Progress

variable (sha256 hmac env authorization readSigned parse binding)

/-- A poll that ends and succeeds. -/
def Exchange.Succeeds (exchange exchange' : Exchange) : Prop :=
  ∃ reply result, PollReply sha256 env authorization parse binding exchange reply ∧
    Completes Files.semantics (pollDecisions sha256 parse binding (decisions sha256 readSigned reply))
      exchange.disk (.ok result) exchange'.disk ∧ exchange'.relay = exchange.relay

/-- An exchange goes on, and a number of its polls succeed. -/
inductive Progress : ℕ → Exchange → Exchange → Prop
  | refl (exchange : Exchange) : Progress 0 exchange exchange
  | step {k : ℕ} {exchange exchange₁ exchange₂ : Exchange} (h : Progress k exchange exchange₁)
      (hstep : Exchange.Step sha256 hmac env authorization readSigned parse binding exchange₁
        exchange₂) : Progress k exchange exchange₂
  | success {k : ℕ} {exchange exchange₁ exchange₂ : Exchange} (h : Progress k exchange exchange₁)
      (hpoll : Exchange.Succeeds sha256 env authorization readSigned parse binding exchange₁
        exchange₂) : Progress (k + 1) exchange exchange₂

end Progress

theorem Exchange.Succeeds.step
    (h : Exchange.Succeeds sha256 env authorization readSigned parse binding exchange exchange') :
    Exchange.Step sha256 hmac env authorization readSigned parse binding exchange exchange' := by
  obtain ⟨reply, result, hreply, hcompletes, hrelay⟩ := h
  have hstep : Exchange.Step sha256 hmac env authorization readSigned parse binding exchange
      ⟨exchange'.disk, exchange.relay⟩ := .poll hreply hcompletes.leaves
  rwa [← hrelay] at hstep

theorem Progress.steps {k : ℕ}
    (h : Progress sha256 hmac env authorization readSigned parse binding k exchange exchange') :
    Relation.ReflTransGen (Exchange.Step sha256 hmac env authorization readSigned parse binding)
      exchange exchange' := by
  induction h with
  | refl => exact .refl
  | step _ hstep ih => exact ih.tail hstep
  | success _ hpoll ih => exact ih.tail hpoll.step

/-- A poll that succeeds gets a page further, or to the end of the log. -/
theorem Exchange.Succeeds.reached {n : ℕ} (hsound : exchange.Sound sha256 readSigned binding)
    (h : Exchange.Succeeds sha256 env authorization readSigned parse binding exchange exchange')
    (hreached : Reached binding exchange.disk n) :
    Reached binding exchange'.disk (min (n + 100) exchange.log.length) := by
  obtain ⟨reply, ⟨received, stored, next⟩, hreply, hcompletes, -⟩ := h
  obtain ⟨cursor, page, hcursor, hpage, -, rfl, -, hstored⟩ := completes_pollDecisions hcompletes
  have hnext : Reached binding exchange'.disk page.nextCursor.val := by
    rcases hstored with hreads | ⟨file, hfile, hcontent⟩
    · exact hreads.reached.adds (leaves_pollDecisions hcompletes.leaves).adds
    · exact .inr ⟨_, file, page.nextCursor, hfile, hcontent, le_rfl⟩
  obtain ⟨-, hpages⟩ := page_of_replies hsound.numbered (hreply cursor hcursor) hpage
  have hle := hreached.le_cursor hcursor
  have hlog : exchange.relay.state.database.decisions = exchange.log := rfl
  rw [List.length_take, List.length_drop, hlog] at hpages
  exact hnext.mono (by omega)

/-- Polls that succeed get through the log a hundred decisions at a time: after so many of them, these
many decisions that the relay had at first are whole in the inbox. -/
theorem polls_cover {k : ℕ}
    (h : Exchanged sha256 hmac env authorization readSigned parse binding exchange)
    (hprogress : Progress sha256 hmac env authorization readSigned parse binding k exchange
      exchange') :
    ∀ row ∈ exchange.log.take (100 * k), ∃ signed, readSigned row.signed = some signed ∧
      InInbox sha256 exchange'.disk signed := by
  have hreached : Reached binding exchange'.disk (min (100 * k) exchange.log.length) := by
    induction hprogress with
    | refl => exact .inl (by simp)
    | @step k exchange exchange₁ exchange₂ hbefore hstep ih =>
      exact (ih h).adds (Exchange.grows_steps (.single hstep)).1
    | @success k exchange exchange₁ exchange₂ hbefore hpoll ih =>
      have hsound : exchange₁.Sound sha256 readSigned binding :=
        (show Exchanged sha256 hmac env authorization readSigned parse binding exchange₁ from
          h.imp fun _ hrun => hrun.trans hbefore.steps).sound
      have hlength := (Exchange.grows_steps hbefore.steps).2.length_le
      exact (hpoll.reached hsound (ih h)).mono (by omega)
  have hlog := (Exchange.grows_steps hprogress.steps).2
  have hsound : exchange'.Sound sha256 readSigned binding :=
    (show Exchanged sha256 hmac env authorization readSigned parse binding exchange' from
      h.imp fun _ hrun => hrun.trans hprogress.steps).sound
  intro row hrow
  rcases hreached with hzero | ⟨digest, file, cursor, hfile, hcontent, hle⟩
  · rw [List.take_eq_take_min, hzero] at hrow
    cases hrow
  · obtain ⟨cursor', hstart, hcovers⟩ := hsound.checkpointed digest file hfile
    rw [hcontent] at hstart
    have hsame : cursor = cursor' := RelayCursorCheckpoint.nextCursor_of_payload_eq
      (RelayCursorCheckpoint.payload_eq_of_isPrefix hstart)
    rw [← hsame] at hcovers
    refine hcovers.inbox row ?_
    rw [List.take_eq_take_min] at hrow
    obtain ⟨rest, hrest⟩ := hlog
    have hin : row ∈ exchange'.log.take (min (100 * k) exchange.log.length) := by
      rwa [← hrest, List.take_append_of_le_length (Nat.min_le_right _ _)]
    exact List.take_subset_take_left _ hle hin

theorem polls_cover_sample : ∃ exchange exchange' : Exchange, exchange.log.length = 1 ∧
    Progress zeroSha256 zeroHmac sampleEnv ("Bearer " ++ sampleToken) readSample parseSample
      sampleBinding 1 exchange exchange' ∧
    ∀ row ∈ exchange.log.take (100 * 1), ∃ signed, readSample row.signed = some signed ∧
      InInbox zeroSha256 exchange'.disk signed := by
  obtain ⟨row, hrow, -⟩ := row_sample
  obtain ⟨disk, file, result, hpoll, -⟩ := exists_samplePoll
  have hprogress : Progress zeroSha256 zeroHmac sampleEnv ("Bearer " ++ sampleToken) readSample
      parseSample sampleBinding 1 ⟨.empty, sampleSystem⟩ ⟨disk, sampleSystem⟩ :=
    .success (.refl _) ⟨some sampleReply, result, pollReply_sample, hpoll, rfl⟩
  refine ⟨⟨.empty, sampleSystem⟩, _, ?_, hprogress, polls_cover exchanged_sample hprogress⟩
  rw [Exchange.log_mk, hrow]
  rfl

end IouAi.Relay
