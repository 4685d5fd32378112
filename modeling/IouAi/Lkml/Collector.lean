import IouAi.Lkml.Diff
import IouAi.Lkml.Urls
import IouAi.Wire.Patterns
import Mathlib.Data.Finset.Sort
import Mathlib.Data.String.Basic

/-!
# The archive collector

A run reads the feed of the archive, fetches the messages it has not seen, keeps what is in scope as
immutable artifacts, and saves the digests it has decided on as its last step. A run that is aborted
leaves the saved cursor alone; the messages it had decided on are fetched again by the next one.
-/

namespace IouAi.Lkml

open Checks

/-! ## Feeds and resources -/

structure FeedEntry where
  messageId : String
  messageIdSha256 : String
  publicUrl : String
  updated : String
  deriving DecidableEq

/-- The entries, newest first. -/
structure ParsedFeed where
  updated : String
  entries : List FeedEntry

structure FetchedResource where
  statusCode : ℤ
  finalUrl : String
  headers : List (String × String)
  body : Wire.Bytes

/-- The limits of a run. -/
structure CollectorConfig where
  feedMaxBytes : ℕ
  rawMaxBytes : ℕ
  maxMessages : ℕ
  one_le_maxMessages : 1 ≤ maxMessages
  maxMessages_le : maxMessages ≤ 100

/-- `lower` of a text that is compared with ASCII. -/
def lower (text : String) : List Char := text.toList.map lowerChar

/-- `_header`. -/
def header (headers : List (String × String)) (name : String) : Option String :=
  (headers.find? fun entry => lower entry.1 = lower name).map Prod.snd

/-- `_validate_resource`. -/
def validateResource (lib : NetlocChecks) (resource : FetchedResource) (kind : UrlKind)
    (maxBytes : ℕ) (contentTypes : List String) : Except LkmlError Unit := do
  let _ ← validateLoreUrl lib resource.finalUrl kind
  raiseIf (resource.statusCode ≠ 200)
    (.fetch ("archive returned HTTP " ++ toString resource.statusCode))
  raiseIf (resource.body.length > maxBytes) (.fetch "archive response exceeds byte cap")
  raiseIf (((header resource.headers "content-encoding").any fun encoding =>
      String.ofList (strip (lower encoding)) ∉ ["", "identity"]) = true)
    (.fetch "compressed archive responses are forbidden")
  raiseIf (String.ofList (strip (before ';'
      (lower ((header resource.headers "content-type").getD "")))) ∉ contentTypes)
    (.fetch "archive returned an unexpected content type")

/-! ## Evidence -/

structure LkmlEvidence where
  schemaVersion : String
  trust : String
  messageIdSha256 : String
  rawSha256 : String
  subject : String
  authorDomain : String
  date : String
  publicUrl : String
  diffFilePaths : List String
  hunkHeaders : List String
  diffCounts : DiffCounts
  structuralSummary : String

def DiffCounts.toDict (counts : DiffCounts) : Json :=
  .obj [("files", .num counts.files), ("hunks", .num counts.hunks),
    ("additions", .num counts.additions), ("deletions", .num counts.deletions)]

def LkmlEvidence.toDict (evidence : LkmlEvidence) : Json :=
  .obj [("schema_version", .str evidence.schemaVersion), ("trust", .str evidence.trust),
    ("message_id_sha256", .str evidence.messageIdSha256), ("raw_sha256", .str evidence.rawSha256),
    ("subject", .str evidence.subject), ("author_domain", .str evidence.authorDomain),
    ("date", .str evidence.date), ("public_url", .str evidence.publicUrl),
    ("diff_file_paths", .arr (evidence.diffFilePaths.map .str)),
    ("hunk_headers", .arr (evidence.hunkHeaders.map .str)),
    ("diff_counts", evidence.diffCounts.toDict),
    ("structural_summary", .str evidence.structuralSummary)]

/-- What the collector uses of the library: digests, the checks of an authority, and the parsers of
feeds and of mails. -/
structure Library where
  netloc : NetlocChecks
  sha256 : Wire.Sha256
  parseAtomFeed : Wire.Bytes → Except LkmlError ParsedFeed
  evidenceFromRaw : Wire.Bytes → FeedEntry → Except LkmlError (Option LkmlEvidence)

/-! ## The store -/

inductive ArtifactKind
  | raw
  | evidence
  deriving DecidableEq

/-- The path of an artifact: its kind and its digest. -/
abbrev ArtifactPath := ArtifactKind × String

abbrev Artifacts := ArtifactPath → Option Wire.Bytes

/-- What can go wrong when an artifact is written: an error before its file is linked or after. -/
inductive WriteFault
  | none
  | beforeLink (e : LkmlError)
  | afterLink (e : LkmlError)

structure StoredLkmlEvidence where
  evidence : LkmlEvidence
  rawPath : ArtifactPath
  evidencePath : ArtifactPath
  evidenceSha256 : String

def hexdigest (lib : Library) (content : Wire.Bytes) : String :=
  Wire.hexText (lib.sha256 content).toList

/-- A content is published under its digest; what is published there is never replaced. -/
def linkArtifact (lib : Library) (kind : ArtifactKind) (content : Wire.Bytes) (files : Artifacts) :
    Artifacts × Except LkmlError (String × ArtifactPath) :=
  match files (kind, hexdigest lib content) with
  | some existing =>
    if existing.length = content.length ∧ hexdigest lib existing = hexdigest lib content then
      (files, .ok (hexdigest lib content, kind, hexdigest lib content))
    else (files, .error (.state "existing immutable artifact is corrupt"))
  | none =>
    (Function.update files (kind, hexdigest lib content) (some content),
      .ok (hexdigest lib content, kind, hexdigest lib content))

/-- `_store_immutable`. -/
def storeImmutable (lib : Library) (fault : WriteFault) (kind : ArtifactKind)
    (content : Wire.Bytes) (files : Artifacts) :
    Artifacts × Except LkmlError (String × ArtifactPath) :=
  match fault with
  | .none => linkArtifact lib kind content files
  | .beforeLink e => (files, .error e)
  | .afterLink e =>
    ((linkArtifact lib kind content files).1,
      (linkArtifact lib kind content files).2.bind fun _ => .error e)

/-- `LkmlStore.store`. -/
def store (lib : Library) (fault : ArtifactKind → WriteFault) (raw : Wire.Bytes)
    (evidence : LkmlEvidence) (artifacts : Artifacts) :
    Artifacts × Except LkmlError StoredLkmlEvidence :=
  match storeImmutable lib (fault .raw) .raw raw artifacts with
  | (artifacts, .error e) => (artifacts, .error e)
  | (artifacts, .ok (rawDigest, rawPath)) =>
    if rawDigest ≠ evidence.rawSha256 then
      (artifacts, .error (.state "raw artifact digest changed before storage"))
    else
      match storeImmutable lib (fault .evidence) .evidence (Wire.canonicalJson evidence.toDict)
        artifacts with
      | (artifacts, .error e) => (artifacts, .error e)
      | (artifacts, .ok (evidenceDigest, evidencePath)) =>
        (artifacts, .ok ⟨evidence, rawPath, evidencePath, evidenceDigest⟩)

def maxStateBytes : ℕ := 16 * 1024 * 1024
def maxSeenIds : ℕ := 100000

/-- `state.json`, with the fields that are read again. -/
structure CursorFile where
  feedUpdated : Option String
  lastSuccessfulPoll : Option String
  seenMessageIdSha256 : List String
  deriving DecidableEq

structure Cursor where
  seenMessageIdSha256 : Finset String
  feedUpdated : Option String
  lastSuccessfulPoll : Option String

def Cursor.empty : Cursor := ⟨∅, none, none⟩

/-- The text of `state.json`: two spaces for each level, one line for each digest. -/
def CursorFile.text (file : CursorFile) : String :=
  let quoted := Json.python.quote
  let optional (value : Option String) := (value.map quoted).getD "null"
  let digests := file.seenMessageIdSha256.map fun digest => "\n    " ++ quoted digest
  "\x7b\n  \"feed_updated\": " ++ optional file.feedUpdated
    ++ ",\n  \"feed_url\": " ++ quoted (String.ofList (loreOrigin ++ feedPath))
    ++ ",\n  \"last_successful_poll\": " ++ optional file.lastSuccessfulPoll
    ++ ",\n  \"schema_version\": \"lkml-state.v1\",\n  \"seen_message_id_sha256\": "
    ++ (if digests = [] then "[]" else "[" ++ ",".intercalate digests ++ "\n  ]") ++ "\n\x7d\n"

/-- `load_cursor`. -/
def loadCursor (file : Option CursorFile) : Except LkmlError Cursor :=
  match file with
  | none => .ok Cursor.empty
  | some file => do
    raiseIf (file.text.toList.length > maxStateBytes) (.state "LKML cursor exceeds byte cap")
    raiseIf (file.seenMessageIdSha256.length > maxSeenIds)
      (.state "LKML cursor seen-id list is invalid")
    raiseIf (∃ item ∈ file.seenMessageIdSha256, Wire.isHex64 item = false)
      (.state "LKML cursor contains an invalid digest")
    return ⟨file.seenMessageIdSha256.toFinset, file.feedUpdated, file.lastSuccessfulPoll⟩

/-- `save_cursor`; the file takes its place by a rename, after which nothing raises. -/
def saveCursor (fault : Option LkmlError) (cursor : Cursor) : Except LkmlError CursorFile := do
  raiseIf (cursor.seenMessageIdSha256.card > maxSeenIds) (.state "LKML cursor capacity reached")
  let file : CursorFile :=
    ⟨cursor.feedUpdated, cursor.lastSuccessfulPoll, cursor.seenMessageIdSha256.sort (· ≤ ·)⟩
  raiseIf (file.text.toList.length > maxStateBytes)
    (.state "LKML cursor serialization exceeds byte cap")
  match fault with
  | some e => throw e
  | none => return file

/-! ## The loop over the feed -/

/-- How a message was decided on. -/
inductive Decision
  | stored (artifact : StoredLkmlEvidence)
  | outOfScope
  | malformed

structure CollectionReport where
  feedUpdated : String
  fetchedMessages : ℕ
  storedMessages : ℕ
  duplicateMessages : ℕ
  outOfScopeMessages : ℕ
  malformedMessages : ℕ
  artifacts : List StoredLkmlEvidence

/-- What a run finds outside the program: the answers of the archive, the faults of the disk and the
clock. -/
structure Surroundings where
  getFeed : Except LkmlError FetchedResource
  get : FeedEntry → String → Except LkmlError FetchedResource
  writeFault : FeedEntry → ArtifactKind → WriteFault
  now : Except LkmlError String
  saveFault : Option LkmlError

/-- The variables of the loop, with the messages it has asked for and those it has decided on. -/
structure LoopState where
  seen : Finset String
  inRun : Finset String
  considered : ℕ
  fetched : ℕ
  stored : ℕ
  duplicates : ℕ
  outOfScope : ℕ
  malformed : ℕ
  artifacts : List StoredLkmlEvidence
  files : Artifacts
  requests : List FeedEntry
  decided : List (FeedEntry × Decision)

def LoopState.start (cursor : Cursor) (files : Artifacts) : LoopState :=
  ⟨cursor.seenMessageIdSha256, ∅, 0, 0, 0, 0, 0, 0, [], files, [], []⟩

def LoopState.consider (s : LoopState) (entry : FeedEntry) : LoopState :=
  { s with
    considered := s.considered + 1
    inRun := insert entry.messageIdSha256 s.inRun }

def LoopState.request (s : LoopState) (entry : FeedEntry) : LoopState :=
  { s with requests := s.requests ++ [entry] }

/-- The entry is marked as seen. -/
def LoopState.decide (s : LoopState) (entry : FeedEntry) (decision : Decision) : LoopState :=
  { s with
    seen := insert entry.messageIdSha256 s.seen
    decided := s.decided ++ [(entry, decision)] }

section

variable (lib : Library) (config : CollectorConfig) (env : Surroundings)

/-- The answer to the request for a raw message. -/
def fetchRaw (entry : FeedEntry) (rawUrl : String) : Except LkmlError FetchedResource := do
  let resource ← env.get entry rawUrl
  validateResource lib.netloc resource .raw config.rawMaxBytes
    ["message/rfc822", "text/plain", "application/mbox"]
  return resource

/-- What becomes of a message that was fetched. -/
def classify (entry : FeedEntry) (body : Wire.Bytes) (s : LoopState) :
    LoopState × Option LkmlError :=
  match lib.evidenceFromRaw body entry with
  | .error (.parse _) => ({ s with malformed := s.malformed + 1 }.decide entry .malformed, none)
  | .error e => (s, some e)
  | .ok none => ({ s with outOfScope := s.outOfScope + 1 }.decide entry .outOfScope, none)
  | .ok (some evidence) =>
    match store lib (env.writeFault entry) body evidence s.files with
    | (files, .error e) => ({ s with files := files }, some e)
    | (files, .ok artifact) =>
      ({ s with
          files := files
          artifacts := s.artifacts ++ [artifact]
          stored := s.stored + 1 }.decide entry (.stored artifact), none)

/-- The body of the loop for an entry that is new; an error aborts the run. -/
def visit (entry : FeedEntry) (s : LoopState) : LoopState × Option LkmlError :=
  match rawUrlForEntry lib.netloc entry.publicUrl with
  | .error e => (s.consider entry, some e)
  | .ok rawUrl =>
    let s := (s.consider entry).request entry
    match fetchRaw lib config env entry rawUrl with
    | .error e => (s, some e)
    | .ok resource => classify lib env entry resource.body { s with fetched := s.fetched + 1 }

def loop : List FeedEntry → LoopState → LoopState × Option LkmlError
  | [], s => (s, none)
  | entry :: entries, s =>
    if entry.messageIdSha256 ∈ s.seen ∨ entry.messageIdSha256 ∈ s.inRun then
      loop entries { s with duplicates := s.duplicates + 1 }
    else if s.considered ≥ config.maxMessages then (s, none)
    else
      match visit lib config env entry s with
      | (s, some e) => (s, some e)
      | (s, none) => loop entries s

/-- The feed of a run. -/
def readFeed : Except LkmlError ParsedFeed := do
  let resource ← env.getFeed
  validateResource lib.netloc resource .feed config.feedMaxBytes
    ["application/atom+xml", "application/xml", "text/xml"]
  lib.parseAtomFeed resource.body

end

/-! ## Runs -/

structure CollectorState where
  cursor : Option CursorFile
  files : Artifacts

def CollectorState.initial : CollectorState := ⟨none, fun _ => none⟩

/-- The digests of the saved cursor. -/
def CollectorState.saved (state : CollectorState) : List String :=
  (state.cursor.map CursorFile.seenMessageIdSha256).getD []

/-- What a run has asked for and decided on, its report, and the state that it leaves. -/
structure RunResult where
  requests : List FeedEntry
  decided : List (FeedEntry × Decision)
  report : Except LkmlError CollectionReport
  state : CollectorState

/-- The limits and the surroundings of a run. -/
structure Job where
  config : CollectorConfig
  env : Surroundings

def LoopState.report (s : LoopState) (feed : ParsedFeed) : CollectionReport :=
  ⟨feed.updated, s.fetched, s.stored, s.duplicates, s.outOfScope, s.malformed, s.artifacts⟩

/-- The end of a run: the cursor is saved. -/
def finish (env : Surroundings) (feed : ParsedFeed) (s : LoopState) :
    Except LkmlError CursorFile := do
  let now ← env.now
  saveCursor env.saveFault ⟨s.seen, some feed.updated, some now⟩

/-- `LoreIoUringCollector.run`. -/
def run (lib : Library) (job : Job) (state : CollectorState) : RunResult :=
  match loadCursor state.cursor with
  | .error e => ⟨[], [], .error e, state⟩
  | .ok cursor =>
    match readFeed lib job.config job.env with
    | .error e => ⟨[], [], .error e, state⟩
    | .ok feed =>
      match loop lib job.config job.env feed.entries.reverse (.start cursor state.files) with
      | (s, some e) => ⟨s.requests, s.decided, .error e, { state with files := s.files }⟩
      | (s, none) =>
        match finish job.env feed s with
        | .error e => ⟨s.requests, s.decided, .error e, { state with files := s.files }⟩
        | .ok file => ⟨s.requests, s.decided, .ok (s.report feed), ⟨some file, s.files⟩⟩

/-- The state after some runs. -/
def afterRuns (lib : Library) (state : CollectorState) (jobs : List Job) : CollectorState :=
  jobs.foldl (fun state job => (run lib job state).state) state

end IouAi.Lkml
