import IouAi.Authority.Decisions
import IouAi.Storage.CreateOnly

/-!
# The stores of the host

`EventOutbox`, `QuarantineStore`, `ExecutionAuthorityStore` and `DecisionArchive`: what each of them
makes of a file that it finds, and the programs that work on it. All of them create the file of an
item under its final name and write it afterwards, so that a reader can meet half of it and a writer
that dies leaves half of it behind. In runs in which nobody looks at such a file the stores do what
they promise (`HostStore.unharmed_of_calm`).

What `json.loads` and the strict parsers make of a text is a parameter of the readers.
-/

namespace IouAi.Storage

open Authority Checks Files Wire

/-- A strict parser. -/
abbrev Parse (α : Type) := Bytes → Option α

/-- File names in their order. -/
def byName (names : List Digest) : List Digest :=
  names.insertionSort fun name other => name.val ≤ other.val

theorem byName_perm (names : List Digest) : (byName names).Perm names :=
  List.perm_insertionSort _ names

variable (sha256 : Sha256)

/-! ## The outbox of events -/

inductive EventProjectionError
  | unavailable
  | unbounded
  | digestMismatch
  | invalidJson
  | notCanonical
  | invalidEvent
  | collision
  | interrupted
  deriving DecidableEq

namespace EventOutbox

variable (loads : Parse Json) (parseEvent : Parse (RedactedEvent sha256))

/-- `_read_content_addressed`. -/
def readContentAddressed (digest : Digest) (bytes? : Option Bytes) :
    Except EventProjectionError Bytes :=
  match bytes? with
  | none => .error .unavailable
  | some payload => do
    raiseIf (2 * 1024 * 1024 < payload.length) .unbounded
    raiseIf (contentDigest sha256 payload ≠ digest) .digestMismatch
    match loads payload with
    | none => throw .invalidJson
    | some value =>
      raiseIf (canonicalJson value ≠ payload) .notCanonical
      return payload

/-- `parse_event`. -/
def parse (payload : Bytes) : Except EventProjectionError (RedactedEvent sha256) :=
  match parseEvent payload with
  | none => .error .invalidEvent
  | some event => .ok event

def shelf : Shelf Digest (RedactedEvent sha256) EventProjectionError where
  payload event := canonicalJson event.toJson
  nameOf event := contentDigest sha256 (canonicalJson event.toJson)
  decode digest bytes? := do
    let payload ← readContentAddressed sha256 loads digest bytes?
    parse sha256 parseEvent payload
  recheck event bytes? := do
    let existing ← readContentAddressed sha256 loads
      (contentDigest sha256 (canonicalJson event.toJson)) bytes?
    let _ ← parse sha256 parseEvent existing
    raiseIf (existing ≠ canonicalJson event.toJson) .collision
  interrupted := .interrupted
  order := byName
  order_perm := byName_perm
  limit := none

def put (event : RedactedEvent sha256) :
    FileProgram Digest (Except EventProjectionError (List (RedactedEvent sha256))) :=
  match parse sha256 parseEvent (canonicalJson event.toJson) with
  | .error error => .done (.error error)
  | .ok _ => putItem (shelf sha256 loads parseEvent) event

/-- The calls of an outbox that stores some events. -/
inductive Call (items : Set (RedactedEvent sha256)) :
    FileProgram Digest (Except EventProjectionError (List (RedactedEvent sha256))) → Prop
  | put {event : RedactedEvent sha256} (h : event ∈ items) : Call items (put sha256 loads parseEvent event)
  | events : Call items (readAll (shelf sha256 loads parseEvent))

/-- The parsers read what is stored, and the digests of the events differ. -/
structure Readable (items : Set (RedactedEvent sha256)) : Prop where
  loads : ∀ event ∈ items, ∃ value, loads (canonicalJson event.toJson) = some value ∧
    canonicalJson value = canonicalJson event.toJson
  parse : ∀ event ∈ items, parseEvent (canonicalJson event.toJson) = some event
  digest : ∀ event ∈ items, ∀ other ∈ items,
    contentDigest sha256 (canonicalJson event.toJson)
      = contentDigest sha256 (canonicalJson other.toJson) →
    canonicalJson event.toJson = canonicalJson other.toJson

end EventOutbox

/-! ## The quarantine -/

inductive QuarantineError
  | unavailable
  | sizeLimit
  | digestMismatch
  | invalidJson
  | notObject
  | notCanonical
  | countLimit
  | collision
  | interrupted
  deriving DecidableEq

namespace QuarantineStore

/-- The fields of a stored object. -/
abbrev Envelope := List (String × Json)

variable (loads : Parse Json) (maxItems maxBytes : ℕ)

/-- `QuarantineStore.get`. -/
def decode (digest : Digest) (bytes? : Option Bytes) : Except QuarantineError Envelope :=
  match bytes? with
  | none => .error .unavailable
  | some payload => do
    raiseIf (maxBytes < payload.length) .sizeLimit
    raiseIf (contentDigest sha256 payload ≠ digest) .digestMismatch
    match loads payload with
    | none => throw .invalidJson
    | some (.obj fields) =>
      raiseIf (canonicalJson (.obj fields) ≠ payload) .notCanonical
      return fields
    | some _ => throw .notObject

def shelf : Shelf Digest Envelope QuarantineError where
  payload envelope := canonicalJson (.obj envelope)
  nameOf envelope := contentDigest sha256 (canonicalJson (.obj envelope))
  decode := decode sha256 loads maxBytes
  recheck envelope bytes? :=
    match bytes? with
    | none => .error .unavailable
    | some existing => raiseIf (existing ≠ canonicalJson (.obj envelope)) .collision
  interrupted := .interrupted
  order := byName
  order_perm := byName_perm
  limit := some (maxItems, .countLimit)

/-- The calls of a quarantine that stores some objects. -/
inductive Call (items : Set Envelope) :
    FileProgram Digest (Except QuarantineError (List Envelope)) → Prop
  | put {envelope : Envelope} (h : envelope ∈ items) :
      Call items (putItem (shelf sha256 loads maxItems maxBytes) envelope)
  | get (digest : Digest) : Call items (getItem (shelf sha256 loads maxItems maxBytes) digest)
  | iterVerified : Call items (readAll (shelf sha256 loads maxItems maxBytes))

/-- `json.loads` reads what is stored, and the digests of the objects differ. -/
structure Readable (items : Set Envelope) : Prop where
  loads : ∀ envelope ∈ items, ∃ fields, loads (canonicalJson (.obj envelope)) = some (.obj fields) ∧
    canonicalJson (.obj fields) = canonicalJson (.obj envelope)
  digest : ∀ envelope ∈ items, ∀ other ∈ items,
    contentDigest sha256 (canonicalJson (.obj envelope))
      = contentDigest sha256 (canonicalJson (.obj other)) →
    canonicalJson (.obj envelope) = canonicalJson (.obj other)

/-- A reader has limits of its own. -/
def Refusal (error : QuarantineError) : Prop := error = .sizeLimit ∨ error = .countLimit

end QuarantineStore

/-! ## The authority store -/

inductive AuthorityStoreError
  | unavailable
  | unbounded
  | digestMismatch
  | invalid
  | notCanonical
  | collision
  | interrupted
  deriving DecidableEq

/-- The models of one directory of the store: validation reports, canary reports or candidates. -/
structure AuthorityModel (α : Type) where
  toJson : α → Json
  validate : Parse α

namespace ExecutionAuthorityStore

variable {α : Type} (model : AuthorityModel α)

/-- `_read_regular`. -/
def readRegular (maxBytes : ℕ) (bytes? : Option Bytes) : Except AuthorityStoreError Bytes :=
  match bytes? with
  | none => .error .unavailable
  | some payload => do
    raiseIf (maxBytes < payload.length) .unbounded
    return payload

/-- `ExecutionAuthorityStore._get`. -/
def decode (digest : Digest) (bytes? : Option Bytes) : Except AuthorityStoreError α := do
  let payload ← readRegular (64 * 1024) bytes?
  raiseIf (contentDigest sha256 payload ≠ digest) .digestMismatch
  match model.validate payload with
  | none => throw .invalid
  | some value =>
    raiseIf (canonicalJson (model.toJson value) ≠ payload) .notCanonical
    return value

def shelf : Shelf Digest α AuthorityStoreError where
  payload value := canonicalJson (model.toJson value)
  nameOf value := contentDigest sha256 (canonicalJson (model.toJson value))
  decode := decode sha256 model
  recheck value bytes? := do
    let payload := canonicalJson (model.toJson value)
    let existing ← readRegular (max payload.length 1) bytes?
    raiseIf (existing ≠ payload) .collision
  interrupted := .interrupted
  order := byName
  order_perm := byName_perm
  limit := none

/-- The calls of a directory that stores some models. -/
inductive Call (items : Set α) : FileProgram Digest (Except AuthorityStoreError (List α)) → Prop
  | put {value : α} (h : value ∈ items) : Call items (putItem (shelf sha256 model) value)
  | get (digest : Digest) : Call items (getItem (shelf sha256 model) digest)

/-- The parser reads what is stored, and the digests of the models differ. -/
structure Readable (items : Set α) : Prop where
  validate : ∀ value ∈ items, model.validate (canonicalJson (model.toJson value)) = some value
  digest : ∀ value ∈ items, ∀ other ∈ items,
    contentDigest sha256 (canonicalJson (model.toJson value))
      = contentDigest sha256 (canonicalJson (model.toJson other)) →
    canonicalJson (model.toJson value) = canonicalJson (model.toJson other)

end ExecutionAuthorityStore

/-! ## The archive of decisions -/

namespace DecisionArchive

variable (hmac : HmacSha256) (key : VerificationKey) (parse : Parse SignedDecision)

/-- `DecisionArchive._read_regular`. -/
def readRegular (bytes? : Option Bytes) : Except DecisionError Bytes :=
  match bytes? with
  | none => .error .itemUnavailable
  | some payload => do
    raiseIf (64 * 1024 < payload.length) .itemUnbounded
    return payload

/-- What `_read_archive` does with one file. -/
def decode (digest : Digest) (bytes? : Option Bytes) : Except DecisionError SignedDecision := do
  let payload ← readRegular bytes?
  raiseIf (contentDigest sha256 payload ≠ digest) .itemDigest
  match parse payload with
  | none => throw .itemInvalid
  | some signed =>
    raiseIf (signed.payload ≠ payload) .itemNotCanonical
    raiseIf (¬ verifySignature hmac key signed) .signature
    return signed

def shelf : Shelf Digest SignedDecision DecisionError where
  payload signed := signed.payload
  nameOf signed := decisionFileDigest sha256 signed
  decode := decode sha256 hmac key parse
  recheck signed bytes? := do
    let existing ← readRegular bytes?
    raiseIf (existing ≠ signed.payload) .digestCollision
  interrupted := .interrupted
  order := byName
  order_perm := byName_perm
  limit := none

/-- What an import makes of the decisions that it has read: its decision is among them, it is
refused, or it is to be stored. -/
def accept (outbox? : Option (Outbox sha256)) (current : Calendar.Datetime) (signed : SignedDecision)
    (decisions : List SignedDecision) : Except DecisionError (Option SignedDecision) := do
  let known ← scanDecisions decisions signed
  if known then return none
  match outbox? with
  | none => throw .outbox
  | some outbox =>
    checkDecision outbox signed current
    return some signed

/-- `import_signed`, with the events that it finds in the outbox and the time that it reads. -/
def importSigned (outbox? : Option (Outbox sha256)) (current : Calendar.Datetime)
    (signed : SignedDecision) : FileProgram Digest (Except DecisionError (List SignedDecision)) :=
  if verifySignature hmac key signed then
    visit (shelf sha256 hmac key parse) (accept sha256 outbox? current signed)
  else .done (.error .signature)

/-- The calls of an archive that some decisions are imported into. -/
inductive Call (items : Set SignedDecision) :
    FileProgram Digest (Except DecisionError (List SignedDecision)) → Prop
  | importSigned {signed : SignedDecision} (h : signed ∈ items) (outbox? : Option (Outbox sha256))
      (current : Calendar.Datetime) :
      Call items (importSigned sha256 hmac key parse outbox? current signed)
  | verifiedDecisions : Call items (readAll (shelf sha256 hmac key parse))

/-- The parser reads what is stored, and the digests of the decisions differ. -/
structure Readable (items : Set SignedDecision) : Prop where
  parse : ∀ signed ∈ items, parse signed.payload = some signed
  digest : ∀ signed ∈ items, ∀ other ∈ items,
    decisionFileDigest sha256 signed = decisionFileDigest sha256 other →
    signed.payload = other.payload

/-- What an import refuses for a reason of its own, and not because of a file in the archive. -/
def Refusal (error : DecisionError) : Prop :=
  error ≠ .itemUnavailable ∧ error ≠ .itemDigest ∧ error ≠ .itemInvalid ∧
    error ≠ .itemNotCanonical ∧ error ≠ .digestCollision ∧ error ≠ .interrupted

end DecisionArchive

/-! ## The stores keep their promises in calm runs -/

section Lawful

variable {sha256}

/-- A file with the text of a stored event is read unless it is too long. -/
theorem EventOutbox.readContentAddressed_payload {loads : Parse Json}
    {parseEvent : Parse (RedactedEvent sha256)} {items : Set (RedactedEvent sha256)}
    (h : Readable sha256 loads parseEvent items) {event : RedactedEvent sha256}
    (hevent : event ∈ items) :
    readContentAddressed sha256 loads (contentDigest sha256 (canonicalJson event.toJson))
        (some (canonicalJson event.toJson))
      = (do
        raiseIf (2 * 1024 * 1024 < (canonicalJson event.toJson).length) .unbounded
        return canonicalJson event.toJson) := by
  obtain ⟨value, hloads, hcanonical⟩ := h.loads event hevent
  simp only [readContentAddressed, hloads]
  rw [raiseIf_bind_of_not (not_not_intro rfl), raiseIf_bind_of_not (not_not_intro hcanonical)]

theorem EventOutbox.lawful {loads : Parse Json} {parseEvent : Parse (RedactedEvent sha256)}
    {items : Set (RedactedEvent sha256)} (h : Readable sha256 loads parseEvent items) :
    Lawful (shelf sha256 loads parseEvent) items (· = .unbounded) where
  decode event hevent error herror := by
    simp only [shelf, readContentAddressed_payload h hevent, parse, bind_assoc, pure_bind,
      h.parse event hevent] at herror
    obtain ⟨-, rfl⟩ | ⟨-, herror⟩ := raiseIf_bind_eq_error.mp herror
    · rfl
    · cases herror
  recheck event hevent error herror := by
    simp only [shelf, readContentAddressed_payload h hevent, parse, bind_assoc, pure_bind,
      h.parse event hevent] at herror
    obtain ⟨-, rfl⟩ | ⟨-, herror⟩ := raiseIf_bind_eq_error.mp herror
    · rfl
    · simp [Bind.bind, Except.bind] at herror
  limit _ _ hlimit := by cases hlimit
  payload_eq := h.digest

theorem EventOutbox.client_of_call {loads : Parse Json} {parseEvent : Parse (RedactedEvent sha256)}
    {items : Set (RedactedEvent sha256)} (h : Readable sha256 loads parseEvent items)
    {program : FileProgram Digest (Except EventProjectionError (List (RedactedEvent sha256)))}
    (hcall : Call sha256 loads parseEvent items program) :
    Client (shelf sha256 loads parseEvent) items (· = .unbounded) program := by
  cases hcall with
  | events => exact .read
  | @put event hevent =>
    have hput : put sha256 loads parseEvent event = putItem (shelf sha256 loads parseEvent) event := by
      simp only [put, parse, h.parse event hevent]
    rw [hput]
    exact .put hevent

theorem QuarantineStore.lawful {loads : Parse Json} {maxItems maxBytes : ℕ} {items : Set Envelope}
    (h : Readable sha256 loads items) :
    Lawful (shelf sha256 loads maxItems maxBytes) items Refusal where
  decode envelope henvelope error herror := by
    obtain ⟨fields, hloads, hcanonical⟩ := h.loads envelope henvelope
    simp only [shelf, decode, hloads] at herror
    rw [raiseIf_bind_of_not (c := _ ≠ _) (not_not_intro rfl),
      raiseIf_bind_of_not (not_not_intro hcanonical)] at herror
    obtain ⟨-, rfl⟩ | ⟨-, herror⟩ := raiseIf_bind_eq_error.mp herror
    · exact .inl rfl
    · cases herror
  recheck envelope _ error herror := by simp [shelf] at herror
  limit limit tooMany hlimit := by
    cases hlimit
    exact .inr rfl
  payload_eq := h.digest

theorem QuarantineStore.client_of_call {loads : Parse Json} {maxItems maxBytes : ℕ}
    {items : Set Envelope} {program : FileProgram Digest (Except QuarantineError (List Envelope))}
    (hcall : Call sha256 loads maxItems maxBytes items program) :
    Client (shelf sha256 loads maxItems maxBytes) items Refusal program := by
  cases hcall with
  | put henvelope => exact .put henvelope
  | get digest => exact .get digest
  | iterVerified => exact .read

theorem ExecutionAuthorityStore.lawful {α : Type} {model : AuthorityModel α} {items : Set α}
    (h : Readable sha256 model items) :
    Lawful (shelf sha256 model) items (· = .unbounded) where
  decode value hvalue error herror := by
    simp only [shelf, decode, readRegular, bind_assoc, pure_bind, h.validate value hvalue] at herror
    rw [raiseIf_bind_of_not (c := _ ≠ _) (not_not_intro rfl),
      raiseIf_bind_of_not (not_not_intro rfl)] at herror
    obtain ⟨-, rfl⟩ | ⟨-, herror⟩ := raiseIf_bind_eq_error.mp herror
    · rfl
    · cases herror
  recheck value _ error herror := by
    simp only [shelf, readRegular, bind_assoc, pure_bind] at herror
    obtain ⟨-, rfl⟩ | ⟨-, herror⟩ := raiseIf_bind_eq_error.mp herror
    · rfl
    · simp at herror
  limit _ _ hlimit := by cases hlimit
  payload_eq := h.digest

theorem ExecutionAuthorityStore.client_of_call {α : Type} {model : AuthorityModel α} {items : Set α}
    {program : FileProgram Digest (Except AuthorityStoreError (List α))}
    (hcall : Call sha256 model items program) :
    Client (shelf sha256 model) items (· = .unbounded) program := by
  cases hcall with
  | put hvalue => exact .put hvalue
  | get digest => exact .get digest

namespace DecisionArchive

theorem refusal_of_checkBinding {event : ApprovalEvent sha256} {decision : Decision}
    {error : DecisionError} (h : checkBinding event decision = .error error) : Refusal error := by
  have hreason : ∀ error, checkReason event decision = .error error → Refusal error := by
    intro error herror
    unfold checkReason at herror
    split at herror
    · rw [raiseIf_bind_eq_error, raiseIf_eq_error] at herror
      obtain ⟨-, rfl⟩ | ⟨-, -, rfl⟩ := herror <;> simp [Refusal]
    · cases herror
      simp [Refusal]
    · rw [raiseIf_eq_error] at herror
      obtain ⟨-, rfl⟩ := herror
      simp [Refusal]
  have hkind : ∀ error, checkKind event decision = .error error → Refusal error := by
    intro error herror
    unfold checkKind at herror
    split at herror <;> cases herror <;> simp [Refusal]
  simp only [checkBinding, bind_eq_error, raiseIf_eq_error] at h
  rcases h with h | ⟨-, -, ⟨-, rfl⟩ | ⟨-, -, ⟨-, rfl⟩ | ⟨-, -, ⟨-, rfl⟩ | ⟨-, -, ⟨-, rfl⟩ |
    ⟨-, -, ⟨-, rfl⟩ | ⟨-, -, ⟨-, rfl⟩ | ⟨-, -, h⟩⟩⟩⟩⟩⟩⟩
  · exact hkind error h
  · simp [Refusal]
  · simp [Refusal]
  · simp [Refusal]
  · simp [Refusal]
  · simp [Refusal]
  · simp [Refusal]
  · exact hreason error h

theorem refusal_of_checkWindow {event : ApprovalEvent sha256} {decision : Decision}
    {current : Calendar.Datetime} {error : DecisionError}
    (h : checkWindow event decision current = .error error) : Refusal error := by
  have hparse : ∀ value error, parseTime value = .error error → Refusal error := by
    intro value error herror
    unfold parseTime at herror
    split at herror <;> cases herror
    simp [Refusal]
  simp only [checkWindow, bind_eq_error] at h
  rcases h with h | ⟨issued, -, h | ⟨expires, -, h | ⟨created, -, h | ⟨_, -, h⟩⟩⟩⟩
  · exact hparse _ _ h
  · exact hparse _ _ h
  · exact hparse _ _ h
  · obtain ⟨-, rfl⟩ := raiseIf_eq_error.mp h
    simp [Refusal]
  · split at h
    · rw [throw_eq_error] at h
      subst h
      simp [Refusal]
    · rw [raiseIf_bind_eq_error, raiseIf_eq_error] at h
      obtain ⟨-, rfl⟩ | ⟨-, -, rfl⟩ := h <;> simp [Refusal]

theorem refusal_of_accept {outbox? : Option (Outbox sha256)} {current : Calendar.Datetime}
    {signed : SignedDecision} {decisions : List SignedDecision} {error : DecisionError}
    (h : accept sha256 outbox? current signed decisions = .error error) : Refusal error := by
  obtain h | ⟨known, -, h⟩ := bind_eq_error.mp h
  · unfold scanDecisions at h
    split at h
    · cases h
    · split at h <;> cases h
      simp [Refusal]
  · cases known with
    | true => cases h
    | false =>
      cases outbox? with
      | none =>
        cases h
        simp [Refusal]
      | some outbox =>
        obtain h | ⟨-, -, h⟩ := bind_eq_error.mp h
        · simp only [checkDecision, bind_eq_error] at h
          rcases h with h | ⟨event, -, h | ⟨-, -, h⟩⟩
          · unfold findEvent at h
            split at h <;> cases h
            simp [Refusal]
          · exact refusal_of_checkBinding h
          · exact refusal_of_checkWindow h
        · cases h

theorem eq_of_accept {outbox? : Option (Outbox sha256)} {current : Calendar.Datetime}
    {signed item : SignedDecision} {decisions : List SignedDecision}
    (h : accept sha256 outbox? current signed decisions = .ok (some item)) :
    item = signed ∧ scanDecisions decisions signed = .ok false := by
  obtain ⟨known, hknown, h⟩ := bind_eq_ok.mp h
  cases known with
  | true => cases h
  | false =>
    refine ⟨?_, hknown⟩
    cases outbox? with
    | none => cases h
    | some outbox =>
      obtain ⟨-, -, h⟩ := bind_eq_ok.mp h
      cases h
      rfl

variable {hmac : HmacSha256} {key : VerificationKey} {parse : Parse SignedDecision}
  {items : Set SignedDecision}

theorem lawful (h : Readable sha256 parse items) :
    Lawful (shelf sha256 hmac key parse) {signed ∈ items | verifySignature hmac key signed} Refusal where
  decode signed hsigned error herror := by
    simp only [shelf, decode, readRegular, decisionFileDigest, bind_assoc, pure_bind,
      h.parse signed hsigned.1] at herror
    rw [raiseIf_bind_of_not (c := _ ≠ _) (not_not_intro rfl),
      raiseIf_bind_of_not (c := _ ≠ _) (not_not_intro rfl),
      raiseIf_bind_of_not (not_not_intro hsigned.2)] at herror
    obtain ⟨-, rfl⟩ | ⟨-, herror⟩ := raiseIf_bind_eq_error.mp herror
    · simp [Refusal]
    · cases herror
  recheck signed _ error herror := by
    simp only [shelf, readRegular, bind_assoc, pure_bind] at herror
    obtain ⟨-, rfl⟩ | ⟨-, herror⟩ := raiseIf_bind_eq_error.mp herror
    · simp [Refusal]
    · simp at herror
  limit _ _ hlimit := by cases hlimit
  payload_eq signed hsigned other hother := h.digest signed hsigned.1 other hother.1

theorem client_of_call {program : FileProgram Digest (Except DecisionError (List SignedDecision))}
    (hcall : Call sha256 hmac key parse items program) :
    Client (shelf sha256 hmac key parse) {signed ∈ items | verifySignature hmac key signed} Refusal
      program := by
  cases hcall with
  | verifiedDecisions => exact .read
  | @importSigned signed hsigned outbox? current =>
    rw [importSigned]
    split
    · rename_i hverify
      refine .visit ?_ ?_
      · intro found item haccept
        obtain ⟨rfl, -⟩ := eq_of_accept haccept
        exact ⟨hsigned, hverify⟩
      · exact fun found error haccept => refusal_of_accept haccept
    · exact .refuse (by simp [Refusal])

end DecisionArchive

end Lawful

/-- The create-only stores: what they keep, which errors are a caller's own, and their calls. -/
inductive HostStore : ∀ {α ε : Type}, Shelf Digest α ε → Set α → (ε → Prop) →
    (FileProgram Digest (Except ε (List α)) → Prop) → Prop
  | eventOutbox {loads : Parse Json} {parseEvent : Parse (RedactedEvent sha256)}
      {items : Set (RedactedEvent sha256)}
      (h : EventOutbox.Readable sha256 loads parseEvent items) :
      HostStore (EventOutbox.shelf sha256 loads parseEvent) items (· = .unbounded)
        (EventOutbox.Call sha256 loads parseEvent items)
  | quarantineStore {loads : Parse Json} {maxItems maxBytes : ℕ}
      {items : Set QuarantineStore.Envelope} (h : QuarantineStore.Readable sha256 loads items) :
      HostStore (QuarantineStore.shelf sha256 loads maxItems maxBytes) items QuarantineStore.Refusal
        (QuarantineStore.Call sha256 loads maxItems maxBytes items)
  | executionAuthorityStore {α : Type} {model : AuthorityModel α} {items : Set α}
      (h : ExecutionAuthorityStore.Readable sha256 model items) :
      HostStore (ExecutionAuthorityStore.shelf sha256 model) items (· = .unbounded)
        (ExecutionAuthorityStore.Call sha256 model items)
  | decisionArchive {hmac : HmacSha256} {key : VerificationKey} {parse : Parse SignedDecision}
      {items : Set SignedDecision} (h : DecisionArchive.Readable sha256 parse items) :
      HostStore (DecisionArchive.shelf sha256 hmac key parse)
        {signed ∈ items | verifySignature hmac key signed} DecisionArchive.Refusal
        (DecisionArchive.Call sha256 hmac key parse items)

section HostStore

variable {sha256} {α ε : Type} {shelf : Shelf Digest α ε} {items : Set α} {Refusal : ε → Prop}
  {calls : FileProgram Digest (Except ε (List α)) → Prop}

theorem HostStore.lawful (h : HostStore sha256 shelf items Refusal calls) :
    Lawful shelf items Refusal := by
  cases h with
  | eventOutbox h => exact EventOutbox.lawful h
  | quarantineStore h => exact QuarantineStore.lawful h
  | executionAuthorityStore h => exact ExecutionAuthorityStore.lawful h
  | decisionArchive h => exact DecisionArchive.lawful h

theorem HostStore.client_of_call (h : HostStore sha256 shelf items Refusal calls)
    {program : FileProgram Digest (Except ε (List α))} (hcall : calls program) :
    Client shelf items Refusal program := by
  cases h with
  | eventOutbox h => exact EventOutbox.client_of_call h hcall
  | quarantineStore h => exact QuarantineStore.client_of_call hcall
  | executionAuthorityStore h => exact ExecutionAuthorityStore.client_of_call hcall
  | decisionArchive h => exact DecisionArchive.client_of_call hcall

/-- **The create-only stores.** In a run in which no operation looks at a file that is still being
written or whose writer has died, readers see complete files only, and no reader and no `put` fails
because of another `put`. -/
theorem HostStore.calm_unharmed (h : HostStore sha256 shelf items Refusal calls)
    {sys : ShelfSystem Digest α ε} (hreach : ShelfReachable calls sys)
    (hcalm : ∀ thread ∈ sys.threads, ∀ entry ∈ thread.trace, Calm entry) :
    Unharmed shelf items Refusal sys :=
  unharmed_of_calm (fun _ hcall => h.client_of_call hcall) h.lawful hreach hcalm

end HostStore

/-! ## An interrupted `put` -/

namespace QuarantineStore

/-- A digest that counts. -/
def countingSha256 : Sha256 := fun payload => Vector.replicate 32 (UInt8.ofNat payload.length)

/-- A parser that knows the text of the empty object. -/
def loadsEmpty : Parse Json := fun payload =>
  if payload = canonicalJson (.obj []) then some (.obj []) else none

theorem readable_empty : Readable countingSha256 loadsEmpty {[]} where
  loads := by
    rintro _ rfl
    exact ⟨[], if_pos rfl, rfl⟩
  digest := by
    rintro _ rfl _ rfl -
    rfl

/-- The empty object is stored, and nobody is harmed. -/
theorem calm_unharmed_empty :
    ∃ sys thread, ShelfReachable (Call countingSha256 loadsEmpty 1024 (2 * 1024 * 1024) {[]}) sys ∧
      sys.threads = [thread] ∧ thread.program = .done (.ok []) ∧
      Unharmed (shelf countingSha256 loadsEmpty 1024 (2 * 1024 * 1024)) {[]} Refusal sys := by
  have hput : Call countingSha256 loadsEmpty 1024 (2 * 1024 * 1024) {[]}
      (putItem (shelf countingSha256 loadsEmpty 1024 (2 * 1024 * 1024)) []) := .put rfl
  obtain ⟨sys, thread, hreach, hthreads, hdone, hcalm, -⟩ :=
    exists_stored (shelf countingSha256 loadsEmpty 1024 (2 * 1024 * 1024)) [] hput
  refine ⟨sys, thread, hreach, hthreads, hdone,
    HostStore.calm_unharmed (.quarantineStore readable_empty) hreach ?_⟩
  rw [hthreads]
  simpa using hcalm

/-- The `put` of the empty object is interrupted when its file has been created. A reader of the
directory fails, and so does a second `put` of the object. -/
theorem not_unharmed_of_interrupted :
    ∃ sys reader again,
      ShelfReachable (Call countingSha256 loadsEmpty 1024 (2 * 1024 * 1024) {[]}) sys ∧
        reader ∈ sys.threads ∧ reader.program = .done (.error .digestMismatch) ∧
        again ∈ sys.threads ∧ again.program = .done (.error .collision) ∧
        ¬ Unharmed (shelf countingSha256 loadsEmpty 1024 (2 * 1024 * 1024)) {[]} Refusal sys := by
  have hdigest : contentDigest countingSha256 []
      ≠ contentDigest countingSha256 (canonicalJson (.obj [])) := by decide +kernel
  have hpayload : [] ≠ canonicalJson (.obj []) := by decide +kernel
  have hput : Call countingSha256 loadsEmpty 1024 (2 * 1024 * 1024) {[]}
      (putItem (shelf countingSha256 loadsEmpty 1024 (2 * 1024 * 1024)) []) := .put rfl
  obtain ⟨sys, interrupted, reader, again, hreach, hthreads, ⟨entry, hentry, hmet⟩, hreader, hagain,
      -⟩ :=
    exists_interrupted (shelf countingSha256 loadsEmpty 1024 (2 * 1024 * 1024)) [] hput
      .iterVerified (by rintro _ _ ⟨⟩; decide)
      (raiseIf_bind_eq_error.mpr (.inr ⟨by decide, raiseIf_bind_eq_error.mpr (.inl ⟨hdigest, rfl⟩)⟩))
      (raiseIf_eq_error.mpr ⟨hpayload, rfl⟩)
  have hmem : reader ∈ sys.threads ∧ again ∈ sys.threads := by simp [hthreads]
  refine ⟨sys, reader, again, hreach, hmem.1, hreader, hmem.2, hagain, fun hunharmed => ?_⟩
  obtain ⟨envelope, rfl, -, hbytes⟩ := hunharmed.observed reader hmem.1 entry hentry _ _ hmet
  exact hpayload hbytes

end QuarantineStore

end IouAi.Storage
