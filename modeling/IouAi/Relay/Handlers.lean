import IouAi.Relay.Deployment

/-!
# The handlers of the relay

Submissions of events, the two webhooks by which an operator decides an event, and the listing of
decisions, each a program over the database. A `try` that catches is a match on the outcome of the
statement; a statement outside of one that fails ends the handler with an exception.
-/

namespace IouAi.Relay

open Calendar Checks Json Threads Wire

variable (sha256 : Sha256) (hmac : Hmac) (env : Env)

/-! ## Submissions -/

structure Submission where
  eventDigest : String
  event : Json
  fixedMessage : String

/-- What the challenge of an approval event is bound to; none of another event. -/
def approvalMaterial (event : Json) : Except String (Option (List (String × Option Json))) := do
  let field := event.field?
  if !isApprovalEvent event then return none
  let expiresAt ← property (field "approval") "expires_at"
  let humanCode ← property (field "approval") "human_code"
  let nonce ← property (field "approval") "nonce"
  let common := [("envelope_digest", field "envelope_digest"), ("expires_at", expiresAt),
    ("human_code", humanCode), ("nonce", nonce), ("target_hashes", field "target_hashes")]
  if isText (field "event_kind") "proposal_quarantined" then return some common
  return some (common ++
    [("artifact_digest", field "artifact_digest"),
      ("artifact_manifest_digest", field "artifact_manifest_digest"),
      ("artifact_size_bytes", field "artifact_size_bytes"),
      ("binding_version", some (.str "execution-approval-binding.v1")),
      ("candidate_digest", field "candidate_digest"),
      ("canary_report_digest", field "canary_report_digest"),
      ("event_kind", some (.str "execution_ready")),
      ("positive_action", some (.str "approve_for_live_execution")),
      ("promotion_scope", field "promotion_scope"),
      ("validation_report_digest", field "validation_report_digest")])

def checkApprovalBinding (event : Json) : Except String Unit := do
  match ← approvalMaterial event with
  | none => return ()
  | some fields =>
    let material ← object fields
    let bindingDigest ← property (event.field? "approval") "binding_digest"
    raiseIf (!isText bindingDigest ("sha256:" ++ sha256Hex sha256 (canonical material)))
      "approval binding mismatch"

/-- The checks of a submission at the time `now`. -/
def readSubmission (now : ℤ) (body : Option Json) : Except String Submission := do
  let some submission := body | throw "invalid request"
  let field := submission.field?
  exactKeys (some submission) ["event", "event_digest", "fixed_message", "schema_version"]
  raiseIf (!isText (field "schema_version") "relay-submission.v1"
    || !test isDigest (field "event_digest")) "invalid submission"
  let event := (field "event").getD .null
  validateEvent event now
  let eventDigest := "sha256:" ++ sha256Hex sha256 (canonical event)
  raiseIf (!isText (field "event_digest") eventDigest) "event digest mismatch"
  let message ← renderEvent event
  raiseIf (!isText (field "fixed_message") message || 480 < textLength message)
    "message is not fixed"
  checkApprovalBinding sha256 event
  return ⟨eventDigest, event, message⟩

/-- `eventDigest.slice(7, 31)`. -/
def shortDigest (eventDigest : String) : String :=
  String.ofList ((eventDigest.toList.take 31).drop 7)

def acknowledge (httpStatus : ℕ) (eventDigest status : String) : Reply :=
  .response httpStatus (.obj [("schema_version", .str "relay-ack.v1"),
    ("event_digest", .str eventDigest),
    ("receipt_id", .str ("receipt:" ++ shortDigest eventDigest)), ("status", .str status)])

/-- The reply to an event whose delivery has ended. -/
def priorReply? (prior : EventRow) : Option Reply :=
  if prior.telnyxMessageId.any (· ≠ "")
      && (prior.deliveryState = .accepted || prior.deliveryState = .delivered) then
    some (acknowledge 200 prior.eventDigest "duplicate")
  else if prior.deliveryState ≠ .failed then none
  else
    match prior.telnyxFinalStatus with
    | some "provider_rejected" => some (acknowledge 200 prior.eventDigest "rejected")
    | some "monthly_priority_reserve" => some (errorReply 429 "monthly_sms_priority_reserve")
    | some "monthly_sms_limit" => some (errorReply 429 "monthly_sms_limit")
    | _ => none

/-- `sendDelivery`; a message that the recipient cannot be found for is not sent. -/
def sendDelivery (event : Json) (text : String) : RelayProgram Delivery := do
  if env.provider = some .telegram then
    match ← telegramRecipient env with
    | none => return .uncertain
    | some _ => Program.perform (Op.send event text)
  else Program.perform (Op.send event text)

/-- Set the delivery of an event, on the one row that is there. -/
def updateOnce (eventDigest : String) (change : DeliveryChange) : RelayProgram Bool := do
  match ← query (.updateDelivery eventDigest change) with
  | some changes => return changes = 1
  | none => return false

/-- The attempt to send a message that has been counted. -/
def deliverCounted (submission : Submission) (accepted : Reply) : RelayProgram Reply := do
  match ← sendDelivery env submission.event submission.fixedMessage with
  | .accepted id _ =>
    if ← updateOnce submission.eventDigest (.accept id) then return accepted
    else return errorReply 503 "delivery_accepted_storage_uncertain"
  | .rejected =>
    if ← updateOnce submission.eventDigest (.fail "provider_rejected") then
      return acknowledge 200 submission.eventDigest "rejected"
    else return errorReply 503 "delivery_rejection_storage_uncertain"
  | .uncertain => return errorReply 503 "delivery_acceptance_uncertain"

def monthlySmsLimit : ℕ := 200
def prioritySmsReserve : ℕ := 20

/-- Count the attempt of an event that has been claimed. -/
def deliverClaimed (submission : Submission) (accepted : Reply) : RelayProgram Reply := do
  let instant ← now
  let priority := isPriorityEvent submission.event
  let attemptLimit := if priority then monthlySmsLimit else monthlySmsLimit - prioritySmsReserve
  match ← query (.countSms (String.ofList instant.date.monthText) attemptLimit) with
  | none =>
    let _ ← query (.updateDelivery submission.eventDigest .release)
    return errorReply 503 "temporary_storage_failure"
  | some changes =>
    if changes ≠ 1 then
      let finalStatus := if priority then "monthly_sms_limit" else "monthly_priority_reserve"
      let error := if priority then "monthly_sms_limit" else "monthly_sms_priority_reserve"
      if ← updateOnce submission.eventDigest (.fail finalStatus) then return errorReply 429 error
      else return errorReply 503 "temporary_storage_failure"
    else deliverCounted env submission accepted

/-- What follows the insertion of an event, or the reading of the row `prior` of a duplicate. -/
def deliver (submission : Submission) (prior : Option EventRow) : RelayProgram Reply :=
  let accepted := if prior.isSome then acknowledge 200 submission.eventDigest "duplicate"
    else acknowledge 201 submission.eventDigest "accepted"
  match prior.bind priorReply? with
  | some reply => pure reply
  | none =>
    if env.provider = some .telegram ∧ env.telegramDeliveryMode = some .host then do
      let receipt := "telegram-host:" ++ shortDigest submission.eventDigest
      if ← updateOnce submission.eventDigest (.registerHost receipt) then return accepted
      else return errorReply 503 "host_registration_uncertain"
    else do
      let claimedAt ← now
      match ← query (.updateDelivery submission.eventDigest (.claim (toISOString claimedAt))) with
      | none => return errorReply 503 "temporary_storage_failure"
      | some changes =>
        if changes ≠ 1 then return errorReply 503 "delivery_in_progress_or_uncertain"
        else deliverClaimed env submission accepted

/-- The row that a submission inserts. -/
def newEvent (submission : Submission) (createdAt : Datetime) : NewEvent where
  eventDigest := submission.eventDigest
  event := submission.event
  humanCode := approvalField "human_code"
  expiresAt := approvalField "expires_at"
  createdAt := toISOString createdAt
where
  approvalField (key : String) : Json :=
    if isApprovalEvent submission.event then
      (get (submission.event.field? "approval") key).getD .null
    else .null

def acceptEvent (authorization : String) (body : Option Json) : RelayProgram Reply :=
  if !authorized sha256 env authorization then pure (errorReply 401 "unauthorized")
  else do
    if !(← deliveryReady env) then return errorReply 503 "not_ready"
    else
      let instant ← now
      match readSubmission sha256 (unixMillis instant) body with
      | .error _ => return errorReply 400 "invalid_event"
      | .ok submission =>
        match ← query (.selectEvent submission.eventDigest) with
        | none => return .uncaught
        | some (some prior) =>
          if canonical prior.event ≠ canonical submission.event then
            return errorReply 409 "event_binding_changed"
          else deliver env submission (some prior)
        | some none =>
          let createdAt ← now
          match ← query (.insertEvent (newEvent submission createdAt)) with
          | none => return errorReply 409 "event_or_code_already_exists"
          | some _ => deliver env submission none

/-! ## Decisions of an operator -/

/-- A row that may be decided at the time `now`: a pending one that has not expired. An expiry that
cannot be read is none that is over. -/
def isOpen (row : EventRow) (now : ℤ) : Bool :=
  row.state = .pending && row.expiresAt.any fun expiresAt => expiresAt ≠ "" &&
    !((timestampFields expiresAt).bind dateParse).any (· < now)

/-- What a webhook answers to the operator: a text, and whether it is shown as an alert. -/
abbrev Answer := String → Bool → RelayProgram Unit

/-- Store a signed decision in one batch. -/
def storeDecision (answer : Answer) (recorded : String) (new : NewDecision) :
    RelayProgram Reply := do
  let committed ← query (.insertDecision new)
  if committed = some (1, 1, 1) then
    answer recorded false
    return statusReply "decision_recorded"
  else
    match ← query (.selectWebhook new.webhookId) with
    | some true =>
      answer "Already processed." false
      return statusReply "duplicate"
    | _ =>
      answer "Temporary error; please try again." true
      return errorReply 503 "temporary_decision_failure"

/-- The batch of a decision on an event. -/
def newDecision (webhookId issuedAt : String) (row : EventRow) (decision : Json) : NewDecision :=
  let signed := signedDecision hmac env.hmacKey decision
  ⟨webhookId, issuedAt, sha256Hex sha256 (canonical signed), row.eventDigest, signed⟩

/-- What a webhook does with the command and the code of an operator. `ignored` is the answer to a
webhook that is ignored, with its text. -/
def decide (answer : Answer) (recorded : Command → String) (webhookId : String)
    (channel : Channel) (command : Command) (code sender : String) : RelayProgram Reply := do
  match ← query (.selectByCode code) with
  | none => return .uncaught
  | some found =>
    let instant ← now
    match found.filter fun row => isOpen row (unixMillis instant) with
    | none =>
      let reply ← recordIgnoredWebhook webhookId "expired_or_unknown"
      answer "Approval window expired." true
      return reply
    | some row =>
      let issuedAt ← now
      let options : DecisionOptions := {
        channel := channel
        command := command
        issuedAt := timestampText issuedAt
        senderBinding := "sha256:" ++ hmacHex hmac env.hmacKey ("sender:" ++ sender) }
      match decisionForEvent row.event row.eventDigest options with
      | .error _ =>
        let reply ← recordIgnoredWebhook webhookId "command_event_mismatch"
        answer "Command does not match this approval." true
        return reply
      | .ok fields =>
        match object fields with
        | .error _ => return .uncaught
        | .ok decision =>
          storeDecision answer (recorded command)
            (newDecision sha256 hmac env webhookId (timestampText issuedAt) row decision)

/-! ## Webhooks -/

def Command.word : Command → String
  | .approve => "approve"
  | .execute => "execute"
  | .deny => "deny"

def commands : List Command := [.approve, .execute, .deny]

/-- `\s`. -/
def isSpace (c : Char) : Bool :=
  c.toNat ∈ [0x09, 0x0a, 0x0b, 0x0c, 0x0d, 0x20, 0xa0, 0x1680, 0x2028, 0x2029, 0x202f, 0x205f,
    0x3000, 0xfeff] || (0x2000 ≤ c.toNat && c.toNat ≤ 0x200a)

/-- A human code at the start of a text, and the rest. -/
def takeCode (cs : List Char) : Option (String × List Char) :=
  let code := String.ofList (cs.take 8)
  if isHumanCode code then some (code, cs.drop 8) else none

/-- `/^\s*(APPROVE|EXECUTE|DENY)\s+([A-Z2-7]{8})\s*$/i`, with the code in upper case. -/
def parseSms (text : String) : Option (Command × String) := do
  let cs := (text.toList.map Char.toUpper).dropWhile isSpace
  let command ← commands.find? fun command => (command.word.toUpper.toList).isPrefixOf cs
  let cs := cs.drop command.word.length
  guard (cs.head?.any isSpace)
  let (code, cs) ← takeCode (cs.dropWhile isSpace)
  guard (cs.all isSpace)
  return (command, code)

/-- `/^iou-ai:(approve|execute|deny):([A-Z2-7]{8})$/`. -/
def parseCallback (text : String) : Option (Command × String) := do
  let command ← commands.find? fun command =>
    ("iou-ai:" ++ command.word ++ ":").toList.isPrefixOf text.toList
  let (code, cs) ← takeCode (text.toList.drop ("iou-ai:" ++ command.word ++ ":").length)
  guard (cs = [])
  return (command, code)

/-- An SMS is answered by no message. -/
def noAnswer : Answer := fun _ _ => pure ()

/-- `receiveTelnyx`, with the verdict on the signature of the request. -/
def receiveTelnyx (verified : Bool) (body : Option Json) : RelayProgram Reply :=
  if env.provider ≠ some .telnyx then pure (errorReply 404 "not_found")
  else do
    if !(← deliveryReady env) then return errorReply 503 "not_ready"
    else if !verified then return errorReply 403 "invalid_signature"
    else
      let data := get body "data"
      match get data "id" with
      | some (.str webhookId) =>
        if webhookId = "" then return errorReply 400 "invalid_webhook"
        else
          match ← query (.selectWebhook webhookId) with
          | none => return errorReply 503 "temporary_storage_failure"
          | some true => return statusReply "duplicate"
          | some false =>
            let payload := get data "payload"
            if isText (get data "event_type") "message.finalized" then
              recordFinalizedWebhook webhookId payload
            else if !isText (get data "event_type") "message.received" then
              recordIgnoredWebhook webhookId "ignored"
            else
              let sender := get (get payload "from") "phone_number"
              let destination := get (first (get payload "to")) "phone_number"
              if !timingSafeText sha256 (orEmpty sender) env.alertTo
                  || !timingSafeText sha256 (orEmpty destination) env.telnyxFrom then
                recordIgnoredWebhook webhookId "ignored"
              else
                match parseSms (orEmpty (get payload "text")) with
                | none => recordIgnoredWebhook webhookId "ignored"
                | some (command, code) =>
                  decide sha256 hmac env noAnswer (fun _ => "") webhookId .sms command code
                    (template sender)
      | _ => return errorReply 400 "invalid_webhook"

def recordedText : Command → String
  | .approve => "Approved for offline validation."
  | .execute => "Approved exact artifact for live execution."
  | .deny => "Denied."

/-- A chat in which the recipient presses a button. -/
def chatId? (callback : Option Json) : Option String :=
  ((safeInteger? (get (get (get callback "message") "chat") "id")).map toString).filter
    isTelegramChatId

def receiveTelegram (webhookSecret : String) (body : Option Json) : RelayProgram Reply :=
  if env.provider ≠ some .telegram then pure (errorReply 404 "not_found")
  else do
    if !(← deliveryReady env) then return errorReply 503 "not_ready"
    else if !timingSafeText sha256 webhookSecret env.telegramWebhookSecret then
      return errorReply 403 "invalid_signature"
    else
      match (safeInteger? (get body "update_id")).filter fun updateId => 0 ≤ updateId with
      | none => return errorReply 400 "invalid_webhook"
      | some updateId =>
        let webhookId := "telegram:" ++ toString updateId
        let callback := get body "callback_query"
        let answer := answerTelegramCallback (get callback "id")
        match ← query (.selectWebhook webhookId) with
        | none => return errorReply 503 "temporary_storage_failure"
        | some true =>
          answer "Already processed." false
          return statusReply "duplicate"
        | some false =>
          let paired ← telegramRecipient env
          match chatId? callback, parseCallback (orEmpty (get callback "data")) with
          | some chatId, some (command, code) =>
            if !isCallbackId (get callback "id")
                || !timingSafeText sha256 chatId (paired.getD "") then
              ignore answer webhookId
            else
              decide sha256 hmac env answer recordedText webhookId .telegram command code
                ("telegram-chat:" ++ chatId)
          | _, _ => ignore answer webhookId
where
  ignore (answer : Answer) (webhookId : String) : RelayProgram Reply := do
    let reply ← recordIgnoredWebhook webhookId "ignored"
    answer "Approval could not be recorded." true
    return reply

/-! ## Listing -/

/-- `/^[0-9]{1,18}$/`, for a number that JavaScript holds exactly. -/
def cursor? (text : String) : Option ℕ :=
  let digits := (if text = "" then "0" else text).toList
  if digits.length ≤ 18 ∧ digits.all isAsciiDigit ∧ digitsValue digits ≤ maxSafeInteger then
    some (digitsValue digits)
  else none

def listDecisions (authorization after : String) : RelayProgram Reply :=
  if !authorized sha256 env authorization then pure (errorReply 401 "unauthorized")
  else do
    if !(← deliveryReady env) then return errorReply 503 "not_ready"
    else
      match cursor? after with
      | none => return errorReply 400 "invalid_cursor"
      | some cursor =>
        match ← query (.selectDecisions cursor) with
        | none => return .uncaught
        | some rows =>
          let next := (rows.getLast?.map DecisionRow.sequence).getD cursor
          return .response 200 (.obj [("schema_version", .str "relay-decisions.v1"),
            ("data", .arr (rows.map DecisionRow.signed)),
            ("next_cursor", .str (toString next))])

/-! ## Requests -/

/-- A request to the relay; a body is none when it is too large or no JSON. -/
inductive Request
  | event (authorization : String) (body : Option Json)
  | telnyx (verified : Bool) (body : Option Json)
  | telegram (webhookSecret : String) (body : Option Json)
  | decisions (authorization after : String)

def handle : Request → RelayProgram Reply
  | .event authorization body => acceptEvent sha256 env authorization body
  | .telnyx verified body => receiveTelnyx sha256 hmac env verified body
  | .telegram webhookSecret body => receiveTelegram sha256 hmac env webhookSecret body
  | .decisions authorization after => listDecisions sha256 env authorization after

end IouAi.Relay
