import IouAi.Relay.Store

/-!
# The deployment of the relay

The configuration of the relay and the checks that its handlers share: whether it is ready, who may
call it, and whom it writes to.
-/

namespace IouAi.Relay

open Calendar Json Threads Wire

/-! ## Patterns -/

def isWordChar (c : Char) : Bool := c.isAlphanum || c = '_' || c = '-'

/-- `^\+[1-9][0-9]{7,14}$`. -/
def isE164 (text : String) : Bool :=
  match text.toList with
  | '+' :: c :: cs => '1' ≤ c && c ≤ '9' && 7 ≤ cs.length && cs.length ≤ 14 && cs.all isAsciiDigit
  | _ => false

/-- `^[0-9]{6,20}:[A-Za-z0-9_-]{30,}$`. -/
def isTelegramBotToken (text : String) : Bool :=
  let digits := text.toList.takeWhile isAsciiDigit
  6 ≤ digits.length && digits.length ≤ 20 &&
    match text.toList.drop digits.length with
    | ':' :: cs => 30 ≤ cs.length && cs.all isWordChar
    | _ => false

/-- `^[1-9][0-9]{0,18}$`. -/
def isTelegramChatId (text : String) : Bool :=
  match text.toList with
  | c :: cs => '1' ≤ c && c ≤ '9' && cs.length ≤ 18 && cs.all isAsciiDigit
  | [] => false

/-- `^[A-Za-z0-9_-]{32,128}$`. -/
def isTelegramWebhookSecret (text : String) : Bool :=
  32 ≤ text.toList.length && text.toList.length ≤ 128 && text.toList.all isWordChar

/-- The number of bytes of a text in base 64, none when it is malformed: a text of full groups has
up to two signs of padding. -/
def base64Length (text : String) : Option ℕ :=
  let body := text.toList.takeWhile fun c => c.isAlphanum || c = '+' || c = '/'
  let padding := text.toList.drop body.length
  if body ≠ [] ∧ padding.length ≤ 2 ∧ padding.all (· = '=') ∧ body.length % 4 ≠ 1
      ∧ (padding ≠ [] → text.toList.length % 4 = 0) then
    some (body.length * 3 / 4)
  else none

/-! ## Configuration -/

inductive Provider
  | telegram
  | telnyx
  deriving DecidableEq

inductive DeliveryMode
  | host
  | worker
  deriving DecidableEq

/-- The environment of the worker, with its database apart. -/
structure Env where
  provider : Option Provider
  relayToken : Option String
  decisionHmacKey : Option String
  telegramBotToken : String
  telegramWebhookSecret : String
  telegramDeliveryMode : Option DeliveryMode
  telnyxApiKey : Option String
  telnyxFrom : String
  alertTo : String
  telnyxPublicKey : String

/-- A text of at least `n` bytes. -/
def hasBytes (n : ℕ) (text : Option String) : Bool := text.any fun text => n ≤ (utf8 text).length

def configurationReady (env : Env) : Bool :=
  hasBytes 32 env.relayToken && hasBytes 32 env.decisionHmacKey &&
    match env.provider with
    | some .telegram => isTelegramBotToken env.telegramBotToken
      && isTelegramWebhookSecret env.telegramWebhookSecret && env.telegramDeliveryMode.isSome
    | some .telnyx => hasBytes 16 env.telnyxApiKey && isE164 env.telnyxFrom && isE164 env.alertTo
      && base64Length env.telnyxPublicKey = some 32
    | none => false

/-- The key of decisions, which a relay that is ready has. -/
def Env.hmacKey (env : Env) : String := env.decisionHmacKey.getD ""

section

variable (sha256 : Sha256) (env : Env)

def timingSafeText (left right : String) : Bool :=
  sha256 (utf8 left) = sha256 (utf8 right) && (utf8 left).length = (utf8 right).length

/-- The header has the token of the relay. -/
def authorized (authorization : String) : Bool :=
  hasBytes 32 env.relayToken
    && timingSafeText sha256 authorization ("Bearer " ++ env.relayToken.getD "")

end

/-! ## Replies -/

/-- A response, or an exception that the handler does not catch. -/
inductive Reply
  | response (status : ℕ) (value : Json)
  | uncaught

def errorReply (status : ℕ) (error : String) : Reply :=
  .response status (.obj [("error", .str error)])

def statusReply (status : String) : Reply := .response 200 (.obj [("status", .str status)])

/-! ## Shared steps of the handlers -/

def telegramRecipient (env : Env) : RelayProgram (Option String) :=
  if env.provider ≠ some .telegram then pure none
  else do
    match ← query .selectRecipient with
    | some (some chatId) => return if isTelegramChatId chatId then some chatId else none
    | _ => return none

def deliveryReady (env : Env) : RelayProgram Bool :=
  if !configurationReady env then pure false
  else if env.provider ≠ some .telegram then pure true
  else do return (← telegramRecipient env).isSome

/-- `typeof callbackId !== "string"` and the bounds on its length. -/
def isCallbackId : Option Json → Bool
  | some (.str text) => 1 ≤ textLength text && textLength text ≤ 128
  | _ => false

/-- The answer to a button; what comes of it is not looked at. -/
def answerTelegramCallback (callbackId : Option Json) (text : String) (showAlert : Bool) :
    RelayProgram Unit :=
  if isCallbackId callbackId && (1 ≤ textLength text && textLength text ≤ 200) then
    Program.perform (Op.answerCallback text showAlert)
  else pure ()

/-- `toISOString`: the milliseconds are cut off. -/
def toISOString (instant : Datetime) : String :=
  let millisecond := instant.microsecond / 1000
  String.ofList (instant.date.text ++ 'T' :: instant.timeText ++
    '.' :: digit (millisecond / 100) :: twoDigits (millisecond % 100) ++ ['Z'])

/-- `Date.now()`: milliseconds since 1970. -/
def unixMillis (instant : Datetime) : ℤ := (instant.micros / 1000 : ℕ) - unixEpochMillis

/-- `new Date()`. -/
def now : RelayProgram Datetime := Program.perform Op.now

def recordIgnoredWebhook (webhookId status : String) : RelayProgram Reply := do
  let processedAt ← now
  match ← query (.insertWebhook webhookId (toISOString processedAt)) with
  | some changes => return statusReply (if changes = 0 then "duplicate" else status)
  | none => return errorReply 503 "temporary_storage_failure"

/-- `payload?.to?.[0]`. -/
def first (value : Option Json) : Option Json :=
  match value with
  | some (.arr items) => items.head?
  | value => get value "0"

/-- The statuses that end the delivery of a message. -/
def finalStatuses : List String :=
  ["delivered", "sending_failed", "delivery_failed", "delivery_unconfirmed"]

def recordFinalizedWebhook (webhookId : String) (payload : Option Json) : RelayProgram Reply :=
  match get payload "id", get (first (get payload "to")) "status" with
  | some (.str messageId), some (.str finalStatus) =>
    if finalStatus ∉ finalStatuses then recordIgnoredWebhook webhookId "ignored"
    else do
      let processedAt ← now
      match ← query (.finalizeDelivery webhookId (toISOString processedAt)
        (finalStatus = "delivered") finalStatus messageId) with
      | some _ => return statusReply "delivery_recorded"
      | none =>
        match ← query (.selectWebhook webhookId) with
        | some true => return statusReply "duplicate"
        | _ => return errorReply 503 "temporary_delivery_status_failure"
  | _, _ => recordIgnoredWebhook webhookId "ignored"

end IouAi.Relay
