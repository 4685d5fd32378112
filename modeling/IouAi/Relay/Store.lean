import IouAi.Foundations.Threads
import IouAi.Relay.Render

/-!
# The database of the relay

The tables of the relay and its statements, one operation each. A statement checks the constraints
of the schema; one that violates them changes nothing and fails, and every other may fail as well.
A batch is one statement. Columns of canonical JSON hold the value that the text is of.
-/

namespace IouAi.Relay

open Calendar Json Threads Wire

/-! ## Tables -/

inductive EventState
  | pending
  | decided
  deriving DecidableEq

inductive DeliveryState
  | pending
  | claimed
  | accepted
  | delivered
  | failed
  deriving DecidableEq

/-- A row of `events`. -/
structure EventRow where
  eventDigest : String
  event : Json
  humanCode : Option String
  expiresAt : Option String
  state : EventState
  deliveryState : DeliveryState
  deliveryClaimedAt : Option String
  telnyxMessageId : Option String
  telnyxFinalStatus : Option String
  createdAt : String

/-- A row of `decisions`. -/
structure DecisionRow where
  sequence : ℕ
  decisionDigest : String
  eventDigest : String
  signed : Json
  createdAt : String

/-- The tables. `webhookEvents` has an identifier and a time, `smsMonthly` a month and a count. -/
structure Database where
  events : List EventRow
  decisions : List DecisionRow
  webhookEvents : List (String × String)
  smsMonthly : List (String × ℕ)
  telegramRecipient : Option String

namespace Database

variable (database : Database)

def empty : Database := ⟨[], [], [], [], none⟩

def event? (eventDigest : String) : Option EventRow :=
  database.events.find? fun row => row.eventDigest = eventDigest

def eventByCode? (code : String) : Option EventRow :=
  database.events.find? fun row => row.humanCode = some code

def hasWebhook (webhookId : String) : Bool :=
  database.webhookEvents.any fun row => row.1 = webhookId

/-- `AUTOINCREMENT`. -/
def nextSequence : ℕ := (database.decisions.map DecisionRow.sequence).foldr max 0 + 1

/-- `UPDATE events SET … WHERE …`, with the number of rows that it changes. -/
def updateEvents (matching : EventRow → Bool) (set : EventRow → EventRow) : ℕ × Database :=
  (database.events.countP matching, { database with
    events := database.events.map fun row => if matching row then set row else row })

end Database

/-! ## Statements -/

/-- A parameter of a column of texts; a value that is no text, number or null cannot be bound. -/
def bindText : Json → Option (Option String)
  | .str text => some (some text)
  | .null => some none
  | .num value => some (some (toString value))
  | .real text => some (some text)
  | _ => none

/-- What becomes of the delivery of an event. -/
inductive DeliveryChange
  | registerHost (receipt : String)
  | claim (claimedAt : String)
  | release
  | accept (messageId : String)
  | fail (finalStatus : String)

/-- The delivery state that a change needs. -/
def DeliveryChange.source : DeliveryChange → DeliveryState
  | .registerHost _ | .claim _ => .pending
  | .release | .accept _ | .fail _ => .claimed

def DeliveryChange.set (row : EventRow) : DeliveryChange → EventRow
  | .registerHost receipt =>
    { row with telnyxMessageId := some receipt, deliveryState := .accepted }
  | .claim claimedAt =>
    { row with deliveryState := .claimed, deliveryClaimedAt := some claimedAt }
  | .release => { row with deliveryState := .pending, deliveryClaimedAt := none }
  | .accept messageId =>
    { row with telnyxMessageId := some messageId, deliveryState := .accepted }
  | .fail finalStatus =>
    { row with
      deliveryState := .failed
      deliveryClaimedAt := none
      telnyxFinalStatus := some finalStatus }

/-- A new row of `events`. -/
structure NewEvent where
  eventDigest : String
  event : Json
  humanCode : Json
  expiresAt : Json
  createdAt : String

/-- The batch that records a decision. -/
structure NewDecision where
  webhookId : String
  decidedAt : String
  decisionDigest : String
  eventDigest : String
  signed : Json

inductive Statement
  | selectRecipient
  | selectEvent (eventDigest : String)
  | insertEvent (event : NewEvent)
  | updateDelivery (eventDigest : String) (change : DeliveryChange)
  | countSms (month : String) (attemptLimit : ℕ)
  | selectWebhook (webhookId : String)
  | insertWebhook (webhookId processedAt : String)
  | selectByCode (code : String)
  | insertDecision (decision : NewDecision)
  | finalizeDelivery (webhookId processedAt : String) (delivered : Bool)
      (finalStatus messageId : String)
  | selectDecisions (after : ℕ)

namespace Statement

/-- What a statement returns when it commits: the rows that it reads, or the numbers of changes. -/
@[reducible] def Value : Statement → Type
  | selectRecipient => Option String
  | selectEvent _ | selectByCode _ => Option EventRow
  | insertEvent _ | updateDelivery _ _ | countSms _ _ | insertWebhook _ _ => ℕ
  | selectWebhook _ => Bool
  | insertDecision _ => ℕ × ℕ × ℕ
  | finalizeDelivery .. => ℕ × ℕ
  | selectDecisions _ => List DecisionRow

end Statement

namespace Database

variable (database : Database)

/-- A code is unique among the events that have one. -/
def insertEvent (new : NewEvent) : Option (ℕ × Database) := do
  let humanCode ← bindText new.humanCode
  let expiresAt ← bindText new.expiresAt
  guard (database.event? new.eventDigest).isNone
  guard (humanCode.all fun code => (database.eventByCode? code).isNone)
  return (1, { database with
    events := database.events ++ [{
      eventDigest := new.eventDigest
      event := new.event
      humanCode := humanCode
      expiresAt := expiresAt
      state := .pending
      deliveryState := .pending
      deliveryClaimedAt := none
      telnyxMessageId := none
      telnyxFinalStatus := none
      createdAt := new.createdAt }] })

/-- The row of a month is made with its first attempt; its count stays below the limit. -/
def countSms (month : String) (attemptLimit : ℕ) : ℕ × Database :=
  match database.smsMonthly.find? fun row => row.1 = month with
  | none => (1, { database with smsMonthly := database.smsMonthly ++ [(month, 1)] })
  | some (_, attemptedCount) =>
    if attemptedCount < attemptLimit then
      (1, { database with
        smsMonthly := database.smsMonthly.map fun row =>
          if row.1 = month then (month, row.2 + 1) else row })
    else (0, database)

def addWebhook (webhookId processedAt : String) : Database :=
  { database with webhookEvents := database.webhookEvents ++ [(webhookId, processedAt)] }

/-- `INSERT OR IGNORE`. -/
def insertWebhook (webhookId processedAt : String) : ℕ × Database :=
  if database.hasWebhook webhookId then (0, database)
  else (1, database.addWebhook webhookId processedAt)

/-- The row that a new decision makes. -/
def decisionRow (new : NewDecision) : DecisionRow where
  sequence := database.nextSequence
  decisionDigest := new.decisionDigest
  eventDigest := new.eventDigest
  signed := new.signed
  createdAt := new.decidedAt

/-- Mark the webhook, insert the decision and decide its event: the digests of decisions and of
their events are unique, and the event of a decision exists. -/
def insertDecision (new : NewDecision) : Option ((ℕ × ℕ × ℕ) × Database) := do
  guard !database.hasWebhook new.webhookId
  guard (database.decisions.all fun decision =>
    decision.decisionDigest ≠ new.decisionDigest && decision.eventDigest ≠ new.eventDigest)
  guard (database.event? new.eventDigest).isSome
  let inserted := { database.addWebhook new.webhookId new.decidedAt with
    decisions := database.decisions ++ [database.decisionRow new] }
  let (decided, updated) := inserted.updateEvents
    (fun row => row.eventDigest = new.eventDigest && row.state = .pending)
    (fun row => { row with state := .decided })
  return ((1, 1, decided), updated)

/-- Mark the webhook and note the final status of a message. -/
def finalizeDelivery (webhookId processedAt : String) (delivered : Bool)
    (finalStatus messageId : String) : Option ((ℕ × ℕ) × Database) := do
  guard !database.hasWebhook webhookId
  let (changes, updated) := (database.addWebhook webhookId processedAt).updateEvents
    (fun row => row.telnyxMessageId = some messageId)
    (fun row => { row with
      deliveryState := if delivered then .delivered else .failed
      telnyxFinalStatus := some finalStatus })
  return ((1, changes), updated)

/-- `SELECT … WHERE sequence > ? ORDER BY sequence ASC LIMIT 100`. -/
def decisionsAfter (after : ℕ) : List DecisionRow :=
  ((database.decisions.filter fun decision => after < decision.sequence).insertionSort
    fun decision other => decision.sequence ≤ other.sequence).take 100

end Database

/-- What a statement does when it commits; none when it violates a constraint. -/
def Statement.run (database : Database) :
    (statement : Statement) → Option (statement.Value × Database)
  | .selectRecipient => some (database.telegramRecipient, database)
  | .selectEvent eventDigest => some (database.event? eventDigest, database)
  | .insertEvent new => database.insertEvent new
  | .updateDelivery eventDigest change =>
    some (database.updateEvents
      (fun row => row.eventDigest = eventDigest && row.deliveryState = change.source) change.set)
  | .countSms month attemptLimit => some (database.countSms month attemptLimit)
  | .selectWebhook webhookId => some (database.hasWebhook webhookId, database)
  | .insertWebhook webhookId processedAt => some (database.insertWebhook webhookId processedAt)
  | .selectByCode code => some (database.eventByCode? code, database)
  | .insertDecision new => database.insertDecision new
  | .finalizeDelivery webhookId processedAt delivered finalStatus messageId =>
    database.finalizeDelivery webhookId processedAt delivered finalStatus messageId
  | .selectDecisions after => some (database.decisionsAfter after, database)

namespace Database

variable {database database' : Database}

/-- What an event that is inserted does: a pending row under a new digest. -/
theorem insertEvent_eq_some {new : NewEvent} {changes : ℕ}
    (h : database.insertEvent new = some (changes, database')) :
    ∃ row, bindText new.expiresAt = some row.expiresAt ∧ row.eventDigest = new.eventDigest
      ∧ row.state = .pending ∧ database.event? new.eventDigest = none
      ∧ database' = { database with events := database.events ++ [row] } := by
  simp only [insertEvent, bind, pure, Option.bind_eq_some_iff, Option.guard_eq_some',
    Option.isNone_iff_eq_none] at h
  obtain ⟨humanCode, _, expiresAt, hexpires, _, hfresh, _, _, h⟩ := h
  cases h
  exact ⟨_, hexpires, rfl, rfl, hfresh, rfl⟩

/-- What a decision that is inserted does: the webhook and the event of the decision are new to it,
and the event is there. -/
theorem insertDecision_eq_some {new : NewDecision} {changes : ℕ × ℕ × ℕ}
    (h : database.insertDecision new = some (changes, database')) :
    database.hasWebhook new.webhookId = false
      ∧ (∀ decision ∈ database.decisions, decision.eventDigest ≠ new.eventDigest)
      ∧ (database.event? new.eventDigest).isSome = true
      ∧ changes = (1, 1, database.events.countP fun row =>
          row.eventDigest = new.eventDigest && row.state = .pending)
      ∧ database' = { database.addWebhook new.webhookId new.decidedAt with
          decisions := database.decisions ++ [database.decisionRow new]
          events := database.events.map fun row =>
            if row.eventDigest = new.eventDigest && row.state = .pending then
              { row with state := .decided } else row } := by
  simp only [insertDecision, updateEvents, bind, pure, Option.bind_eq_some_iff,
    Option.guard_eq_some', Bool.not_eq_true'] at h
  obtain ⟨_, hwebhook, _, hunique, _, hevent, h⟩ := h
  cases h
  refine ⟨hwebhook, ?_, hevent, rfl, rfl⟩
  intro decision hdecision
  have hboth := List.all_eq_true.mp hunique decision hdecision
  simp only [ne_eq, Bool.and_eq_true, decide_eq_true_eq] at hboth
  exact hboth.2

end Database

/-! ## Operations -/

/-- What the provider makes of a message: the identifier of one that it accepts is not empty. -/
inductive Delivery
  | accepted (id : String) (id_ne : id ≠ "")
  | rejected
  | uncertain

/-- An operation of a handler: the time, a statement, a message, or the answer to a callback. -/
inductive Op
  | now
  | query (statement : Statement)
  | send (event : Json) (text : String)
  | answerCallback (text : String) (showAlert : Bool)

/-- The outcome of an operation; none of a statement that fails. -/
@[reducible] def Op.Result : Op → Type
  | .now => Datetime
  | .query statement => Option statement.Value
  | .send _ _ => Delivery
  | .answerCallback _ _ => Unit

structure RelayState where
  database : Database
  clock : Datetime

/-- A statement commits or fails without a trace. -/
inductive Exec : RelayState → (op : Op) → op.Result → RelayState → Prop
  | now (s : RelayState) : Exec s .now s.clock s
  | commit {s : RelayState} {statement : Statement} {value : statement.Value}
      {database : Database} (h : statement.run s.database = some (value, database)) :
      Exec s (.query statement) (some value) ⟨database, s.clock⟩
  | abort (s : RelayState) (statement : Statement) : Exec s (.query statement) none s
  | send (s : RelayState) (event : Json) (text : String) (delivery : Delivery) :
      Exec s (.send event text) delivery s
  | answerCallback (s : RelayState) (text : String) (showAlert : Bool) :
      Exec s (.answerCallback text showAlert) () s

/-- The operation where nothing fails and every message is accepted. -/
def Op.perform (s : RelayState) : (op : Op) → op.Result × RelayState
  | .now => (s.clock, s)
  | .query statement =>
    match statement.run s.database with
    | some (value, database) => (some value, ⟨database, s.clock⟩)
    | none => (none, s)
  | .send _ _ => (.accepted "message" (by decide), s)
  | .answerCallback _ _ => ((), s)

theorem Op.exec_perform (s : RelayState) (op : Op) :
    Exec s op (op.perform s).1 (op.perform s).2 := by
  cases op with
  | now => exact .now s
  | query statement =>
    simp only [perform]
    split
    · rename_i value database hrun
      exact .commit hrun
    · exact .abort s statement
  | send event text => exact .send s event text _
  | answerCallback text showAlert => exact .answerCallback s text showAlert

/-- Time passes, and the operator pairs the recipient once. -/
inductive Environment : RelayState → RelayState → Prop
  | wait {s : RelayState} {clock : Datetime} (h : s.clock ≤ clock) :
      Environment s ⟨s.database, clock⟩
  | pair {s : RelayState} (h : s.database.telegramRecipient = none) (chatId : String) :
      Environment s ⟨{ s.database with telegramRecipient := some chatId }, s.clock⟩

def semantics : Semantics RelayState Op Op.Result := ⟨Exec, Environment⟩

abbrev RelayProgram (α : Type) := Program Op Op.Result α

/-- One statement of a handler. -/
def query (statement : Statement) : RelayProgram (Option statement.Value) :=
  Program.perform (Op.query statement)

end IouAi.Relay
