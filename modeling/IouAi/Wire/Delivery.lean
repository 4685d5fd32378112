import IouAi.Foundations.Checks
import IouAi.Wire.Prompts
import IouAi.Wire.Texts
import Mathlib.Data.Prod.Lex
import Mathlib.Data.String.Basic
import Mathlib.Data.List.Sort

/-!
# Delivery of the outbox

`deliver_pending` goes through the events of the outbox in the order of their sort keys, leaves out
those that have a receipt, records the expired approvals and submits the others to the relay. A pass
does what it is for when every deadline can be read, no receipt stands in its way, and the deadlines
of the pending approvals are in the order of their texts (`delivers_iff`).
-/

namespace IouAi.Wire

open Calendar Checks

variable {sha256 : Sha256}

/-! ## Receipts -/

inductive RelayStatus
  | accepted
  | duplicate
  | rejected
  | expired
  deriving DecidableEq

/-- What the relay answers: `expired` is a disposition of the host alone. -/
structure RelayAcknowledgement where
  eventDigest : Digest
  receiptId : Identifier
  status : RelayStatus
  status_ne : status ≠ .expired

structure DeliveryReceipt where
  eventDigest : Digest
  receiptId : Identifier
  relayStatus : RelayStatus
  recordedAt : Timestamp
  deriving DecidableEq

inductive DeliveryError
  | invalidReceipt
  | eventBindingChanged
  | relayBindingChanged
  | terminalStatusChanged
  | invalidExpiration
  deriving DecidableEq

/-- What the file of a receipt holds. -/
inductive ReceiptFile
  | unreadable
  | holds (receipt : DeliveryReceipt)
  deriving DecidableEq

/-- The files of the receipts, under the digests that name them. -/
abbrev DeliveryReceiptStore := Digest → Option ReceiptFile

namespace DeliveryReceiptStore

variable (receipts : DeliveryReceiptStore)

def get (eventDigest : Digest) : Except DeliveryError (Option DeliveryReceipt) :=
  match receipts eventDigest with
  | none => .ok none
  | some .unreadable => .error .invalidReceipt
  | some (.holds receipt) => do
    raiseIf (receipt.eventDigest ≠ eventDigest) .eventBindingChanged
    return some receipt

/-- `_put_receipt`. -/
def putReceipt (receipt : DeliveryReceipt) : Except DeliveryError DeliveryReceiptStore :=
  match receipts receipt.eventDigest with
  | none => .ok (Function.update receipts receipt.eventDigest (some (.holds receipt)))
  | some .unreadable => .error .invalidReceipt
  | some (.holds existing) => do
    raiseIf (existing.eventDigest ≠ receipt.eventDigest) .eventBindingChanged
    raiseIf (existing.receiptId ≠ receipt.receiptId) .relayBindingChanged
    raiseIf ((existing.relayStatus = .expired ∨ receipt.relayStatus = .expired)
      ∧ existing.relayStatus ≠ receipt.relayStatus) .terminalStatusChanged
    return receipts

end DeliveryReceiptStore

/-- The receipt of an acknowledged event. -/
def RelayAcknowledgement.receipt (acknowledgement : RelayAcknowledgement) (now : Datetime) :
    DeliveryReceipt where
  eventDigest := acknowledgement.eventDigest
  receiptId := acknowledgement.receiptId
  relayStatus := acknowledgement.status
  recordedAt := timestamp now

/-- The receipt of an approval whose window has closed. -/
def expiredReceipt (eventDigest : Digest) (current : Datetime) : DeliveryReceipt where
  eventDigest := eventDigest
  receiptId := ⟨"local:proposal-expired", by decide⟩
  relayStatus := .expired
  recordedAt := timestamp current

namespace DeliveryReceiptStore

def put (receipts : DeliveryReceiptStore) (acknowledgement : RelayAcknowledgement)
    (now : Datetime) : Except DeliveryError DeliveryReceiptStore :=
  receipts.putReceipt (acknowledgement.receipt now)

def putExpired (receipts : DeliveryReceiptStore) (eventDigest : Digest) (current : Datetime) :
    Except DeliveryError DeliveryReceiptStore :=
  receipts.putReceipt (expiredReceipt eventDigest current)

end DeliveryReceiptStore

/-! ## Relays -/

/-- A client of the relay: what `submit` returns for an event, none where it raises a
`NotificationError`. Both clients of the host return only acknowledgements of the event. -/
structure RelayClient (sha256 : Sha256) where
  submit : RedactedEvent sha256 → Option RelayAcknowledgement
  eventDigest_of_submit : ∀ {event acknowledgement}, submit event = some acknowledgement →
    acknowledgement.eventDigest = event.digest

/-- `NotificationRelayClient`, over what the relay answers. -/
def notificationRelayClient (answer : RedactedEvent sha256 → Option RelayAcknowledgement) :
    RelayClient sha256 where
  submit event := (answer event).filter fun acknowledgement =>
    acknowledgement.eventDigest = event.digest
  eventDigest_of_submit h := by simpa using (Option.filter_eq_some_iff.mp h).2

/-- `HostTelegramRelayClient`: a registered event is sent as a message, and the receipt bears the
identifier of the message. -/
def hostTelegramRelayClient (relay : RelayClient sha256)
    (message : RedactedEvent sha256 → Option Identifier) : RelayClient sha256 where
  submit event := do
    let registration ← relay.submit event
    if registration.status = .rejected then return registration
    let messageId ← message event
    return { registration with receiptId := messageId }
  eventDigest_of_submit := by
    intro event acknowledgement h
    obtain ⟨registration, hregistration, h⟩ := Option.bind_eq_some_iff.mp h
    split at h
    · cases h
      exact relay.eventDigest_of_submit hregistration
    · obtain ⟨messageId, -, h⟩ := Option.bind_eq_some_iff.mp h
      cases h
      exact (relay.eventDigest_of_submit hregistration :)

/-! ## The order of attempts -/

/-- `_approval_expired`. -/
def approvalExpired (challenge : ApprovalChallenge) (current : Datetime) :
    Except DeliveryError Bool :=
  match instantOf challenge.expiresAt with
  | none => .error .invalidExpiration
  | some expiry => .ok (expiry ≤ current)

abbrev SortKey := ℕ ×ₗ String ×ₗ String

/-- `_delivery_sort_key`. -/
def deliverySortKey (current : Datetime) (event : RedactedEvent sha256) :
    Except DeliveryError SortKey :=
  let key (order : ℕ) (time : Timestamp) : SortKey :=
    toLex (order, toLex (time.val, event.digest.val))
  let approvalKey (challenge : ApprovalChallenge) : Except DeliveryError SortKey := do
    let expired ← approvalExpired challenge current
    return if expired then key 7 challenge.expiresAt else key 1 challenge.expiresAt
  match event with
  | .crashTriage triage =>
    if triage.severity = .urgent ∨ triage.potentialHighValue = true then
      .ok (key 0 triage.createdAt)
    else .ok (key 3 triage.createdAt)
  | .proposalQuarantined proposal => approvalKey proposal.approval
  | .executionReady execution => approvalKey execution.approval
  | .budgetThreshold budget =>
    .ok (key (if budget.severity = .critical then 2 else 4) budget.createdAt)
  | .counterIncrease counter =>
    match counter.counter with
    | .crash => .ok (key 5 counter.createdAt)
    | .hang => .ok (key 6 counter.createdAt)

/-- `sorted` over the sort keys: an event without a key stops it. -/
def sortedEvents (current : Datetime) (events : List (RedactedEvent sha256)) :
    Except DeliveryError (List (RedactedEvent sha256)) := do
  let keyed ← events.mapM fun event => do
    let key ← deliverySortKey current event
    return (key, event)
  return (keyed.insertionSort fun item other : SortKey × RedactedEvent sha256 =>
    item.1 ≤ other.1).map Prod.snd

/-! ## A pass -/

structure DeliveryAttemptStats where
  eventsSeen : ℕ := 0
  eventsDelivered : ℕ := 0
  eventsAlreadyDelivered : ℕ := 0
  eventsAlreadyRejected : ℕ := 0
  eventsAlreadyExpired : ℕ := 0
  eventsNewlyExpired : ℕ := 0
  eventsFailed : ℕ := 0
  deriving DecidableEq

/-- An event that has a receipt is counted by its status. -/
def DeliveryAttemptStats.already (attempt : DeliveryAttemptStats) (status : RelayStatus) :
    DeliveryAttemptStats :=
  match status with
  | .expired =>
    { attempt with
      eventsAlreadyExpired := attempt.eventsAlreadyExpired + 1 }
  | .rejected =>
    { attempt with
      eventsAlreadyRejected := attempt.eventsAlreadyRejected + 1 }
  | .accepted | .duplicate =>
    { attempt with
      eventsAlreadyDelivered := attempt.eventsAlreadyDelivered + 1 }

/-- What a pass has done so far, with the events that it has submitted. -/
structure DeliveryState (sha256 : Sha256) where
  receipts : DeliveryReceiptStore
  submitted : List (RedactedEvent sha256)
  attempt : DeliveryAttemptStats
  delivered : ℕ
  failed : ℕ

section Pass

variable (client : RelayClient sha256) (clock : RedactedEvent sha256 → Datetime)
  (current : Datetime)

/-- The body of the loop. An error leaves the state behind that it was raised in. -/
def deliverEvent (state : DeliveryState sha256) (event : RedactedEvent sha256) :
    Except (DeliveryError × DeliveryState sha256) (DeliveryState sha256) :=
  let seen : DeliveryState sha256 :=
    { state with
      attempt := { state.attempt with
        eventsSeen := state.attempt.eventsSeen + 1 } }
  match state.receipts.get event.digest with
  | .error error => .error (error, seen)
  | .ok (some receipt) =>
    .ok { seen with
      attempt := seen.attempt.already receipt.relayStatus }
  | .ok none =>
    match event.approval?.elim (.ok false) fun challenge => approvalExpired challenge current with
    | .error error => .error (error, seen)
    | .ok true =>
      match seen.receipts.putExpired event.digest current with
      | .error error => .error (error, seen)
      | .ok receipts =>
        .ok { seen with
          receipts := receipts
          attempt := { seen.attempt with
            eventsNewlyExpired := seen.attempt.eventsNewlyExpired + 1 } }
    | .ok false =>
      let sent : DeliveryState sha256 :=
        { seen with
          submitted := seen.submitted ++ [event] }
      match client.submit event with
      | none =>
        .ok { sent with
          failed := sent.failed + 1
          attempt := { sent.attempt with
            eventsFailed := sent.attempt.eventsFailed + 1 } }
      | some acknowledgement =>
        match sent.receipts.put acknowledgement (clock event) with
        | .error error => .error (error, sent)
        | .ok receipts =>
          .ok { sent with
            receipts := receipts
            delivered := sent.delivered + 1
            attempt := { sent.attempt with
              eventsDelivered := sent.attempt.eventsDelivered + 1 } }

inductive DeliveryOutcome
  | returned (delivered : ℕ)
  | batchError (delivered failed : ℕ)
  | raised (error : DeliveryError)
  deriving DecidableEq

/-- How a pass ends that attempted all events. -/
def DeliveryOutcome.ofCounts (delivered failed : ℕ) : DeliveryOutcome :=
  if 0 < failed then .batchError delivered failed else .returned delivered

structure DeliveryPass (sha256 : Sha256) where
  receipts : DeliveryReceiptStore
  submitted : List (RedactedEvent sha256)
  attempt : DeliveryAttemptStats
  outcome : DeliveryOutcome

def DeliveryState.pass (state : DeliveryState sha256) (outcome : DeliveryOutcome) :
    DeliveryPass sha256 :=
  ⟨state.receipts, state.submitted, state.attempt, outcome⟩

/-- What `EventOutbox.events` lists: events of files that their digests name. -/
structure EventOutbox (sha256 : Sha256) where
  events : Outbox sha256
  nodup_digest : (events.map RedactedEvent.digest).Nodup

/-- `deliver_pending` at a time, with a clock for the receipts of acknowledged events. -/
def deliverPending (outbox : EventOutbox sha256) (receipts : DeliveryReceiptStore) :
    DeliveryPass sha256 :=
  let start : DeliveryState sha256 := ⟨receipts, [], {}, 0, 0⟩
  match sortedEvents current outbox.events with
  | .error error => start.pass (.raised error)
  | .ok events =>
    match events.foldlM (deliverEvent client clock current) start with
    | .error (error, state) => state.pass (.raised error)
    | .ok state => state.pass (.ofCounts state.delivered state.failed)

end Pass

/-! ## What a pass is for -/

namespace RedactedEvent

instance (event : RedactedEvent sha256) (instant : Datetime) : Decidable (event.ExpiredAt instant) :=
  decidable_of_iff (∃ challenge ∈ event.approval?, ∃ expiry ∈ instantOf challenge.expiresAt,
    expiry ≤ instant) <| by
    constructor
    · rintro ⟨challenge, hchallenge, expiry, hexpiry, hle⟩
      exact ⟨challenge, expiry, hchallenge, hexpiry, hle⟩
    · rintro ⟨challenge, expiry, hchallenge, hexpiry, hle⟩
      exact ⟨challenge, hchallenge, expiry, hexpiry, hle⟩

/-- Until when an event can be answered that asks for an approval. -/
def deadline? (event : RedactedEvent sha256) : Option Datetime :=
  event.approval?.bind fun challenge => instantOf challenge.expiresAt

/-- The deadline of the event, where it has one, is a time of the calendar. -/
def Dated (event : RedactedEvent sha256) : Prop :=
  ∀ challenge ∈ event.approval?, (instantOf challenge.expiresAt).isSome

/-- Urgent triage, approvals, critical budgets, other triage, other budgets, crashes, hangs. -/
def priority : RedactedEvent sha256 → ℕ
  | .crashTriage triage =>
    match triage.severity with
    | .urgent => 0
    | .attention => 3
  | .proposalQuarantined _ | .executionReady _ => 1
  | .budgetThreshold budget =>
    match budget.severity with
    | .critical => 2
    | .warning => 4
  | .counterIncrease counter =>
    match counter.counter with
    | .crash => 5
    | .hang => 6

/-- An event may be submitted before another one: by priority, and approvals by deadline. -/
def Precedes (event other : RedactedEvent sha256) : Prop :=
  event.priority < other.priority
    ∨ event.priority = other.priority
      ∧ ∀ deadline ∈ event.deadline?, ∀ later ∈ other.deadline?, deadline ≤ later

end RedactedEvent

/-- An event without a receipt that is no expired approval. -/
def Pending (receipts : DeliveryReceiptStore) (current : Datetime) (event : RedactedEvent sha256) :
    Prop :=
  receipts event.digest = none ∧ ¬ event.ExpiredAt current

instance (receipts : DeliveryReceiptStore) (current : Datetime) (event : RedactedEvent sha256) :
    Decidable (Pending receipts current event) := by unfold Pending; infer_instance

section Purpose

variable (client : RelayClient sha256) (clock : RedactedEvent sha256 → Datetime)
  (current : Datetime) (outbox : EventOutbox sha256) (receipts : DeliveryReceiptStore)

/-- The events that the relay acknowledges in a pass. -/
def acknowledgedEvents : List (RedactedEvent sha256) :=
  outbox.events.filter fun event => Pending receipts current event ∧ (client.submit event).isSome

/-- The events that the relay fails on in a pass. -/
def failedEvents : List (RedactedEvent sha256) :=
  outbox.events.filter fun event => Pending receipts current event ∧ client.submit event = none

/-- A pass submits every pending event once and in order, writes a receipt for every event that is
acknowledged or newly expired and no other one, and a pass after it submits those that failed. -/
structure Delivers : Prop where
  outcome_eq : (deliverPending client clock current outbox receipts).outcome
    = .ofCounts (acknowledgedEvents client current outbox receipts).length
      (failedEvents client current outbox receipts).length
  submitted_perm : (deliverPending client clock current outbox receipts).submitted.Perm
    (outbox.events.filter fun event => Pending receipts current event)
  ordered : (deliverPending client clock current outbox receipts).submitted.Pairwise
    RedactedEvent.Precedes
  acknowledged : ∀ event ∈ outbox.events, Pending receipts current event →
    ∀ acknowledgement ∈ client.submit event,
      (deliverPending client clock current outbox receipts).receipts event.digest
        = some (.holds (acknowledgement.receipt (clock event)))
  expired : ∀ event ∈ outbox.events, receipts event.digest = none → event.ExpiredAt current →
    (deliverPending client clock current outbox receipts).receipts event.digest
      = some (.holds (expiredReceipt event.digest current))
  failed : ∀ event ∈ failedEvents client current outbox receipts,
    (deliverPending client clock current outbox receipts).receipts event.digest = none
  kept : ∀ digest, (∀ event ∈ outbox.events, event.digest = digest → receipts digest ≠ none) →
    (deliverPending client clock current outbox receipts).receipts digest = receipts digest
  resubmitted : ∀ (client' : RelayClient sha256) (clock' : RedactedEvent sha256 → Datetime),
    (deliverPending client' clock' current outbox
        (deliverPending client clock current outbox receipts).receipts).submitted.Perm
      (failedEvents client current outbox receipts)

/-- What a pass needs: every deadline is a time of the calendar, no receipt of an event stands in
its way, and the deadlines of the pending approvals are in the order of their texts. -/
structure Deliverable : Prop where
  dated : ∀ event ∈ outbox.events, event.Dated
  readable : ∀ event ∈ outbox.events, ∃ receipt?, receipts.get event.digest = .ok receipt?
  textual : ∀ event ∈ outbox.events, Pending receipts current event →
    ∀ other ∈ outbox.events, Pending receipts current other →
      ∀ challenge ∈ event.approval?, ∀ challenge' ∈ other.approval?,
        challenge.expiresAt.val ≤ challenge'.expiresAt.val →
          ∀ deadline ∈ event.deadline?, ∀ later ∈ other.deadline?, deadline ≤ later

end Purpose

/-! ## The order of the events -/

section Order

variable {current : Datetime} {event other : RedactedEvent sha256}

theorem approvalExpired_eq_ok {challenge : ApprovalChallenge} {expired : Bool}
    (hchallenge : event.approval? = some challenge) :
    approvalExpired challenge current = .ok expired
      ↔ event.Dated ∧ expired = decide (event.ExpiredAt current) := by
  have hdated : event.Dated ↔ (instantOf challenge.expiresAt).isSome := by
    simp [RedactedEvent.Dated, hchallenge]
  have hexpired : event.ExpiredAt current
      ↔ ∃ expiry, instantOf challenge.expiresAt = some expiry ∧ expiry ≤ current := by
    simp [RedactedEvent.ExpiredAt, hchallenge]
  rw [approvalExpired, hdated]
  cases hinstant : instantOf challenge.expiresAt with
  | none => simp
  | some expiry =>
    have hiff : event.ExpiredAt current ↔ expiry ≤ current := by simp [hexpired, hinstant]
    simp [hiff, eq_comm]

/-- The time that an event is ordered by. -/
def orderTime (event : RedactedEvent sha256) : Timestamp :=
  event.approval?.elim event.createdAt ApprovalChallenge.expiresAt

/-- The sort key of an event with a deadline of the calendar. -/
def orderKey (current : Datetime) (event : RedactedEvent sha256) : SortKey :=
  toLex (if event.ExpiredAt current then 7 else event.priority,
    toLex ((orderTime event).val, event.digest.val))

theorem deliverySortKey_eq_ok {key : SortKey} :
    deliverySortKey current event = .ok key ↔ event.Dated ∧ key = orderKey current event := by
  have hother : event.approval? = none →
      (¬ event.ExpiredAt current → deliverySortKey current event = .ok (orderKey current event)) →
      (deliverySortKey current event = .ok key ↔ event.Dated ∧ key = orderKey current event) := by
    intro hnone hkey
    have hdated : event.Dated := by simp [RedactedEvent.Dated, hnone]
    rw [hkey (by simp [RedactedEvent.ExpiredAt, hnone]), Except.ok.injEq, and_iff_right hdated]
    exact eq_comm
  have happroval : ∀ challenge, event.approval? = some challenge → event.priority = 1 →
      ((do
        let expired ← approvalExpired challenge current
        return if expired then toLex (7, toLex (challenge.expiresAt.val, event.digest.val))
          else toLex (1, toLex (challenge.expiresAt.val, event.digest.val))) = Except.ok key
        ↔ event.Dated ∧ key = orderKey current event) := by
    intro challenge hchallenge hpriority
    have htime : orderTime event = challenge.expiresAt := by rw [orderTime, hchallenge]; rfl
    simp only [bind_eq_ok, approvalExpired_eq_ok hchallenge, pure_eq_ok, orderKey, htime, hpriority]
    by_cases hexpired : event.ExpiredAt current <;> simp [hexpired, eq_comm]
  cases event with
  | proposalQuarantined proposal => exact happroval _ rfl rfl
  | executionReady execution => exact happroval _ rfl rfl
  | budgetThreshold budget =>
    refine hother rfl fun hexpired => ?_
    rw [orderKey, if_neg hexpired]
    cases hseverity : budget.severity <;>
      simp [deliverySortKey, RedactedEvent.priority, hseverity] <;> rfl
  | counterIncrease counter =>
    refine hother rfl fun hexpired => ?_
    rw [orderKey, if_neg hexpired]
    cases hcounter : counter.counter <;>
      simp [deliverySortKey, RedactedEvent.priority, hcounter] <;> rfl
  | crashTriage triage =>
    refine hother rfl fun hexpired => ?_
    rw [orderKey, if_neg hexpired]
    have hurgent := triage.urgent_iff
    cases hseverity : triage.severity with
    | urgent =>
      simp [deliverySortKey, RedactedEvent.priority, hseverity]
      rfl
    | attention =>
      have hvalue : triage.potentialHighValue = false := by simpa [hseverity] using hurgent
      simp [deliverySortKey, RedactedEvent.priority, hseverity, hvalue]
      rfl

/-- The order of the sort keys. -/
def Sorted (current : Datetime) (events : List (RedactedEvent sha256)) : Prop :=
  events.Pairwise fun event other => orderKey current event ≤ orderKey current other

theorem sortedEvents_eq_ok {events sorted : List (RedactedEvent sha256)}
    (h : sortedEvents current events = .ok sorted) :
    (∀ event ∈ events, event.Dated) ∧ sorted.Perm events ∧ Sorted current sorted := by
  obtain ⟨keyed, hkeyed, h⟩ := bind_eq_ok.mp h
  have hitem : ∀ (event : RedactedEvent sha256) item,
      (do
        let key ← deliverySortKey current event
        return (key, event)) = Except.ok item
        ↔ event.Dated ∧ item = (orderKey current event, event) := by
    intro event item
    simp only [bind_eq_ok, deliverySortKey_eq_ok, pure_eq_ok]
    constructor
    · rintro ⟨key, ⟨hdated, rfl⟩, rfl⟩
      exact ⟨hdated, rfl⟩
    · rintro ⟨hdated, rfl⟩
      exact ⟨_, ⟨hdated, rfl⟩, rfl⟩
  obtain ⟨hdated, rfl⟩ := (mapM_eq_ok hitem).mp hkeyed
  cases h
  have hperm := List.perm_insertionSort (fun item other : SortKey × RedactedEvent sha256 =>
    item.1 ≤ other.1) (events.map fun event => (orderKey current event, event))
  refine ⟨hdated, ?_, ?_⟩
  · have hmap := hperm.map Prod.snd
    rwa [List.map_map, show Prod.snd ∘ (fun event => (orderKey current event, event)) = id from rfl,
      List.map_id] at hmap
  · have : Std.Total fun item other : SortKey × RedactedEvent sha256 => item.1 ≤ other.1 :=
      ⟨fun _ _ => le_total _ _⟩
    have : IsTrans _ fun item other : SortKey × RedactedEvent sha256 => item.1 ≤ other.1 :=
      ⟨fun _ _ _ h h' => h.trans h'⟩
    have hkey : ∀ item ∈ (events.map fun event => (orderKey current event, event)).insertionSort
        fun item other => item.1 ≤ other.1, item.1 = orderKey current item.2 := by
      intro item hitem
      obtain ⟨event, -, rfl⟩ := List.mem_map.mp (hperm.mem_iff.mp hitem)
      rfl
    refine List.pairwise_map.mpr ((List.pairwise_insertionSort _ _).imp_of_mem ?_)
    intro item other hitem hother hle
    rwa [← hkey item hitem, ← hkey other hother]

theorem exists_sortedEvents (current : Datetime) {events : List (RedactedEvent sha256)}
    (hdated : ∀ event ∈ events, event.Dated) : ∃ sorted, sortedEvents current events = .ok sorted := by
  have hitem : ∀ event ∈ events, ∃ item, (do
      let key ← deliverySortKey current event
      return (key, event)) = Except.ok item := by
    intro event hevent
    rw [deliverySortKey_eq_ok.mpr ⟨hdated event hevent, rfl⟩]
    exact ⟨_, rfl⟩
  obtain ⟨keyed, hkeyed⟩ := exists_forall₂ hitem
  rw [sortedEvents, mapM_eq_ok_iff_forall₂.mpr hkeyed]
  exact ⟨_, rfl⟩

theorem orderKey_of_pending (h : ¬ event.ExpiredAt current) :
    orderKey current event
      = toLex (event.priority, toLex ((orderTime event).val, event.digest.val)) := by
  rw [orderKey, if_neg h]

theorem orderTime_eq {challenge : ApprovalChallenge} (h : event.approval? = some challenge) :
    orderTime event = challenge.expiresAt := by
  rw [orderTime, h]
  rfl

/-- The sort keys keep the order of the alerts where the texts keep the order of the deadlines. -/
theorem precedes_of_le (hevent : ¬ event.ExpiredAt current) (hother : ¬ other.ExpiredAt current)
    (htextual : ∀ challenge ∈ event.approval?, ∀ challenge' ∈ other.approval?,
      challenge.expiresAt.val ≤ challenge'.expiresAt.val →
        ∀ deadline ∈ event.deadline?, ∀ later ∈ other.deadline?, deadline ≤ later)
    (hle : orderKey current event ≤ orderKey current other) : event.Precedes other := by
  rw [orderKey_of_pending hevent, orderKey_of_pending hother, Prod.Lex.toLex_le_toLex] at hle
  refine hle.imp_right fun hle => ⟨hle.1, fun deadline hdeadline later hlater => ?_⟩
  obtain ⟨challenge, hchallenge, -⟩ := Option.bind_eq_some_iff.mp hdeadline
  obtain ⟨challenge', hchallenge', -⟩ := Option.bind_eq_some_iff.mp hlater
  refine htextual challenge hchallenge challenge' hchallenge' ?_ deadline hdeadline later hlater
  have htime := (Prod.Lex.toLex_le_toLex.mp hle.2).elim le_of_lt fun h => h.1.le
  rwa [orderTime_eq hchallenge, orderTime_eq hchallenge'] at htime

theorem priority_of_approval {challenge : ApprovalChallenge} (h : event.approval? = some challenge) :
    event.priority = 1 := by
  cases event with
  | proposalQuarantined proposal => rfl
  | executionReady execution => rfl
  | budgetThreshold budget => cases h
  | counterIncrease counter => cases h
  | crashTriage triage => cases h

/-- Approvals that are submitted in the order of their deadlines have them in the order of their
texts. -/
theorem deadline_le_of_ordered {submitted : List (RedactedEvent sha256)}
    (hsorted : Sorted current submitted) (hordered : submitted.Pairwise RedactedEvent.Precedes)
    (hevent : event ∈ submitted) (hother : other ∈ submitted)
    (hlive : ¬ event.ExpiredAt current) (hlive' : ¬ other.ExpiredAt current)
    {challenge challenge' : ApprovalChallenge} (hchallenge : event.approval? = some challenge)
    (hchallenge' : other.approval? = some challenge')
    (hle : challenge.expiresAt.val ≤ challenge'.expiresAt.val) {deadline later : Datetime}
    (hdeadline : event.deadline? = some deadline) (hlater : other.deadline? = some later) :
    deadline ≤ later := by
  rcases hle.eq_or_lt with heq | hlt
  · have hsame : event.deadline? = other.deadline? := by
      simp only [RedactedEvent.deadline?, hchallenge, hchallenge', Option.bind_some,
        Subtype.ext heq]
    rw [hdeadline, hlater] at hsame
    rw [Option.some.inj hsame]
    exact Nat.le_refl later.micros
  · have hkey : orderKey current event < orderKey current other := by
      rw [orderKey_of_pending hlive, orderKey_of_pending hlive', Prod.Lex.toLex_lt_toLex,
        priority_of_approval hchallenge, priority_of_approval hchallenge',
        Prod.Lex.toLex_lt_toLex, orderTime_eq hchallenge, orderTime_eq hchallenge']
      exact .inr ⟨rfl, .inl hlt⟩
    -- the event stands before the other one, since the list is in the order of the keys
    have hforward : submitted.Pairwise fun event other =>
        orderKey current event < orderKey current other → event.Precedes other :=
      hordered.imp fun h => fun _ => h
    have hprecedes := hforward.forall_of_forall_of_flip (fun _ _ hlt => absurd hlt (lt_irrefl _))
      (hsorted.imp fun hle hlt => absurd hlt (not_lt.mpr hle)) hevent hother hkey
    rw [RedactedEvent.Precedes, priority_of_approval hchallenge, priority_of_approval hchallenge']
      at hprecedes
    exact (hprecedes.resolve_left (lt_irrefl 1)).2 deadline hdeadline later hlater

end Order

/-! ## One event -/

section Step

variable {client : RelayClient sha256} {clock : RedactedEvent sha256 → Datetime}
  {current : Datetime} {state : DeliveryState sha256} {event : RedactedEvent sha256}
  {receipts : DeliveryReceiptStore}

theorem get_eq_ok_none {digest : Digest} : receipts.get digest = .ok none ↔ receipts digest = none := by
  rw [DeliveryReceiptStore.get]
  rcases hfile : receipts digest with _ | _ | receipt
  · simp
  · simp
  · simp only [bind_eq_ok, raiseIf_eq_ok, pure_eq_ok]
    simp

/-- A receipt under a new digest is written. -/
theorem putReceipt_eq {receipt : DeliveryReceipt} (h : receipts receipt.eventDigest = none) :
    receipts.putReceipt receipt
      = .ok (Function.update receipts receipt.eventDigest (some (.holds receipt))) := by
  rw [DeliveryReceiptStore.putReceipt, h]

theorem approvalExpired_eq (h : event.Dated) :
    (event.approval?.elim (.ok false) fun challenge => approvalExpired challenge current)
      = .ok (decide (event.ExpiredAt current)) := by
  cases happroval : event.approval? with
  | none => simp [RedactedEvent.ExpiredAt, happroval]
  | some challenge => exact (approvalExpired_eq_ok happroval).mpr ⟨h, rfl⟩

variable (client clock current) in
/-- The receipt that a pass writes for an event that has none. -/
def receiptOf (event : RedactedEvent sha256) : Option DeliveryReceipt :=
  if event.ExpiredAt current then some (expiredReceipt event.digest current)
  else (client.submit event).map fun acknowledgement => acknowledgement.receipt (clock event)

variable (client clock current) in
/-- The receipts after an attempt at an event. -/
def settle (receipts : DeliveryReceiptStore) (event : RedactedEvent sha256) :
    DeliveryReceiptStore :=
  Function.update receipts event.digest
    ((receipts event.digest).or ((receiptOf client clock current event).map .holds))

variable (client clock current) in
/-- What the attempts at some events do to a state. -/
structure Attempted (events : List (RedactedEvent sha256)) (state final : DeliveryState sha256) :
    Prop where
  submitted : final.submitted
    = state.submitted ++ events.filter fun event => Pending state.receipts current event
  delivered : final.delivered = state.delivered + (events.filter fun event =>
    Pending state.receipts current event ∧ (client.submit event).isSome).length
  failed : final.failed = state.failed + (events.filter fun event =>
    Pending state.receipts current event ∧ client.submit event = none).length
  settled : ∀ event ∈ events, final.receipts event.digest
    = (state.receipts event.digest).or ((receiptOf client clock current event).map .holds)
  kept : ∀ digest ∉ events.map RedactedEvent.digest, final.receipts digest = state.receipts digest

theorem attempted_singleton {final : DeliveryState sha256}
    (hreceipts : final.receipts = settle client clock current state.receipts event)
    (hsubmitted : final.submitted
      = state.submitted ++ [event].filter fun event => Pending state.receipts current event)
    (hdelivered : final.delivered = state.delivered + ([event].filter fun event =>
      Pending state.receipts current event ∧ (client.submit event).isSome).length)
    (hfailed : final.failed = state.failed + ([event].filter fun event =>
      Pending state.receipts current event ∧ client.submit event = none).length) :
    Attempted client clock current [event] state final where
  submitted := hsubmitted
  delivered := hdelivered
  failed := hfailed
  settled := by
    intro other hother
    rw [List.mem_singleton.mp hother, hreceipts]
    exact Function.update_self ..
  kept := by
    intro digest hdigest
    rw [hreceipts]
    exact Function.update_of_ne (fun heq => hdigest (by simp [heq])) ..

theorem settle_of_some (h : receipts event.digest ≠ none) :
    settle client clock current receipts event = receipts := by
  obtain ⟨file, hfile⟩ := Option.ne_none_iff_exists'.mp h
  rw [settle, hfile, Option.some_or, ← hfile]
  exact Function.update_eq_self ..

theorem settle_of_none
    (hreceipt : receiptOf client clock current event = none) :
    settle client clock current receipts event = receipts := by
  rw [settle, hreceipt, Option.map_none, Option.or_none]
  exact Function.update_eq_self ..

theorem eventDigest_receiptOf {receipt : DeliveryReceipt}
    (h : receiptOf client clock current event = some receipt) :
    receipt.eventDigest = event.digest := by
  rw [receiptOf] at h
  split at h
  · cases h
    rfl
  · obtain ⟨acknowledgement, hsubmit, rfl⟩ := Option.map_eq_some_iff.mp h
    exact client.eventDigest_of_submit hsubmit

theorem putReceipt_receiptOf {receipt : DeliveryReceipt} (h : receipts event.digest = none)
    (hreceipt : receiptOf client clock current event = some receipt) :
    receipts.putReceipt receipt = .ok (settle client clock current receipts event) := by
  have hdigest := eventDigest_receiptOf hreceipt
  rw [putReceipt_eq (by rw [hdigest, h]), settle, h, hreceipt, hdigest]
  rfl

variable (client clock current) in
/-- **One event**: what the body of the loop does when nothing stands in its way. -/
theorem deliverEvent_eq (hdated : event.Dated)
    (hreadable : ∃ receipt?, state.receipts.get event.digest = .ok receipt?) :
    ∃ final, deliverEvent client clock current state event = .ok final
      ∧ Attempted client clock current [event] state final := by
  obtain ⟨receipt?, hget⟩ := hreadable
  cases receipt? with
  | some receipt =>
    have hsome : state.receipts event.digest ≠ none := fun hnone => by
      rw [get_eq_ok_none.mpr hnone] at hget
      cases hget
    simp only [deliverEvent, hget]
    refine ⟨_, rfl, attempted_singleton ?_ ?_ ?_ ?_⟩
    · exact (settle_of_some hsome).symm
    · simp [Pending, hsome]
    · simp [Pending, hsome]
    · simp [Pending, hsome]
  | none =>
    have hnone := get_eq_ok_none.mp hget
    by_cases hexpired : event.ExpiredAt current
    · have hreceipt : receiptOf client clock current event
          = some (expiredReceipt event.digest current) := if_pos hexpired
      simp only [deliverEvent, hget, approvalExpired_eq hdated, hexpired, decide_true,
        DeliveryReceiptStore.putExpired, putReceipt_receiptOf hnone hreceipt]
      refine ⟨_, rfl, attempted_singleton rfl ?_ ?_ ?_⟩
      · simp [Pending, hexpired]
      · simp [Pending, hexpired]
      · simp [Pending, hexpired]
    · cases hsubmit : client.submit event with
      | none =>
        have hreceipt : receiptOf client clock current event = none := by
          rw [receiptOf, if_neg hexpired, hsubmit, Option.map_none]
        simp only [deliverEvent, hget, approvalExpired_eq hdated, hexpired, decide_false, hsubmit]
        refine ⟨_, rfl, attempted_singleton ?_ ?_ ?_ ?_⟩
        · exact (settle_of_none hreceipt).symm
        · simp [Pending, hexpired, hnone]
        · simp [Pending, hsubmit]
        · simp [Pending, hexpired, hnone, hsubmit]
      | some acknowledgement =>
        have hreceipt : receiptOf client clock current event
            = some (acknowledgement.receipt (clock event)) := by
          rw [receiptOf, if_neg hexpired, hsubmit, Option.map_some]
        simp only [deliverEvent, hget, approvalExpired_eq hdated, hexpired, decide_false, hsubmit,
          DeliveryReceiptStore.put, putReceipt_receiptOf hnone hreceipt]
        refine ⟨_, rfl, attempted_singleton rfl ?_ ?_ ?_⟩
        · simp [Pending, hexpired, hnone]
        · simp [Pending, hexpired, hnone, hsubmit]
        · simp [Pending, hsubmit]

theorem readable_of_deliverEvent {final : DeliveryState sha256}
    (h : deliverEvent client clock current state event = .ok final) :
    ∃ receipt?, state.receipts.get event.digest = .ok receipt? := by
  cases hget : state.receipts.get event.digest with
  | error error => simp [deliverEvent, hget] at h
  | ok receipt? => exact ⟨receipt?, rfl⟩

end Step

/-! ## All events -/

section Loop

variable {client : RelayClient sha256} {clock : RedactedEvent sha256 → Datetime}
  {current : Datetime} {state next final : DeliveryState sha256} {event : RedactedEvent sha256}
  {events : List (RedactedEvent sha256)} {receipts receipts' : DeliveryReceiptStore}

theorem get_congr {digest : Digest} (h : receipts digest = receipts' digest) :
    receipts.get digest = receipts'.get digest := by
  rw [DeliveryReceiptStore.get, DeliveryReceiptStore.get, h]

theorem pending_congr (h : receipts event.digest = receipts' event.digest) :
    Pending receipts current event ↔ Pending receipts' current event := by
  rw [Pending, Pending, h]

theorem digest_ne_of_notMem (h : event.digest ∉ events.map RedactedEvent.digest)
    {other : RedactedEvent sha256} (hmem : other ∈ events) : event.digest ≠ other.digest := by
  intro heq
  rw [heq] at h
  exact h (List.mem_map_of_mem hmem)

/-- An attempt at an event leaves the receipts of other events alone. -/
theorem Attempted.receipts_eq (h : Attempted client clock current [event] state next)
    {other : RedactedEvent sha256} (hne : event.digest ≠ other.digest) :
    next.receipts other.digest = state.receipts other.digest :=
  h.kept _ (by simpa using hne.symm)

theorem Attempted.cons (hnotMem : event.digest ∉ events.map RedactedEvent.digest)
    (hhead : Attempted client clock current [event] state next)
    (htail : Attempted client clock current events next final) :
    Attempted client clock current (event :: events) state final := by
  have hother : ∀ other ∈ events, next.receipts other.digest = state.receipts other.digest :=
    fun other hmem => hhead.receipts_eq (digest_ne_of_notMem hnotMem hmem)
  have hpending : ∀ other ∈ events,
      (Pending next.receipts current other ↔ Pending state.receipts current other) :=
    fun other hmem => pending_congr (hother other hmem)
  rw [← List.singleton_append]
  constructor
  · rw [htail.submitted, hhead.submitted, List.filter_append, List.append_assoc]
    congr 2
    exact List.filter_congr fun other hmem => decide_eq_decide.mpr (hpending other hmem)
  · rw [htail.delivered, hhead.delivered, List.filter_append, List.length_append, Nat.add_assoc]
    congr 3
    exact List.filter_congr fun other hmem =>
      decide_eq_decide.mpr (and_congr_left' (hpending other hmem))
  · rw [htail.failed, hhead.failed, List.filter_append, List.length_append, Nat.add_assoc]
    congr 3
    exact List.filter_congr fun other hmem =>
      decide_eq_decide.mpr (and_congr_left' (hpending other hmem))
  · intro other hmem
    rcases List.mem_append.mp hmem with hmem | hmem
    · rw [List.mem_singleton.mp hmem, htail.kept _ hnotMem]
      exact hhead.settled event (List.mem_singleton_self event)
    · rw [htail.settled other hmem, hother other hmem]
  · intro digest hdigest
    rw [List.map_append, List.mem_append, not_or] at hdigest
    rw [htail.kept digest hdigest.2, hhead.kept digest hdigest.1]

variable (client clock current) in
/-- **All events**: what the loop does when nothing stands in its way. -/
theorem foldlM_deliverEvent (state : DeliveryState sha256)
    (hnodup : (events.map RedactedEvent.digest).Nodup)
    (hdated : ∀ event ∈ events, event.Dated)
    (hreadable : ∀ event ∈ events, ∃ receipt?, state.receipts.get event.digest = .ok receipt?) :
    ∃ final, events.foldlM (deliverEvent client clock current) state = .ok final
      ∧ Attempted client clock current events state final := by
  induction events generalizing state with
  | nil =>
    refine ⟨state, rfl, ?_⟩
    constructor <;> simp
  | cons event events ih =>
    obtain ⟨hnotMem, hnodup⟩ := List.nodup_cons.mp hnodup
    obtain ⟨hhead, htail⟩ := List.forall_mem_cons.mp hdated
    obtain ⟨next, hnext, hattempt⟩ := deliverEvent_eq client clock current hhead (hreadable event List.mem_cons_self)
    have hreadable' : ∀ other ∈ events, ∃ receipt?, next.receipts.get other.digest = .ok receipt? := by
      intro other hmem
      rw [get_congr (hattempt.receipts_eq (digest_ne_of_notMem hnotMem hmem))]
      exact hreadable other (List.mem_cons_of_mem _ hmem)
    obtain ⟨final, hfinal, hattempts⟩ := ih next hnodup htail hreadable'
    refine ⟨final, ?_, hattempt.cons hnotMem hattempts⟩
    rw [List.foldlM_cons, hnext]
    exact hfinal

/-- A loop that comes to its end could read the receipts of all events. -/
theorem readable_of_foldlM (hnodup : (events.map RedactedEvent.digest).Nodup)
    (hdated : ∀ event ∈ events, event.Dated)
    (h : events.foldlM (deliverEvent client clock current) state = .ok final) :
    ∀ event ∈ events, ∃ receipt?, state.receipts.get event.digest = .ok receipt? := by
  induction events generalizing state with
  | nil => simp
  | cons event events ih =>
    obtain ⟨hnotMem, hnodup⟩ := List.nodup_cons.mp hnodup
    obtain ⟨hhead, htail⟩ := List.forall_mem_cons.mp hdated
    rw [List.foldlM_cons] at h
    obtain ⟨next, hnext, hrest⟩ := bind_eq_ok.mp h
    have hread := readable_of_deliverEvent hnext
    obtain ⟨next', hnext', hattempt⟩ := deliverEvent_eq client clock current hhead hread
    rw [hnext, Except.ok.injEq] at hnext'
    subst hnext'
    refine List.forall_mem_cons.mpr ⟨hread, fun other hmem => ?_⟩
    rw [← get_congr (hattempt.receipts_eq (digest_ne_of_notMem hnotMem hmem))]
    exact ih hnodup htail hrest other hmem

end Loop

/-! ## Whole passes -/

section Whole

variable {client : RelayClient sha256} {clock : RedactedEvent sha256 → Datetime}
  {current : Datetime} {outbox : EventOutbox sha256} {receipts : DeliveryReceiptStore}
  {event : RedactedEvent sha256}

variable (client clock current) in
/-- A pass that is not stopped goes through the events in the order of their keys. -/
theorem deliverPending_eq (hdated : ∀ event ∈ outbox.events, event.Dated)
    (hreadable : ∀ event ∈ outbox.events, ∃ receipt?, receipts.get event.digest = .ok receipt?) :
    ∃ sorted final, sorted.Perm outbox.events ∧ Sorted current sorted
      ∧ Attempted client clock current sorted ⟨receipts, [], {}, 0, 0⟩ final
      ∧ deliverPending client clock current outbox receipts
        = final.pass (.ofCounts final.delivered final.failed) := by
  obtain ⟨sorted, hsorted⟩ := exists_sortedEvents current hdated
  obtain ⟨-, hperm, horder⟩ := sortedEvents_eq_ok hsorted
  obtain ⟨final, hfinal, hattempts⟩ := foldlM_deliverEvent client clock current
    ⟨receipts, [], {}, 0, 0⟩ ((hperm.map _).nodup_iff.mpr outbox.nodup_digest)
    (fun event hmem => hdated event (hperm.mem_iff.mp hmem))
    (fun event hmem => hreadable event (hperm.mem_iff.mp hmem))
  refine ⟨sorted, final, hperm, horder, hattempts, ?_⟩
  simp only [deliverPending, hsorted, hfinal]

/-- A pass that comes to its end could read all deadlines and receipts. -/
theorem of_outcome_eq {delivered failed : ℕ}
    (h : (deliverPending client clock current outbox receipts).outcome = .ofCounts delivered failed) :
    (∀ event ∈ outbox.events, event.Dated)
      ∧ ∀ event ∈ outbox.events, ∃ receipt?, receipts.get event.digest = .ok receipt? := by
  have hraised : ∀ error, DeliveryOutcome.ofCounts delivered failed ≠ .raised error := by
    intro error
    rw [DeliveryOutcome.ofCounts]
    split <;> simp
  cases hsorted : sortedEvents current outbox.events with
  | error error =>
    simp only [deliverPending, hsorted] at h
    exact absurd h.symm (hraised error)
  | ok sorted =>
    obtain ⟨hdated, hperm, -⟩ := sortedEvents_eq_ok hsorted
    refine ⟨hdated, ?_⟩
    cases hfinal : sorted.foldlM (deliverEvent client clock current)
        (⟨receipts, [], {}, 0, 0⟩ : DeliveryState sha256) with
    | error item =>
      simp only [deliverPending, hsorted, hfinal] at h
      exact absurd h.symm (hraised item.1)
    | ok final =>
      have hread := readable_of_foldlM ((hperm.map _).nodup_iff.mpr outbox.nodup_digest)
        (fun event hmem => hdated event (hperm.mem_iff.mp hmem)) hfinal
      exact fun event hmem => hread event (hperm.mem_iff.mpr hmem)

theorem receiptOf_eq_none :
    receiptOf client clock current event = none
      ↔ ¬ event.ExpiredAt current ∧ client.submit event = none := by
  rw [receiptOf]
  split <;> simp [*]

/-- The next pass finds the events pending that this one failed on. -/
theorem pending_or_receiptOf {receipts' : DeliveryReceiptStore}
    (h : receipts' event.digest
      = (receipts event.digest).or ((receiptOf client clock current event).map .holds)) :
    Pending receipts' current event ↔ Pending receipts current event ∧ client.submit event = none := by
  rw [Pending, Pending, h, Option.or_eq_none_iff, Option.map_eq_none_iff, receiptOf_eq_none]
  tauto

/-- The next pass can read the receipts that this one wrote. -/
theorem readable_or_receiptOf {receipts' : DeliveryReceiptStore}
    (h : receipts' event.digest
      = (receipts event.digest).or ((receiptOf client clock current event).map .holds))
    (hreadable : ∃ receipt?, receipts.get event.digest = .ok receipt?) :
    ∃ receipt?, receipts'.get event.digest = .ok receipt? := by
  cases hfile : receipts event.digest with
  | some file =>
    rwa [get_congr (h.trans (by rw [hfile, Option.some_or, ← hfile]))]
  | none =>
    rw [hfile, Option.none_or] at h
    cases hreceipt : receiptOf client clock current event with
    | none =>
      rw [hreceipt] at h
      exact ⟨none, get_eq_ok_none.mpr h⟩
    | some receipt =>
      rw [hreceipt, Option.map_some] at h
      refine ⟨some receipt, ?_⟩
      rw [DeliveryReceiptStore.get, h]
      exact raiseIf_bind_of_not (not_not.mpr (eventDigest_receiptOf hreceipt))

/-- **A pass does what it is for when nothing stands in its way.** -/
theorem delivers_of_deliverable (h : Deliverable current outbox receipts) :
    Delivers client clock current outbox receipts := by
  obtain ⟨sorted, final, hperm, hsorted, hattempts, hpass⟩ :=
    deliverPending_eq client clock current h.dated h.readable
  have hsubmitted := hattempts.submitted
  rw [List.nil_append] at hsubmitted
  have hpending : ∀ event ∈ final.submitted, event ∈ outbox.events ∧ Pending receipts current event := by
    intro event hmem
    rw [hsubmitted, List.mem_filter, decide_eq_true_eq] at hmem
    exact ⟨hperm.mem_iff.mp hmem.1, hmem.2⟩
  have hreceipts : ∀ event ∈ outbox.events, final.receipts event.digest
      = (receipts event.digest).or ((receiptOf client clock current event).map .holds) :=
    fun event hmem => hattempts.settled event (hperm.mem_iff.mpr hmem)
  constructor
  · rw [hpass]
    change DeliveryOutcome.ofCounts final.delivered final.failed = _
    rw [hattempts.delivered, hattempts.failed, Nat.zero_add, Nat.zero_add]
    exact congrArg₂ _ (hperm.filter _).length_eq (hperm.filter _).length_eq
  · rw [hpass]
    change final.submitted.Perm _
    rw [hsubmitted]
    exact hperm.filter _
  · rw [hpass]
    change final.submitted.Pairwise _
    have horder : Sorted current final.submitted := by
      rw [hsubmitted]
      exact hsorted.filter _
    refine horder.imp_of_mem fun {event other} hevent hother hle => ?_
    obtain ⟨hmem, hevent⟩ := hpending event hevent
    obtain ⟨hmem', hother⟩ := hpending other hother
    exact precedes_of_le hevent.2 hother.2 (h.textual event hmem hevent other hmem' hother) hle
  · intro event hmem hevent acknowledgement hsubmit
    rw [hpass]
    change final.receipts event.digest = _
    rw [hreceipts event hmem, hevent.1, Option.none_or, receiptOf, if_neg hevent.2, hsubmit]
    rfl
  · intro event hmem hnone hexpired
    rw [hpass]
    change final.receipts event.digest = _
    rw [hreceipts event hmem, hnone, Option.none_or, receiptOf, if_pos hexpired]
    rfl
  · intro event hmem
    rw [failedEvents, List.mem_filter, decide_eq_true_eq] at hmem
    rw [hpass]
    change final.receipts event.digest = none
    rw [hreceipts event hmem.1, hmem.2.1.1, Option.none_or, Option.map_eq_none_iff]
    exact receiptOf_eq_none.mpr ⟨hmem.2.1.2, hmem.2.2⟩
  · intro digest hdigest
    rw [hpass]
    change final.receipts digest = receipts digest
    by_cases hmem : ∃ event ∈ outbox.events, event.digest = digest
    · obtain ⟨event, hmem, rfl⟩ := hmem
      obtain ⟨file, hfile⟩ := Option.ne_none_iff_exists'.mp (hdigest event hmem rfl)
      rw [hreceipts event hmem, hfile, Option.some_or]
    · refine hattempts.kept digest fun hdigest => hmem ?_
      obtain ⟨event, hevent, rfl⟩ := List.mem_map.mp hdigest
      exact ⟨event, hperm.mem_iff.mp hevent, rfl⟩
  · intro client' clock'
    rw [hpass]
    change (deliverPending client' clock' current outbox final.receipts).submitted.Perm _
    obtain ⟨sorted', final', hperm', -, hattempts', hpass'⟩ :=
      deliverPending_eq client' clock' current h.dated fun event hmem =>
          readable_or_receiptOf (hreceipts event hmem) (h.readable event hmem)
    rw [hpass']
    change final'.submitted.Perm _
    rw [hattempts'.submitted, List.nil_append]
    refine (hperm'.filter _).trans (.of_eq ?_)
    exact List.filter_congr fun event hmem =>
      decide_eq_decide.mpr (pending_or_receiptOf (hreceipts event hmem))

/-- **A pass does what it is for only when nothing stands in its way.** -/
theorem deliverable_of_delivers (h : Delivers client clock current outbox receipts) :
    Deliverable current outbox receipts := by
  obtain ⟨hdated, hreadable⟩ := of_outcome_eq h.outcome_eq
  obtain ⟨sorted, final, hperm, hsorted, hattempts, hpass⟩ :=
    deliverPending_eq client clock current hdated hreadable
  have hsubmitted := hattempts.submitted
  rw [List.nil_append] at hsubmitted
  have hordered := h.ordered
  rw [hpass] at hordered
  change final.submitted.Pairwise _ at hordered
  have hmem : ∀ event ∈ outbox.events, Pending receipts current event → event ∈ final.submitted := by
    intro event hmem hevent
    rw [hsubmitted, List.mem_filter, decide_eq_true_eq]
    exact ⟨hperm.mem_iff.mpr hmem, hevent⟩
  have horder : Sorted current final.submitted := by
    rw [hsubmitted]
    exact hsorted.filter _
  refine ⟨hdated, hreadable, ?_⟩
  intro event hevent hpending other hother hpending' challenge hchallenge challenge' hchallenge' hle
    deadline hdeadline later hlater
  exact deadline_le_of_ordered horder hordered (hmem event hevent hpending)
    (hmem other hother hpending') hpending.2 hpending'.2 hchallenge hchallenge' hle hdeadline hlater

end Whole

/-- **When a pass does what it is for.** -/
theorem delivers_iff (client : RelayClient sha256) (clock : RedactedEvent sha256 → Datetime)
    (current : Datetime) (outbox : EventOutbox sha256) (receipts : DeliveryReceiptStore) :
    Delivers client clock current outbox receipts ↔ Deliverable current outbox receipts :=
  ⟨deliverable_of_delivers, delivers_of_deliverable⟩

/-! ## Deadlines in different zones -/

section Zones

/-- A digest that repeats a letter of the action that an approval is for. -/
def answerSha256 : Sha256 := fun payload => Vector.replicate 32 (payload.getD 45 0)

def zeroDigest : Digest := contentDigest (fun _ => Vector.replicate 32 0) []

def zeroTargets : TargetHashes := ⟨zeroDigest, zeroDigest, zeroDigest, zeroDigest⟩

/-- 15:00 in UTC. -/
def easternDeadline : Timestamp := ⟨"2026-07-16T20:00:00+05:00", by decide +kernel⟩

def laterDeadline : Timestamp := ⟨"2026-07-16T16:00:00Z", by decide +kernel⟩

/-- 2026-07-16, 12:00. -/
def deliveryNoon : Datetime := ⟨63919800000000000, by decide⟩

/-- A challenge of which the deadline is written in a zone east of UTC. -/
def easternEvent : ProposalQuarantinedEvent answerSha256 where
  createdAt := timestamp deliveryNoon
  envelopeDigest := zeroDigest
  proposalHash := zeroDigest
  targetHashes := zeroTargets
  approval := newChallenge answerSha256 ⟨zeroDigest, zeroDigest, zeroTargets, []⟩
    (Vector.replicate 32 0) easternDeadline
  challenge_binds_event := rfl

theorem isIdentifier_campaign : isIdentifier "campaign" = true := by decide

def laterBinding : ExecutionBinding where
  candidateDigest := zeroDigest
  envelopeDigest := zeroDigest
  artifactManifestDigest := zeroDigest
  artifactDigest := zeroDigest
  artifactSizeBytes := ⟨32, by decide⟩
  validationReportDigest := zeroDigest
  canaryReportDigest := zeroDigest
  targetHashes := zeroTargets
  promotionScope := ⟨⟨"campaign", isIdentifier_campaign⟩, .nativeAiSync, .nativeStable, rfl⟩

def laterEvent : ExecutionReadyEvent answerSha256 where
  createdAt := timestamp deliveryNoon
  binding := laterBinding
  approval := newExecutionChallenge answerSha256 laterBinding (Vector.replicate 32 0) laterDeadline
  challenge_binds_execution := rfl

/-- The canonical text of an event that asks for an approval begins with the action. -/
theorem isPrefix_answer {fields : List (String × Json)} (keys : List String)
    {challenge : ApprovalChallenge} {action : String}
    (hsort : Json.python.sortKeys (fields.map Prod.fst) = "approval" :: keys)
    (hlookup : Json.lookup fields "approval" = some (challenge.toJson action))
    (haction : ("[\"" ++ action).toList <+: (Json.python.encode (.arr [.str action, .str "deny"])).toList) :
    utf8 ("\x7b\"approval\":\x7b\"allowed_actions\":[\"" ++ action) <+: canonicalJson (.obj fields) := by
  have hkeys : Json.python.sortKeys ["nonce", "human_code", "expires_at", "binding_digest",
      "allowed_actions"] = "allowed_actions" :: ["binding_digest", "expires_at", "human_code",
        "nonce"] := by decide +kernel
  have hinner : _ <+: (Json.python.encode (challenge.toJson action)).toList :=
    isPrefix_encode_obj hkeys rfl haction
  have houter := isPrefix_encode_obj hsort hlookup hinner
  have htext : "\x7b".toList ++ ((Json.python.quote "approval").toList ++ (":".toList
      ++ ("\x7b".toList ++ ((Json.python.quote "allowed_actions").toList ++ (":".toList
        ++ "[\"".toList))))) = "\x7b\"approval\":\x7b\"allowed_actions\":[\"".toList := by
    decide +kernel
  refine utf8_isPrefix ?_
  rw [String.toList_append, ← htext]
  rw [String.toList_append] at houter
  simpa only [List.append_assoc] using houter

theorem answerSha256_of_isPrefix (action : String) {payload : Bytes} {byte : UInt8}
    (h : utf8 ("\x7b\"approval\":\x7b\"allowed_actions\":[\"" ++ action) <+: payload)
    (hbyte : (utf8 ("\x7b\"approval\":\x7b\"allowed_actions\":[\"" ++ action))[45]? = some byte) :
    answerSha256 payload = Vector.replicate 32 byte := by
  obtain ⟨rest, rfl⟩ := h
  have hlt := (List.getElem?_eq_some_iff.mp hbyte).1
  rw [answerSha256, List.getD_eq_getElem?_getD, List.getElem?_append_left hlt, hbyte]
  rfl

theorem digest_easternEvent_ne :
    (.proposalQuarantined easternEvent : RedactedEvent answerSha256).digest
      ≠ (.executionReady laterEvent : RedactedEvent answerSha256).digest := by
  have heastern : answerSha256 (canonicalJson easternEvent.toJson) = Vector.replicate 32 111 := by
    refine answerSha256_of_isPrefix "approve_for_offline_validation"
      (isPrefix_answer ["created_at", "envelope_digest", "event_kind", "proposal_hash",
        "schema_version", "severity", "target_hashes"] (by decide +kernel) rfl (by decide +kernel)) ?_
    rw [utf8_eq_map (by decide)]
    rfl
  have hlater : answerSha256 (canonicalJson laterEvent.toJson) = Vector.replicate 32 108 := by
    refine answerSha256_of_isPrefix "approve_for_live_execution"
      (isPrefix_answer ["artifact_digest", "artifact_manifest_digest", "artifact_size_bytes",
        "canary_report_digest", "candidate_digest", "created_at", "envelope_digest", "event_kind",
        "promotion_scope", "schema_version", "severity", "target_hashes",
        "validation_report_digest"] (by decide +kernel) rfl (by decide +kernel)) ?_
    rw [utf8_eq_map (by decide)]
    rfl
  intro h
  have htext := congrArg Subtype.val h
  simp only [RedactedEvent.digest, RedactedEvent.toJson, jsonDigest, contentDigest, heastern,
    hlater] at htext
  exact absurd htext (by decide +kernel)

/-- An outbox with the two approvals. -/
def zonesOutbox : EventOutbox answerSha256 where
  events := [.proposalQuarantined easternEvent, .executionReady laterEvent]
  nodup_digest := by simpa using digest_easternEvent_ne

/-- A relay that accepts every event. -/
def acceptingRelay : RelayClient answerSha256 :=
  notificationRelayClient fun event => some ⟨event.digest, ⟨"receipt", by decide⟩, .accepted, by decide⟩

/-- The approval with the later deadline is submitted first. -/
theorem deadlines_not_in_order :
    ¬ Delivers acceptingRelay (fun _ => deliveryNoon) deliveryNoon zonesOutbox fun _ => none := by
  intro h
  have heastern : instantOf easternDeadline = some ⟨63919810800000000, by decide⟩ := by
    decide +kernel
  have hlater : instantOf laterDeadline = some ⟨63919814400000000, by decide⟩ := by
    decide +kernel
  have hlive : ¬ (.proposalQuarantined easternEvent : RedactedEvent answerSha256).ExpiredAt
      deliveryNoon := by
    decide +kernel
  have hlive' : ¬ (.executionReady laterEvent : RedactedEvent answerSha256).ExpiredAt
      deliveryNoon := by
    decide +kernel
  have hle := (deliverable_of_delivers h).textual (.executionReady laterEvent)
    (List.mem_cons_of_mem _ List.mem_cons_self) ⟨rfl, hlive'⟩ (.proposalQuarantined easternEvent)
    List.mem_cons_self ⟨rfl, hlive⟩ laterEvent.approval rfl easternEvent.approval rfl
    (by decide +kernel) _ hlater _ heastern
  exact absurd hle (by decide)

end Zones

end IouAi.Wire
