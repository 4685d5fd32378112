import IouAi.Relay.Operations

/-!
# Decisions under interleaved requests

Requests run one operation at a time in any order, and any statement may fail. The tables keep an
invariant (`Sound`): the decided events are those that a decision is about, and no event has two.
A handler commits a decision only on a row that it has read as pending and not over, and it answers
that the decision is recorded whenever its batch has committed.
-/

namespace IouAi.Relay

open Calendar Checks Json Threads Wire

variable {sha256 : Sha256} {hmac : Hmac} {env : Env}

/-! ## The invariant of the tables -/

/-- The texts of expiries that can be read. -/
def readExpiry (text : String) : Option ℤ := (timestampFields text).bind dateParse

structure Sound (database : Database) : Prop where
  eventDigests_nodup : (database.events.map EventRow.eventDigest).Nodup
  decisions_nodup : (database.decisions.map DecisionRow.eventDigest).Nodup
  referenced : ∀ decision ∈ database.decisions, ∃ row ∈ database.events,
    row.eventDigest = decision.eventDigest
  decided_iff : ∀ row ∈ database.events, row.state = .decided
    ↔ ∃ decision ∈ database.decisions, decision.eventDigest = row.eventDigest
  readable : ∀ row ∈ database.events, ∀ text ∈ row.expiresAt, (readExpiry text).isSome = true

/-- What the invariant looks at in a row. -/
def EventRow.core (row : EventRow) : String × Option String × EventState :=
  (row.eventDigest, row.expiresAt, row.state)

namespace Sound

variable {database database' : Database}

theorem empty : Sound .empty := by
  constructor <;> simp [Database.empty]

/-- Only the digests, the expiries and the states of the events count. -/
theorem congr (h : Sound database)
    (hevents : database'.events.map EventRow.core = database.events.map EventRow.core)
    (hdecisions : database'.decisions = database.decisions) : Sound database' := by
  have hcore : ∀ row' ∈ database'.events, ∃ row ∈ database.events, row.core = row'.core := by
    intro row' hrow'
    have hmem : row'.core ∈ database.events.map EventRow.core :=
      hevents ▸ List.mem_map_of_mem hrow'
    exact List.mem_map.mp hmem
  have hcore' : ∀ row ∈ database.events, ∃ row' ∈ database'.events, row'.core = row.core := by
    intro row hrow
    have hmem : row.core ∈ database'.events.map EventRow.core :=
      hevents ▸ List.mem_map_of_mem hrow
    exact List.mem_map.mp hmem
  have hdigests : database'.events.map EventRow.eventDigest
      = database.events.map EventRow.eventDigest := by
    have := congrArg (List.map Prod.fst) hevents
    rwa [List.map_map, List.map_map] at this
  refine ⟨hdigests ▸ h.eventDigests_nodup, hdecisions ▸ h.decisions_nodup, ?_, ?_, ?_⟩
  · intro decision hdecision
    obtain ⟨row, hrow, hdigest⟩ := h.referenced decision (hdecisions ▸ hdecision)
    obtain ⟨row', hrow', hsame⟩ := hcore' row hrow
    exact ⟨row', hrow', (congrArg Prod.fst hsame).trans hdigest⟩
  · intro row' hrow'
    obtain ⟨row, hrow, hsame⟩ := hcore row' hrow'
    have hstate : row.state = row'.state := congrArg (fun core => core.2.2) hsame
    have hdigest : row.eventDigest = row'.eventDigest := congrArg Prod.fst hsame
    rw [hdecisions, ← hstate, ← hdigest]
    exact h.decided_iff row hrow
  · intro row' hrow' text htext
    obtain ⟨row, hrow, hsame⟩ := hcore row' hrow'
    have hexpiry : row.expiresAt = row'.expiresAt := congrArg (fun core => core.2.1) hsame
    exact h.readable row hrow text (hexpiry ▸ htext)

/-- An update of other columns keeps the invariant. -/
theorem updateEvents (h : Sound database) {matching : EventRow → Bool} {set : EventRow → EventRow}
    (hset : ∀ row, (set row).core = row.core) : Sound (database.updateEvents matching set).2 := by
  refine h.congr ?_ rfl
  rw [Database.updateEvents, List.map_map]
  apply List.map_congr_left
  intro row _
  simp only [Function.comp_apply]
  split
  · exact hset row
  · rfl

theorem insertEvent (h : Sound database) {new : NewEvent} {changes : ℕ}
    (hreadable : ∀ text, bindText new.expiresAt = some (some text) → (readExpiry text).isSome = true)
    (hrun : database.insertEvent new = some (changes, database')) : Sound database' := by
  obtain ⟨row, hexpires, hdigest, hstate, hfresh, rfl⟩ := Database.insertEvent_eq_some hrun
  have hnew : ∀ other ∈ database.events, other.eventDigest ≠ row.eventDigest := by
    simpa [Database.event?, hdigest] using hfresh
  have hundecided : ∀ decision ∈ database.decisions, decision.eventDigest ≠ row.eventDigest := by
    intro decision hdecision heq
    obtain ⟨other, hother, hsame⟩ := h.referenced decision hdecision
    exact hnew other hother (hsame.trans heq)
  refine ⟨?_, h.decisions_nodup, ?_, ?_, ?_⟩
  · rw [List.map_append, List.map_singleton]
    refine List.Nodup.append h.eventDigests_nodup (List.nodup_singleton _) ?_
    simpa [List.disjoint_singleton] using hnew
  · intro decision hdecision
    obtain ⟨other, hother, hsame⟩ := h.referenced decision hdecision
    exact ⟨other, List.mem_append_left _ hother, hsame⟩
  · intro other hother
    rcases List.mem_append.mp hother with hother | hother
    · exact h.decided_iff other hother
    · rw [List.mem_singleton.mp hother, hstate]
      simpa using hundecided
  · intro other hother text htext
    rcases List.mem_append.mp hother with hother | hother
    · exact h.readable other hother text htext
    · rw [List.mem_singleton.mp hother] at htext
      exact hreadable text (hexpires.trans (congrArg some htext))

/-- The event of a decision that commits was pending, and it is the only row that changes. -/
theorem countP_pending (h : Sound database) {eventDigest : String}
    (hevent : (database.event? eventDigest).isSome = true)
    (hundecided : ∀ decision ∈ database.decisions, decision.eventDigest ≠ eventDigest) :
    (database.events.countP fun row => row.eventDigest = eventDigest && row.state = .pending) = 1 := by
  obtain ⟨row, hrow⟩ := Option.isSome_iff_exists.mp hevent
  have hmem := List.mem_of_find?_eq_some hrow
  have hdigest : row.eventDigest = eventDigest := by simpa using List.find?_some hrow
  have hpending : ∀ row ∈ database.events, row.eventDigest = eventDigest → row.state = .pending := by
    intro row hrow hdigest
    cases hstate : row.state with
    | pending => rfl
    | decided =>
      obtain ⟨decision, hdecision, hsame⟩ := (h.decided_iff row hrow).mp hstate
      exact absurd (hsame.trans hdigest) (hundecided decision hdecision)
  have hcount : (database.events.countP fun row =>
        row.eventDigest = eventDigest && row.state = .pending)
      = (database.events.map EventRow.eventDigest).count eventDigest := by
    rw [List.count, List.countP_map]
    apply List.countP_congr
    intro row hrow
    simpa using hpending row hrow
  rw [hcount]
  refine List.count_eq_one_of_mem h.eventDigests_nodup ?_
  exact List.mem_map.mpr ⟨row, hmem, hdigest⟩

theorem insertDecision (h : Sound database) {new : NewDecision} {changes : ℕ × ℕ × ℕ}
    (hrun : database.insertDecision new = some (changes, database')) :
    Sound database' ∧ changes = (1, 1, 1) := by
  obtain ⟨_, hundecided, hevent, rfl, rfl⟩ := Database.insertDecision_eq_some hrun
  have hone := h.countP_pending hevent hundecided
  refine ⟨?_, by rw [hone]⟩
  set decide : EventRow → EventRow := fun row =>
    if row.eventDigest = new.eventDigest && row.state = .pending then
      { row with state := .decided } else row
  have hdigest : ∀ row, (decide row).eventDigest = row.eventDigest := by
    intro row
    simp only [decide]
    split <;> rfl
  have hexpiry : ∀ row, (decide row).expiresAt = row.expiresAt := by
    intro row
    simp only [decide]
    split <;> rfl
  have hstate : ∀ row, (decide row).state = .decided
      ↔ row.state = .decided ∨ row.eventDigest = new.eventDigest := by
    intro row
    simp only [decide]
    split
    · rename_i hmatch
      simp_all
    · rename_i hmatch
      cases hrow : row.state <;> simp_all
  refine ⟨?_, ?_, ?_, ?_, ?_⟩
  · have : (database.events.map decide).map EventRow.eventDigest
        = database.events.map EventRow.eventDigest := by
      rw [List.map_map]
      exact List.map_congr_left fun row _ => hdigest row
    rw [this]
    exact h.eventDigests_nodup
  · rw [List.map_append, List.map_singleton]
    refine List.Nodup.append h.decisions_nodup (List.nodup_singleton _) ?_
    simpa [List.disjoint_singleton, Database.decisionRow] using hundecided
  · intro decision hdecision
    rcases List.mem_append.mp hdecision with hdecision | hdecision
    · obtain ⟨row, hrow, hsame⟩ := h.referenced decision hdecision
      exact ⟨decide row, List.mem_map_of_mem hrow, (hdigest row).trans hsame⟩
    · rw [List.mem_singleton.mp hdecision]
      obtain ⟨row, hrow⟩ := Option.isSome_iff_exists.mp hevent
      have hsame : row.eventDigest = new.eventDigest := by simpa using List.find?_some hrow
      exact ⟨decide row, List.mem_map_of_mem (List.mem_of_find?_eq_some hrow),
        (hdigest row).trans hsame⟩
  · intro row' hrow'
    obtain ⟨row, hrow, rfl⟩ := List.mem_map.mp hrow'
    rw [hstate, hdigest, h.decided_iff row hrow]
    simp [or_and_right, exists_or, Database.decisionRow, eq_comm]
  · intro row' hrow' text htext
    obtain ⟨row, hrow, rfl⟩ := List.mem_map.mp hrow'
    exact h.readable row hrow text (hexpiry row ▸ htext)

/-- A statement that commits keeps the invariant; the events that it inserts have expiries that can
be read. -/
theorem run (h : Sound database) {statement : Statement} {value : statement.Value}
    (hreadable : ∀ new, statement = .insertEvent new →
      ∀ text, bindText new.expiresAt = some (some text) → (readExpiry text).isSome = true)
    (hrun : statement.run database = some (value, database')) : Sound database' := by
  cases statement with
  | insertEvent new => exact h.insertEvent (hreadable new rfl) hrun
  | insertDecision new => exact (h.insertDecision hrun).1
  | updateDelivery eventDigest change =>
    cases hrun
    exact h.updateEvents fun row => by cases change <;> rfl
  | finalizeDelivery webhookId processedAt delivered finalStatus messageId =>
    simp only [Statement.run, Database.finalizeDelivery, bind, pure, Option.bind_eq_some_iff,
      Option.guard_eq_some'] at hrun
    obtain ⟨_, _, hrun⟩ := hrun
    cases hrun
    have hmarked : Sound (database.addWebhook webhookId processedAt) := h.congr rfl rfl
    exact hmarked.updateEvents fun row => rfl
  | countSms month attemptLimit =>
    simp only [Statement.run, Option.some.injEq] at hrun
    have hdatabase : (database.countSms month attemptLimit).2 = database' := congrArg Prod.snd hrun
    rw [← hdatabase, Database.countSms]
    split
    · exact h.congr rfl rfl
    · split
      · exact h.congr rfl rfl
      · exact h
  | insertWebhook webhookId processedAt =>
    simp only [Statement.run, Option.some.injEq] at hrun
    have hdatabase : (database.insertWebhook webhookId processedAt).2 = database' :=
      congrArg Prod.snd hrun
    rw [← hdatabase, Database.insertWebhook]
    split
    · exact h
    · exact h.congr rfl rfl
  | selectRecipient | selectEvent | selectWebhook | selectByCode | selectDecisions =>
    cases hrun
    exact h

end Sound

/-! ## Submissions and decisions -/

theorem validateLifetime_eq_ok {createdAt now : ℤ} {expiresAt : Option Json}
    {label message : String} (h : validateLifetime createdAt expiresAt now label message = .ok ()) :
    ∃ text, expiresAt = some (.str text) ∧ (readExpiry text).isSome = true := by
  obtain ⟨millis, hmillis, _⟩ := bind_eq_ok.mp h
  cases expiresAt with
  | none => cases hmillis
  | some value =>
    cases value with
    | str text =>
      refine ⟨text, rfl, ?_⟩
      simp only [timestampMillis] at hmillis
      rw [readExpiry]
      split at hmillis
      · simp_all
      · cases hmillis
    | _ => cases hmillis

theorem validateApproval_eq_ok {approval : Option Json} {positiveAction : String}
    {createdAt now : ℤ} {challenge actions label lifetime : String}
    (h : validateApproval approval positiveAction createdAt now challenge actions label lifetime
      = .ok ()) :
    ∃ text, get approval "expires_at" = some (.str text) ∧ (readExpiry text).isSome = true := by
  simp only [validateApproval, bind_eq_ok, raiseIf_eq_ok] at h
  obtain ⟨_, _, _, _, _, _, hlifetime⟩ := h
  exact validateLifetime_eq_ok hlifetime

/-- The challenge of an approval event that is valid has an expiry that can be read. -/
theorem validateEvent_expiry {event : Json} {now : ℤ} (h : validateEvent event now = .ok ())
    (happroval : isApprovalEvent event = true) :
    ∃ text, get (event.field? "approval") "expires_at" = some (.str text)
      ∧ (readExpiry text).isSome = true := by
  simp only [validateEvent, bind_eq_ok] at h
  obtain ⟨_, _, createdAt, _, h⟩ := h
  by_cases hkind : isText (event.field? "event_kind") "proposal_quarantined" = true
  · simp only [hkind, if_true, validateProposalQuarantined, bind_eq_ok] at h
    obtain ⟨_, _, _, _, _, _, h⟩ := h
    exact validateApproval_eq_ok h
  · have hready : isText (event.field? "event_kind") "execution_ready" = true := by
      simpa [isApprovalEvent, hkind] using happroval
    rw [if_neg hkind, if_pos hready] at h
    simp only [validateExecutionReady, bind_eq_ok] at h
    obtain ⟨_, _, _, _, _, _, _, _, _, _, h⟩ := h
    exact validateApproval_eq_ok h

/-- The row that a submission inserts has an expiry that can be read, if any. -/
theorem readSubmission_expiry {now : ℤ} {body : Option Json} {submission : Submission}
    (h : readSubmission sha256 now body = .ok submission) (createdAt : Datetime) (text : String)
    (htext : bindText (newEvent submission createdAt).expiresAt = some (some text)) :
    (readExpiry text).isSome = true := by
  have hvalid : validateEvent submission.event now = .ok () := by
    cases body with
    | none => cases h
    | some body =>
      simp only [readSubmission, bind_eq_ok, pure_eq_ok] at h
      obtain ⟨_, _, _, _, _, hvalid, _, _, _, _, _, _, _, _, rfl⟩ := h
      exact hvalid
  simp only [newEvent, newEvent.approvalField] at htext
  split at htext
  · rename_i happroval
    obtain ⟨expiry, hexpiry, hread⟩ := validateEvent_expiry hvalid happroval
    rw [hexpiry] at htext
    cases htext
    exact hread
  · cases htext

/-- The commands that decide an event of its kind. -/
def commandsFor (event : Json) : List Command :=
  if isText (event.field? "event_kind") "proposal_quarantined" then [.approve, .deny]
  else if isText (event.field? "event_kind") "execution_ready" then [.execute, .deny]
  else []

theorem decisionForEvent_command {event : Json} {eventDigest : String} {options : DecisionOptions}
    {fields : List (String × Option Json)}
    (h : decisionForEvent event eventDigest options = .ok fields) :
    options.command ∈ commandsFor event := by
  simp only [decisionForEvent, bind_eq_ok, raiseIf_eq_ok] at h
  obtain ⟨_, happroval, _, hmatches, _⟩ := h
  cases hcommand : options.command with
  | approve | execute | deny =>
    rw [hcommand] at hmatches
    simp only [commandsFor, commandMatches, isApprovalEvent] at happroval hmatches ⊢
    split
    · simp_all
    · simp_all

/-! ## Guards -/

abbrev RelayEntry := Entry RelayState Op Op.Result

/-- The entry of a batch that has committed. -/
def committed (s : RelayState) (new : NewDecision) (changes : ℕ × ℕ × ℕ) : RelayEntry :=
  ⟨s, .query (.insertDecision new), some changes⟩

/-- A decision that is made from a row that was pending and not over when it was read, by a command
for its kind. -/
structure MadeFrom (hmac : Hmac) (env : Env) (entries : Set RelayEntry) (new : NewDecision)
    (s : RelayState) (row : EventRow) : Prop where
  read : ∃ code, (⟨s, .query (.selectByCode code), some (some row)⟩ : RelayEntry) ∈ entries
  stored : row ∈ s.database.events
  pending : row.state = .pending
  unexpired : ∃ text ∈ row.expiresAt, ∃ millis ∈ readExpiry text, unixMillis s.clock ≤ millis
  eventDigest : new.eventDigest = row.eventDigest
  decided : ∃ options fields decision, options.command ∈ commandsFor row.event
    ∧ decisionForEvent row.event row.eventDigest options = .ok fields ∧ object fields = .ok decision
    ∧ new.signed = signedDecision hmac env.hmacKey decision

theorem MadeFrom.mono {entries entries' : Set RelayEntry} {new : NewDecision} {s : RelayState}
    {row : EventRow} (h : MadeFrom hmac env entries new s row) (hsub : entries ⊆ entries') :
    MadeFrom hmac env entries' new s row :=
  ⟨h.read.imp fun _ hread => hsub hread, h.stored, h.pending, h.unexpired, h.eventDigest, h.decided⟩

/-- What the trace of a handler must show before a statement. -/
def guard (hmac : Hmac) (env : Env) (trace : List RelayEntry) (_ : RelayState) : Op → Prop
  | .query (.insertEvent new) =>
    ∀ text, bindText new.expiresAt = some (some text) → (readExpiry text).isSome = true
  | .query (.insertDecision new) =>
    ∃ s row, MadeFrom hmac env {entry | entry ∈ trace} new s row
  | _ => True

theorem exec_sound {trace : List RelayEntry} {s s' : RelayState} {op : Op} {outcome : op.Result}
    (h : Sound s.database) (hguard : guard hmac env trace s op) (hexec : Exec s op outcome s') :
    Sound s'.database := by
  cases hexec with
  | now | abort | send | answerCallback => exact h
  | @commit statement value database hrun =>
    refine h.run ?_ hrun
    rintro new rfl
    exact hguard

theorem exec_clock {s s' : RelayState} {op : Op} {outcome : op.Result}
    (hexec : Exec s op outcome s') : s'.clock = s.clock := by
  cases hexec <;> rfl

/-- The discipline of the relay: the clock does not go back. -/
def discipline (hmac : Hmac) (env : Env) : Discipline semantics where
  Inv s := Sound s.database
  le s s' := s.clock.micros ≤ s'.clock.micros
  guard := guard hmac env
  le_refl _ := le_rfl
  le_trans := le_trans
  exec_inv := exec_sound
  exec_le _ _ hexec := (exec_clock hexec).symm ▸ le_rfl
  env_inv := by
    intro s s' h hmove
    cases hmove with
    | wait => exact h
    | pair => exact h.congr rfl rfl
  env_le := by
    intro s s' _ hmove
    cases hmove with
    | wait hclock => exact hclock
    | pair => exact le_rfl

/-! ## Handlers that decide nothing -/

/-- The operations that need no guard and commit no decision. -/
def isPlain : Op → Bool
  | .query (.insertEvent _) | .query (.insertDecision _) => false
  | _ => true

abbrev Plain {α : Type} (program : RelayProgram α) : Prop := program.Only fun op => isPlain op = true

/-- The operations that besides leave the delivery of events alone. -/
def isQuiet : Op → Bool
  | .query (.insertEvent _) | .query (.insertDecision _) | .query (.updateDelivery _ _)
  | .query (.countSms _ _) | .send _ _ => false
  | _ => true

abbrev Quiet {α : Type} (program : RelayProgram α) : Prop := program.Only fun op => isQuiet op = true

theorem isPlain_of_isQuiet {op : Op} (h : isQuiet op = true) : isPlain op = true := by
  cases op with
  | query statement =>
    cases statement with
    | insertEvent | insertDecision => cases h
    | _ => rfl
  | now | send | answerCallback => rfl

theorem Quiet.plain {α : Type} {program : RelayProgram α} (h : Quiet program) : Plain program :=
  h.mono fun _ => isPlain_of_isQuiet

theorem allowsReads_quiet : AllowsReads fun op => isQuiet op = true where
  now := rfl
  select statement h := by cases statement <;> first | rfl | cases h
  webhook _ _ := rfl
  answer _ _ := rfl

theorem quiet_telegramRecipient : Quiet (telegramRecipient env) :=
  only_telegramRecipient allowsReads_quiet

theorem quiet_deliveryReady : Quiet (deliveryReady env) := only_deliveryReady allowsReads_quiet

theorem quiet_answer {callbackId : Option Json} {text : String} {showAlert : Bool} :
    Quiet (answerTelegramCallback callbackId text showAlert) :=
  only_answerTelegramCallback allowsReads_quiet

theorem quiet_recordIgnoredWebhook {webhookId status : String} :
    Quiet (recordIgnoredWebhook webhookId status) := only_recordIgnoredWebhook allowsReads_quiet

theorem quiet_recordFinalizedWebhook {webhookId : String} {payload : Option Json} :
    Quiet (recordFinalizedWebhook webhookId payload) :=
  only_recordFinalizedWebhook allowsReads_quiet fun _ _ _ _ _ => rfl

theorem plain_updateOnce {eventDigest : String} {change : DeliveryChange} :
    Plain (updateOnce eventDigest change) := by
  refine ⟨rfl, fun outcome => ?_⟩
  cases outcome <;> exact trivial

/-- Either of two replies after an update. -/
theorem plain_ite {program : RelayProgram Bool} {reply reply' : Reply} (h : Plain program) :
    Plain (do if ← program then return reply else return reply') := by
  refine h.bind fun success => ?_
  cases success <;> exact trivial

theorem plain_sendDelivery {event : Json} {text : String} : Plain (sendDelivery env event text) := by
  unfold sendDelivery
  split
  · refine (Quiet.plain quiet_telegramRecipient).bind fun recipient => ?_
    cases recipient with
    | none => exact trivial
    | some _ => exact ⟨rfl, fun _ => trivial⟩
  · exact ⟨rfl, fun _ => trivial⟩

theorem plain_deliverCounted {submission : Submission} {accepted : Reply} :
    Plain (deliverCounted env submission accepted) := by
  refine plain_sendDelivery.bind fun delivery => ?_
  cases delivery with
  | accepted id => exact plain_ite plain_updateOnce
  | rejected => exact plain_ite plain_updateOnce
  | uncertain => exact trivial

theorem plain_deliverClaimed {submission : Submission} {accepted : Reply} :
    Plain (deliverClaimed env submission accepted) := by
  refine ⟨rfl, fun _ => ⟨rfl, fun outcome => ?_⟩⟩
  cases outcome with
  | none => exact ⟨rfl, fun _ => trivial⟩
  | some changes =>
    change Plain (if changes ≠ 1 then _ else _)
    split
    · exact plain_ite plain_updateOnce
    · exact plain_deliverCounted

theorem plain_deliver {submission : Submission} {prior : Option EventRow} :
    Plain (deliver env submission prior) := by
  unfold deliver
  simp only
  split
  · exact trivial
  · split
    · exact plain_ite plain_updateOnce
    · refine ⟨rfl, fun _ => ⟨rfl, fun outcome => ?_⟩⟩
      cases outcome with
      | none => exact trivial
      | some changes =>
        change Plain (if changes ≠ 1 then _ else _)
        split
        · exact trivial
        · exact plain_deliverClaimed

theorem quiet_listDecisions {authorization after : String} :
    Quiet (listDecisions sha256 env authorization after) := only_listDecisions allowsReads_quiet

/-! ## Handlers that decide -/

/-- No batch of a decision has committed. -/
def Undecided (trace : List RelayEntry) : Prop :=
  ∀ s new changes, committed s new changes ∉ trace

/-- A handler that has committed a decision answers so. -/
def Answered (reply : Reply) (trace : List RelayEntry) : Prop :=
  Undecided trace ∨ reply = statusReply "decision_recorded"

variable {trace : List RelayEntry} {s : RelayState}

theorem guard_of_isPlain (trace : List RelayEntry) (s : RelayState) {op : Op}
    (h : isPlain op = true) : guard hmac env trace s op := by
  cases op with
  | query statement =>
    cases statement with
    | insertEvent | insertDecision => cases h
    | _ => trivial
  | now | send | answerCallback => trivial

theorem Undecided.append {entry : RelayEntry} (h : Undecided trace)
    (hentry : ∀ s new changes, entry ≠ committed s new changes) : Undecided (trace ++ [entry]) := by
  intro s new changes hmem
  rcases List.mem_append.mp hmem with hmem | hmem
  · exact h s new changes hmem
  · exact hentry s new changes (List.mem_singleton.mp hmem).symm

theorem ne_committed_of_isPlain {entry : RelayEntry} (h : isPlain entry.op = true) (s : RelayState)
    (new : NewDecision) (changes : ℕ × ℕ × ℕ) : entry ≠ committed s new changes := by
  rintro rfl
  cases h

theorem safe_undecided {α : Type} {program : RelayProgram α} (h : Plain program)
    (hundecided : Undecided trace) :
    Safe (discipline hmac env) (fun _ trace => Undecided trace) program trace s := by
  refine Safe.of_only (fun trace s _ => guard_of_isPlain trace s) ?_ h
  intro _ trace' htrace s new changes hmem
  rcases htrace _ hmem with hold | hplain
  · exact hundecided s new changes hold
  · cases hplain

/-- A handler that ends with a program that decides nothing. -/
theorem safe_plain {program : RelayProgram Reply} (h : Plain program)
    (hundecided : Undecided trace) :
    Safe (discipline hmac env) Answered program trace s := by
  rw [← Program.bind_done program]
  exact (safe_undecided h hundecided).bind fun _ _ _ hundecided => .inl hundecided

theorem safe_call {op : Op} {next : op.Result → RelayProgram Reply} (hop : isPlain op = true)
    (hundecided : Undecided trace)
    (hnext : ∀ s₁ outcome s₂, s.clock.micros ≤ s₁.clock.micros → Sound s₁.database →
      Exec s₁ op outcome s₂ → Undecided (trace ++ [⟨s₁, op, outcome⟩]) →
      Safe (discipline hmac env) Answered (next outcome) (trace ++ [⟨s₁, op, outcome⟩]) s₂) :
    Safe (discipline hmac env) Answered (.call op next) trace s := by
  refine Safe.call (fun s₁ _ _ => guard_of_isPlain _ s₁ hop) fun s₁ outcome s₂ hinv hle hexec => ?_
  exact hnext s₁ outcome s₂ hle hinv hexec (hundecided.append (ne_committed_of_isPlain hop))

theorem exec_query {s s' : RelayState} {statement : Statement} {outcome : Option statement.Value}
    (h : Exec s (.query statement) outcome s') :
    outcome = none ∨ ∃ value database, outcome = some value
      ∧ statement.run s.database = some (value, database) ∧ s' = ⟨database, s.clock⟩ := by
  cases h with
  | commit hrun => exact .inr ⟨_, _, rfl, hrun, rfl⟩
  | abort => exact .inl rfl

theorem exec_now {s s' : RelayState} {instant : Datetime} (h : Exec s .now instant s') :
    instant = s.clock ∧ s' = s := by
  cases h
  exact ⟨rfl, rfl⟩

theorem unixMillis_mono {instant other : Datetime} (h : instant.micros ≤ other.micros) :
    unixMillis instant ≤ unixMillis other := by
  simp only [unixMillis]
  omega

/-- The batch of a decision commits on exactly one row, and the handler answers so. -/
theorem safe_storeDecision {answer : Answer} (hanswer : ∀ text showAlert, Plain (answer text showAlert))
    {recorded : String} {new : NewDecision} (hundecided : Undecided trace)
    (hmade : ∃ s row, MadeFrom hmac env {entry | entry ∈ trace} new s row) :
    Safe (discipline hmac env) Answered (storeDecision answer recorded new) trace s := by
  refine Safe.call (fun _ _ _ => hmade) fun s₁ outcome s₂ hinv hle hexec => ?_
  rcases exec_query hexec with rfl | ⟨changes, database, rfl, hrun, rfl⟩
  · -- the batch has not committed
    have hundecided : Undecided (trace ++ [⟨s₁, .query (.insertDecision new), none⟩]) := by
      refine hundecided.append fun s new' changes heq => ?_
      cases heq
    refine safe_call rfl hundecided fun s₃ replay s₄ _ _ _ hundecided => ?_
    refine safe_plain ?_ hundecided
    match replay with
    | none | some false => exact (hanswer _ _).bind fun _ => trivial
    | some true => exact (hanswer _ _).bind fun _ => trivial
  · have hone := (hinv.insertDecision hrun).2
    subst hone
    have hplain : Safe (discipline hmac env) (fun _ _ => True) (answer recorded false)
        (trace ++ [⟨s₁, .query (.insertDecision new), some (1, 1, 1)⟩]) ⟨database, s₁.clock⟩ :=
      Safe.of_only (fun trace s _ => guard_of_isPlain trace s) (fun _ _ _ => trivial) (hanswer _ _)
    exact hplain.bind fun _ _ _ _ => Or.inr rfl

theorem eventByCode?_mem {database : Database} {code : String} {row : EventRow}
    (h : database.eventByCode? code = some row) : row ∈ database.events :=
  List.mem_of_find?_eq_some h

/-- A row that is open was pending and not over when it was read, which was before. -/
theorem isOpen_eq_true {row : EventRow} {now : ℤ} {database : Database} (h : Sound database)
    (hrow : row ∈ database.events) (hopen : isOpen row now = true) :
    row.state = .pending ∧ ∃ text ∈ row.expiresAt, ∃ millis ∈ readExpiry text, now ≤ millis := by
  simp only [isOpen, Bool.and_eq_true, decide_eq_true_eq, Option.any_eq_true] at hopen
  obtain ⟨hpending, text, htext, _, hover⟩ := hopen
  obtain ⟨millis, hmillis⟩ := Option.isSome_iff_exists.mp (h.readable row hrow text htext)
  refine ⟨hpending, text, htext, millis, hmillis, ?_⟩
  change (timestampFields text).bind dateParse = some millis at hmillis
  rw [hmillis] at hover
  simpa using hover

/-- A command decides an event only from a row that may be decided. -/
theorem safe_decide {answer : Answer} (hanswer : ∀ text showAlert, Plain (answer text showAlert))
    {recorded : Command → String} {webhookId : String} {channel : Channel} {command : Command}
    {code sender : String} (hundecided : Undecided trace) :
    Safe (discipline hmac env) Answered
      (decide sha256 hmac env answer recorded webhookId channel command code sender) trace s := by
  have hignored : ∀ {status text : String}, Plain (do
      let reply ← recordIgnoredWebhook webhookId status
      answer text true
      return reply) := fun {status text} =>
    (Quiet.plain quiet_recordIgnoredWebhook).bind fun reply =>
      (hanswer text true).bind fun _ => trivial
  refine safe_call rfl hundecided fun s₁ outcome s₂ _ hsound hselect hundecided => ?_
  rcases exec_query hselect with rfl | ⟨found, database, rfl, hrun, rfl⟩
  · exact .inl hundecided
  cases hrun
  refine safe_call rfl hundecided fun s₃ instant s₄ hclock hsound₃ hnow hundecided => ?_
  obtain ⟨rfl, rfl⟩ := exec_now hnow
  dsimp only [Program.bind]
  split
  · exact safe_plain hignored hundecided
  · rename_i row hrow
    obtain ⟨hfound, hopen⟩ := Option.filter_eq_some_iff.mp hrow
    have hstored := eventByCode?_mem hfound
    obtain ⟨hpending, text, htext, millis, hmillis, hover⟩ := isOpen_eq_true hsound hstored hopen
    refine safe_call rfl hundecided fun s₅ issuedAt s₆ _ _ _ hundecided => ?_
    dsimp only [Program.bind]
    split
    · exact safe_plain hignored hundecided
    · rename_i fields hfields
      split
      · exact .inl hundecided
      · rename_i decision hdecision
        refine safe_storeDecision hanswer hundecided ⟨s₁, row, ⟨code, ?_⟩, hstored, hpending,
          ⟨text, htext, millis, hmillis, (unixMillis_mono hclock).trans hover⟩, rfl,
          _, fields, decision, decisionForEvent_command hfields, hfields, hdecision, rfl⟩
        rw [← hfound]
        simp

/-- A handler that first asks whether the relay is ready. -/
theorem safe_ready {next : Bool → RelayProgram Reply} (hundecided : Undecided trace)
    (hnext : ∀ ready trace s, Undecided trace → Safe (discipline hmac env) Answered (next ready)
      trace s) : Safe (discipline hmac env) Answered (deliveryReady env >>= next) trace s :=
  (safe_undecided (Quiet.plain quiet_deliveryReady) hundecided).bind hnext

theorem safe_acceptEvent {authorization : String} {body : Option Json}
    (hundecided : Undecided trace) : Safe (discipline hmac env) Answered
      (acceptEvent sha256 env authorization body) trace s := by
  unfold acceptEvent
  split
  · exact .inl hundecided
  refine safe_ready hundecided fun ready trace s hundecided => ?_
  cases ready with
  | false => exact .inl hundecided
  | true =>
    refine safe_call rfl hundecided fun s₁ instant s₂ _ _ _ hundecided => ?_
    dsimp only [Program.bind]
    split
    · exact .inl hundecided
    · rename_i submission hsubmission
      refine safe_call rfl hundecided fun s₃ outcome s₄ _ _ _ hundecided => ?_
      match outcome with
      | none => exact .inl hundecided
      | some (some prior) =>
        change Safe _ _ (if _ then _ else _) _ _
        split
        · exact .inl hundecided
        · exact safe_plain plain_deliver hundecided
      | some none =>
        refine safe_call rfl hundecided fun s₅ createdAt s₆ _ _ _ hundecided => ?_
        refine Safe.call (fun s₇ _ _ => ?_) fun s₇ inserted s₈ _ _ _ => ?_
        · exact readSubmission_expiry hsubmission createdAt
        · have hundecided : Undecided (_ ++
              [⟨s₇, .query (.insertEvent (newEvent submission createdAt)), inserted⟩]) :=
            hundecided.append fun s new changes heq => by cases heq
          cases inserted with
          | none => exact .inl hundecided
          | some changes =>
            change Safe _ _ (deliver env submission none) _ _
            exact safe_plain plain_deliver hundecided

theorem safe_receiveTelnyx {verified : Bool} {body : Option Json} (hundecided : Undecided trace) :
    Safe (discipline hmac env) Answered (receiveTelnyx sha256 hmac env verified body) trace s := by
  unfold receiveTelnyx
  split
  · exact .inl hundecided
  refine safe_ready hundecided fun ready trace s hundecided => ?_
  split
  · exact .inl hundecided
  split
  · exact .inl hundecided
  simp only
  split
  · split
    · exact .inl hundecided
    · refine safe_call rfl hundecided fun s₁ replay s₂ _ _ _ hundecided => ?_
      match replay with
      | none | some true => exact .inl hundecided
      | some false =>
        change Safe _ _ (if _ then _ else _) _ _
        split
        · exact safe_plain (Quiet.plain quiet_recordFinalizedWebhook) hundecided
        split
        · exact safe_plain (Quiet.plain quiet_recordIgnoredWebhook) hundecided
        split
        · exact safe_plain (Quiet.plain quiet_recordIgnoredWebhook) hundecided
        split
        · exact safe_plain (Quiet.plain quiet_recordIgnoredWebhook) hundecided
        · have hanswer : ∀ text showAlert, Plain (noAnswer text showAlert) := fun _ _ => trivial
          exact safe_decide hanswer hundecided
  · exact .inl hundecided

theorem safe_receiveTelegram {webhookSecret : String} {body : Option Json}
    (hundecided : Undecided trace) : Safe (discipline hmac env) Answered
      (receiveTelegram sha256 hmac env webhookSecret body) trace s := by
  have hignore : ∀ {callbackId : Option Json} {webhookId : String},
      Plain (receiveTelegram.ignore (answerTelegramCallback callbackId) webhookId) :=
    Quiet.plain (quiet_recordIgnoredWebhook.bind fun reply => quiet_answer.bind fun _ => trivial)
  unfold receiveTelegram
  split
  · exact .inl hundecided
  refine safe_ready hundecided fun ready trace s hundecided => ?_
  split
  · exact .inl hundecided
  split
  · exact .inl hundecided
  split
  · exact .inl hundecided
  simp only
  refine safe_call rfl hundecided fun s₁ replay s₂ _ _ _ hundecided => ?_
  match replay with
  | none => exact .inl hundecided
  | some true => exact safe_plain (Quiet.plain (quiet_answer.bind fun _ => trivial)) hundecided
  | some false =>
    refine (safe_undecided (Quiet.plain quiet_telegramRecipient) hundecided).bind
      fun paired trace s hundecided => ?_
    split
    · split
      · exact safe_plain hignore hundecided
      · exact safe_decide (fun _ _ => Quiet.plain quiet_answer) hundecided
    · exact safe_plain hignore hundecided

/-- Every handler meets its guards, whatever the other requests do. -/
theorem safe_handle (request : Request) (s : RelayState) :
    Safe (discipline hmac env) Answered (handle sha256 hmac env request) [] s := by
  have hundecided : Undecided [] := fun _ _ _ => List.not_mem_nil
  cases request with
  | event => exact safe_acceptEvent hundecided
  | telnyx => exact safe_receiveTelnyx hundecided
  | telegram => exact safe_receiveTelegram hundecided
  | decisions => exact safe_plain (Quiet.plain quiet_listDecisions) hundecided

/-! ## Runs -/

/-- The tables of webhooks and decisions only grow. -/
structure Grows (database database' : Database) : Prop where
  webhooks : ∀ webhookId, database.hasWebhook webhookId = true →
    database'.hasWebhook webhookId = true
  decisions : ∀ decision ∈ database.decisions, decision ∈ database'.decisions

theorem Grows.of_eq {database database' : Database}
    (hwebhooks : database'.webhookEvents = database.webhookEvents)
    (hdecisions : database'.decisions = database.decisions) : Grows database database' := by
  refine ⟨fun webhookId h => ?_, fun decision h => hdecisions ▸ h⟩
  rwa [Database.hasWebhook, hwebhooks]

theorem hasWebhook_addWebhook (database : Database) (webhookId processedAt other : String) :
    (database.addWebhook webhookId processedAt).hasWebhook other
      = (database.hasWebhook other || Decidable.decide (webhookId = other)) := by
  simp [Database.addWebhook, Database.hasWebhook]

theorem Grows.addWebhook (database : Database) (webhookId processedAt : String) :
    Grows database (database.addWebhook webhookId processedAt) := by
  refine ⟨fun other h => ?_, fun decision h => h⟩
  rw [hasWebhook_addWebhook, h, Bool.true_or]

theorem grows_run {database database' : Database} {statement : Statement}
    {value : statement.Value} (h : statement.run database = some (value, database')) :
    Grows database database' := by
  cases statement with
  | insertEvent new =>
    obtain ⟨row, _, _, _, _, rfl⟩ := Database.insertEvent_eq_some h
    exact .of_eq rfl rfl
  | insertDecision new =>
    obtain ⟨_, _, _, _, rfl⟩ := Database.insertDecision_eq_some h
    refine ⟨(Grows.addWebhook database new.webhookId new.decidedAt).webhooks, ?_⟩
    exact fun decision hdecision => List.mem_append_left _ hdecision
  | finalizeDelivery webhookId processedAt delivered finalStatus messageId =>
    simp only [Statement.run, Database.finalizeDelivery, bind, pure, Option.bind_eq_some_iff,
      Option.guard_eq_some'] at h
    obtain ⟨_, _, h⟩ := h
    cases h
    have hmarked := Grows.addWebhook database webhookId processedAt
    exact ⟨hmarked.webhooks, hmarked.decisions⟩
  | countSms month attemptLimit =>
    have hdatabase : (database.countSms month attemptLimit).2 = database' :=
      congrArg Prod.snd (Option.some.inj h)
    rw [← hdatabase, Database.countSms]
    split
    · exact .of_eq rfl rfl
    · split <;> exact .of_eq rfl rfl
  | insertWebhook webhookId processedAt =>
    have hdatabase : (database.insertWebhook webhookId processedAt).2 = database' :=
      congrArg Prod.snd (Option.some.inj h)
    rw [← hdatabase, Database.insertWebhook]
    split
    · exact .of_eq rfl rfl
    · exact .addWebhook database webhookId processedAt
  | updateDelivery | selectRecipient | selectEvent | selectWebhook | selectByCode
    | selectDecisions =>
    cases h
    exact .of_eq rfl rfl

theorem grows_exec {s s' : RelayState} {op : Op} {outcome : op.Result}
    (h : Exec s op outcome s') : Grows s.database s'.database := by
  cases h with
  | commit hrun => exact grows_run hrun
  | now | abort | send | answerCallback => exact .of_eq rfl rfl

/-- What the entries of all requests say about the decisions. -/
structure Recorded (hmac : Hmac) (env : Env) (s : RelayState) (entries : Set RelayEntry) : Prop where
  made : ∀ decision ∈ s.database.decisions, ∃ s₀ new changes, committed s₀ new changes ∈ entries
    ∧ decision = s₀.database.decisionRow new ∧ ∃ s₁ row, MadeFrom hmac env entries new s₁ row
  marked : ∀ s₀ new changes, committed s₀ new changes ∈ entries →
    s₀.database.hasWebhook new.webhookId = false ∧ s.database.hasWebhook new.webhookId = true
  once : ∀ s₀ new changes s₁ new' changes', committed s₀ new changes ∈ entries →
    committed s₁ new' changes' ∈ entries → new.webhookId = new'.webhookId →
    s₀.database.decisionRow new = s₁.database.decisionRow new'

/-- An operation other than a batch that commits adds no decision. -/
theorem decisions_of_ne_committed {s s' : RelayState} {op : Op} {outcome : op.Result}
    (hexec : Exec s op outcome s') (hne : ∀ s₀ new changes,
      (⟨s, op, outcome⟩ : RelayEntry) ≠ committed s₀ new changes) :
    s'.database.decisions = s.database.decisions := by
  cases hexec with
  | now | abort | send | answerCallback => rfl
  | @commit statement value database hrun =>
    cases statement with
    | insertDecision new => exact absurd rfl (hne s new value)
    | insertEvent new =>
      obtain ⟨row, _, _, _, _, rfl⟩ := Database.insertEvent_eq_some hrun
      rfl
    | finalizeDelivery webhookId processedAt delivered finalStatus messageId =>
      simp only [Statement.run, Database.finalizeDelivery, bind, pure, Option.bind_eq_some_iff,
        Option.guard_eq_some'] at hrun
      obtain ⟨_, _, hrun⟩ := hrun
      cases hrun
      rfl
    | countSms month attemptLimit =>
      have hdatabase : (s.database.countSms month attemptLimit).2 = database :=
        congrArg Prod.snd (Option.some.inj hrun)
      rw [← hdatabase, Database.countSms]
      split
      · rfl
      · split <;> rfl
    | insertWebhook webhookId processedAt =>
      have hdatabase : (s.database.insertWebhook webhookId processedAt).2 = database :=
        congrArg Prod.snd (Option.some.inj hrun)
      rw [← hdatabase, Database.insertWebhook]
      split <;> rfl
    | updateDelivery | selectRecipient | selectEvent | selectWebhook | selectByCode
      | selectDecisions =>
      cases hrun
      rfl

theorem Recorded.exec {s s' : RelayState} {entries : Set RelayEntry} {trace : List RelayEntry}
    {op : Op} {outcome : op.Result} (h : Recorded hmac env s entries)
    (htrace : ∀ entry ∈ trace, entry ∈ entries) (hguard : guard hmac env trace s op)
    (hexec : Exec s op outcome s') : Recorded hmac env s' (insert ⟨s, op, outcome⟩ entries) := by
  have hgrows := grows_exec hexec
  have hsub : entries ⊆ insert ⟨s, op, outcome⟩ entries := Set.subset_insert _ _
  have hkept : ∀ decision ∈ s.database.decisions, ∃ s₀ new changes,
      committed s₀ new changes ∈ insert (⟨s, op, outcome⟩ : RelayEntry) entries
        ∧ decision = s₀.database.decisionRow new
        ∧ ∃ s₁ row, MadeFrom hmac env (insert ⟨s, op, outcome⟩ entries) new s₁ row := by
    intro decision hdecision
    obtain ⟨s₀, new, changes, hentry, hrow, s₁, row, hmade⟩ := h.made decision hdecision
    exact ⟨s₀, new, changes, hsub hentry, hrow, s₁, row, hmade.mono hsub⟩
  by_cases hcommit : ∃ s₀ new changes, (⟨s, op, outcome⟩ : RelayEntry) = committed s₀ new changes
  · obtain ⟨_, new, changes, heq⟩ := hcommit
    cases heq
    rcases exec_query hexec with hnone | ⟨_, database, hsome, hrun, rfl⟩
    · cases hnone
    cases hsome
    obtain ⟨hfresh, _, _, _, rfl⟩ := Database.insertDecision_eq_some hrun
    obtain ⟨s₁, row, hmade⟩ := hguard
    have hmarked : (s.database.addWebhook new.webhookId new.decidedAt).hasWebhook new.webhookId
        = true := by
      rw [hasWebhook_addWebhook]
      simp
    refine ⟨?_, ?_, ?_⟩
    · intro decision hdecision
      rcases List.mem_append.mp hdecision with hdecision | hdecision
      · exact hkept decision hdecision
      · rw [List.mem_singleton.mp hdecision]
        exact ⟨s, new, changes, Set.mem_insert _ _, rfl, s₁, row,
          hmade.mono fun entry hentry => hsub (htrace entry hentry)⟩
    · intro s₀ new' changes' hentry
      rcases Set.mem_insert_iff.mp hentry with heq | hentry
      · cases heq
        exact ⟨hfresh, hmarked⟩
      · obtain ⟨hbefore, hafter⟩ := h.marked s₀ new' changes' hentry
        exact ⟨hbefore, hgrows.webhooks _ hafter⟩
    · -- an older batch has marked its webhook, so the identifiers differ
      have hother : ∀ s₀ new' changes', committed s₀ new' changes' ∈ entries →
          new'.webhookId ≠ new.webhookId := by
        intro s₀ new' changes' hentry heq
        have hafter := (h.marked s₀ new' changes' hentry).2
        rw [heq, hfresh] at hafter
        cases hafter
      intro s₀ new₀ changes₀ s₁ new₁ changes₁ hentry₀ hentry₁ hsame
      rcases Set.mem_insert_iff.mp hentry₀ with heq₀ | hentry₀
      · rcases Set.mem_insert_iff.mp hentry₁ with heq₁ | hentry₁
        · cases heq₀
          cases heq₁
          rfl
        · cases heq₀
          exact absurd hsame.symm (hother s₁ new₁ changes₁ hentry₁)
      · rcases Set.mem_insert_iff.mp hentry₁ with heq₁ | hentry₁
        · cases heq₁
          exact absurd hsame (hother s₀ new₀ changes₀ hentry₀)
        · exact h.once s₀ new₀ changes₀ s₁ new₁ changes₁ hentry₀ hentry₁ hsame
  · have hne : ∀ s₀ new changes, (⟨s, op, outcome⟩ : RelayEntry) ≠ committed s₀ new changes :=
      fun s₀ new changes heq => hcommit ⟨s₀, new, changes, heq⟩
    have hold : ∀ {s₀ new changes},
        committed s₀ new changes ∈ insert (⟨s, op, outcome⟩ : RelayEntry) entries →
          committed s₀ new changes ∈ entries := by
      intro s₀ new changes hentry
      rcases Set.mem_insert_iff.mp hentry with heq | hentry
      · exact absurd heq.symm (hne s₀ new changes)
      · exact hentry
    refine ⟨?_, ?_, ?_⟩
    · rw [decisions_of_ne_committed hexec hne]
      exact hkept
    · intro s₀ new changes hentry
      obtain ⟨hbefore, hafter⟩ := h.marked s₀ new changes (hold hentry)
      exact ⟨hbefore, hgrows.webhooks _ hafter⟩
    · intro s₀ new₀ changes₀ s₁ new₁ changes₁ hentry₀ hentry₁ hsame
      exact h.once s₀ new₀ changes₀ s₁ new₁ changes₁ (hold hentry₀) (hold hentry₁) hsame

/-- A program that a request starts. -/
def Starts (sha256 : Sha256) (hmac : Hmac) (env : Env) (program : RelayProgram Reply) : Prop :=
  ∃ request, program = handle sha256 hmac env request

abbrev RelaySystem := System RelayState Op Op.Result Reply

/-- The systems that the relay reaches from its empty tables. -/
def RelayReachable (sha256 : Sha256) (hmac : Hmac) (env : Env) (sys : RelaySystem) : Prop :=
  ∃ clock, Relation.ReflTransGen (System.Step semantics (Starts sha256 hmac env))
    ⟨⟨.empty, clock⟩, []⟩ sys

theorem RelayReachable.sound {sys : RelaySystem} (h : RelayReachable sha256 hmac env sys) :
    System.Sound (discipline hmac env) Answered (Recorded hmac env) sys := by
  obtain ⟨clock, h⟩ := h
  have hempty : Recorded hmac env ⟨.empty, clock⟩ ∅ :=
    ⟨fun _ hdecision => absurd hdecision List.not_mem_nil,
      fun _ _ _ hentry => absurd hentry (Set.notMem_empty _),
      fun _ _ _ _ _ _ hentry => absurd hentry (Set.notMem_empty _)⟩
  refine System.reachable Sound.empty hempty ?_ ?_ ?_ h
  · rintro program ⟨request, rfl⟩ s _
    exact safe_handle request s
  · intro s entries trace op outcome s' _ hrecorded htrace hguard hexec
    exact hrecorded.exec htrace hguard hexec
  · intro s entries s' _ hrecorded hmove
    cases hmove with
    | wait => exact ⟨hrecorded.made, hrecorded.marked, hrecorded.once⟩
    | pair => exact ⟨hrecorded.made, hrecorded.marked, hrecorded.once⟩

/-- The rows of `decisions` that reference an event. -/
def Database.decisionsOf (database : Database) (eventDigest : String) : List DecisionRow :=
  database.decisions.filter fun decision => decision.eventDigest = eventDigest

theorem Sound.length_decisionsOf {database : Database} (h : Sound database) (eventDigest : String) :
    (database.decisionsOf eventDigest).length ≤ 1 := by
  have hcount : (database.decisionsOf eventDigest).length
      = (database.decisions.map DecisionRow.eventDigest).count eventDigest := by
    rw [Database.decisionsOf, ← List.countP_eq_length_filter, List.count, List.countP_map]
    apply List.countP_congr
    simp
  rw [hcount]
  exact List.nodup_iff_count_le_one.mp h.decisions_nodup eventDigest

theorem Sound.decided_iff_length {database : Database} (h : Sound database) {row : EventRow}
    (hrow : row ∈ database.events) :
    row.state = .decided ↔ (database.decisionsOf row.eventDigest).length = 1 := by
  have hle := h.length_decisionsOf row.eventDigest
  have hpos : 0 < (database.decisionsOf row.eventDigest).length
      ↔ ∃ decision ∈ database.decisions, decision.eventDigest = row.eventDigest := by
    rw [List.length_pos_iff_exists_mem]
    simp [Database.decisionsOf]
  rw [h.decided_iff row hrow, ← hpos]
  omega

/-- What holds of the decisions in a system of requests. -/
structure DecisionsSafe (hmac : Hmac) (env : Env) (sys : RelaySystem) : Prop where
  decided_iff : ∀ row ∈ sys.state.database.events, row.state = .decided
    ↔ (sys.state.database.decisionsOf row.eventDigest).length = 1
  at_most_one : ∀ eventDigest, (sys.state.database.decisionsOf eventDigest).length ≤ 1
  made : ∀ decision ∈ sys.state.database.decisions, ∃ s₀ new changes,
    committed s₀ new changes ∈ sys.entries ∧ decision = s₀.database.decisionRow new
      ∧ ∃ s₁ row, MadeFrom hmac env sys.entries new s₁ row
  replayed : ∀ s₀ new changes, committed s₀ new changes ∈ sys.entries →
    s₀.database.hasWebhook new.webhookId = false
      ∧ sys.state.database.hasWebhook new.webhookId = true
      ∧ ∀ s₁ new' changes', committed s₁ new' changes' ∈ sys.entries →
        new.webhookId = new'.webhookId → s₀.database.decisionRow new = s₁.database.decisionRow new'
  unavailable : ∀ thread ∈ sys.threads, ∀ value, thread.program = .done (.response 503 value) →
    Undecided thread.trace

/-- However requests interleave and whichever statements fail, an event is decided by exactly one
decision, made from a row that was open, and a handler that answers 503 has decided nothing. -/
theorem decisions_safe (sha256 : Sha256) (hmac : Hmac) (env : Env) (sys : RelaySystem)
    (h : RelayReachable sha256 hmac env sys) : DecisionsSafe hmac env sys := by
  have hsound := h.sound
  refine ⟨fun row => hsound.inv.decided_iff_length, hsound.inv.length_decisionsOf,
    hsound.history.made, ?_, ?_⟩
  · intro s₀ new changes hentry
    obtain ⟨hbefore, hafter⟩ := hsound.history.marked s₀ new changes hentry
    exact ⟨hbefore, hafter, fun s₁ new' changes' => hsound.history.once s₀ new changes s₁ new'
      changes' hentry⟩
  · intro thread hthread value hdone
    rcases hsound.of_done hthread hdone with hundecided | hreply
    · exact hundecided
    · have hstatus := congrArg (fun reply => match reply with
        | .response status _ => status
        | .uncaught => 0) hreply
      cases hstatus

/-! ## A run -/

/-- The hash that is zero. -/
def zeroSha256 : Sha256 := fun _ => Vector.replicate 32 0

def zeroHmac : Hmac := fun _ _ => Vector.replicate 32 0

def sampleToken : String := "0123456789abcdef0123456789abcdef"

/-- A relay that sends by SMS. -/
def sampleEnv : Env where
  provider := some .telnyx
  relayToken := some sampleToken
  decisionHmacKey := some sampleToken
  telegramBotToken := ""
  telegramWebhookSecret := ""
  telegramDeliveryMode := none
  telnyxApiKey := some sampleToken
  telnyxFrom := "+15550000001"
  alertTo := "+15550000002"
  telnyxPublicKey := "AAAAAAAAAAAAAAAAAAAAAAAAAAAAAAAAAAAAAAAAAAA="

def zeroDigest : Json := .str ("sha256:" ++ hexText (List.replicate 32 0))

/-- A prompt for a quarantined envelope. -/
def quarantinePrompt : Json :=
  .obj [("schema_version", .str "redacted-event.v1"), ("created_at", .str "2026-01-01T00:00:00Z"),
    ("event_kind", .str "proposal_quarantined"), ("severity", .str "action_required"),
    ("envelope_digest", zeroDigest), ("proposal_hash", zeroDigest),
    ("target_hashes", .obj [("harness_hash", zeroDigest), ("compiler_hash", zeroDigest),
      ("op_table_hash", zeroDigest), ("fleet_config_hash", zeroDigest)]),
    ("approval", .obj [("nonce", .str (hexText (List.replicate 32 0))),
      ("human_code", .str "AAAAAAAA"), ("expires_at", .str "2026-01-01T00:30:00Z"),
      ("binding_digest", zeroDigest),
      ("allowed_actions", .arr [.str "approve_for_offline_validation", .str "deny"])])]

def sampleSubmission : Json :=
  .obj [("event", quarantinePrompt), ("event_digest", zeroDigest),
    ("schema_version", .str "relay-submission.v1"),
    ("fixed_message", .str ((renderEvent quarantinePrompt).toOption.getD ""))]

/-- The operator approves by SMS. -/
def sampleWebhook : Json :=
  .obj [("data", .obj [("id", .str "webhook"), ("event_type", .str "message.received"),
    ("payload", .obj [("from", .obj [("phone_number", .str "+15550000002")]),
      ("to", .arr [.obj [("phone_number", .str "+15550000001")]]),
      ("text", .str "approve aaaaaaaa")])])]

/-- Ten minutes into 2026. -/
def sampleClock : Datetime := ⟨(62135596800 + 1767225600 + 600) * microsPerSecond, by decide⟩

/-- One request after another, where nothing fails. -/
def playRequests (sha256 : Sha256) (hmac : Hmac) (env : Env) (requests : List Request)
    (sys : RelaySystem) : RelaySystem :=
  requests.foldl (fun sys request =>
    sys.play (fun s op => op.perform s) (handle sha256 hmac env request)) sys

theorem playRequests_reachable (sha256 : Sha256) (hmac : Hmac) (env : Env) (clock : Datetime)
    (requests : List Request) : RelayReachable sha256 hmac env
      (playRequests sha256 hmac env requests ⟨⟨.empty, clock⟩, []⟩) := by
  have hrun : ∀ sys : RelaySystem, Relation.ReflTransGen
      (System.Step semantics (Starts sha256 hmac env)) sys
        (playRequests sha256 hmac env requests sys) := by
    induction requests with
    | nil => exact fun sys => .refl
    | cons request requests ih =>
      intro sys
      have hstart : Starts sha256 hmac env (handle sha256 hmac env request) := ⟨request, rfl⟩
      exact (System.play_reachable Op.exec_perform hstart sys).trans (ih _)
  exact ⟨clock, hrun _⟩

/-- The event is submitted and approved, and the approval comes a second time. -/
def sampleSystem : RelaySystem :=
  playRequests zeroSha256 zeroHmac sampleEnv
    [.event ("Bearer " ++ sampleToken) (some sampleSubmission), .telnyx true (some sampleWebhook),
      .telnyx true (some sampleWebhook)] ⟨⟨.empty, sampleClock⟩, []⟩

theorem decisions_safe_sample : sampleSystem.state.database.decisions.length = 1
    ∧ DecisionsSafe zeroHmac sampleEnv sampleSystem := by
  refine ⟨by decide +kernel, ?_⟩
  exact decisions_safe zeroSha256 zeroHmac sampleEnv sampleSystem
    (playRequests_reachable _ _ _ _ _)

end IouAi.Relay
