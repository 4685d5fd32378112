import IouAi.Relay.Deliveries

/-!
# Submitting an event again

A host that lost its receipt submits an event again. The relay answers for good when it knows how
the delivery of the event ended. Every final status in the tables comes from a handler
(`RowSound`): the relay notes those of `refusals` itself, and a webhook of the provider notes those
of `failures`. The answer to a resubmission looks for the former only, so an event whose message the
provider could not deliver is answered as one whose delivery is still going on
(`resubmission_terminal_iff`).
-/

namespace IouAi.Relay

open Calendar Checks Json Threads Wire

variable {sha256 : Sha256} {hmac : Hmac} {env : Env}

/-! ## Rows that the handlers make -/

/-- The final statuses that the relay notes when it sends no message. -/
def refusals : List String :=
  ["provider_rejected", "monthly_priority_reserve", "monthly_sms_limit"]

/-- The final statuses of a message that was sent and not delivered. -/
def failures : List String := ["sending_failed", "delivery_failed", "delivery_unconfirmed"]

structure RowSound (sha256 : Sha256) (row : EventRow) : Prop where
  digest : row.eventDigest = eventDigestOf sha256 row.event
  messageId : ∀ id, row.telnyxMessageId = some id → id ≠ ""
  sent : row.deliveryState = .accepted ∨ row.deliveryState = .delivered →
    row.telnyxMessageId.isSome = true
  failed : row.deliveryState = .failed →
    ∃ status ∈ refusals ++ failures, row.telnyxFinalStatus = some status

/-- The changes that a handler makes. -/
def DeliveryChange.Lawful : DeliveryChange → Prop
  | .registerHost receipt => receipt ≠ ""
  | .accept messageId => messageId ≠ ""
  | .fail finalStatus => finalStatus ∈ refusals
  | .claim _ | .release => True

/-- The operations that a handler issues. -/
def Lawful (sha256 : Sha256) : Op → Prop
  | .query (.insertEvent new) => new.eventDigest = eventDigestOf sha256 new.event
  | .query (.updateDelivery _ change) => change.Lawful
  | .query (.finalizeDelivery _ _ delivered finalStatus _) =>
    finalStatus ∈ finalStatuses ∧ delivered = Decidable.decide (finalStatus = "delivered")
  | _ => True

namespace RowSound

variable {row : EventRow}

theorem set (h : RowSound sha256 row) {change : DeliveryChange} (hlawful : change.Lawful) :
    RowSound sha256 (change.set row) := by
  cases change with
  | registerHost receipt =>
    refine ⟨h.digest, ?_, fun _ => rfl, fun hfailed => (nomatch hfailed)⟩
    rintro id ⟨⟩
    exact hlawful
  | claim claimedAt =>
    exact ⟨h.digest, h.messageId, fun hsent => (nomatch hsent), fun hfailed => (nomatch hfailed)⟩
  | release =>
    exact ⟨h.digest, h.messageId, fun hsent => (nomatch hsent), fun hfailed => (nomatch hfailed)⟩
  | accept messageId =>
    refine ⟨h.digest, ?_, fun _ => rfl, fun hfailed => (nomatch hfailed)⟩
    rintro id ⟨⟩
    exact hlawful
  | fail finalStatus =>
    exact ⟨h.digest, h.messageId, fun hsent => (nomatch hsent), fun _ =>
      ⟨finalStatus, List.mem_append_left _ hlawful, rfl⟩⟩

/-- A webhook ends the delivery of a message that was sent. -/
theorem finalize (h : RowSound sha256 row) {finalStatus messageId : String}
    (hstatus : finalStatus ∈ finalStatuses) (hmessage : row.telnyxMessageId = some messageId) :
    RowSound sha256 { row with
      deliveryState := if finalStatus = "delivered" then .delivered else .failed
      telnyxFinalStatus := some finalStatus } := by
  refine ⟨h.digest, h.messageId, fun _ => by rw [hmessage]; rfl, fun hfailed => ?_⟩
  have hnot : finalStatus ≠ "delivered" := by
    rintro rfl
    cases hfailed
  refine ⟨finalStatus, List.mem_append_right _ ?_, rfl⟩
  rcases List.mem_cons.mp hstatus with heq | hmem
  · exact absurd heq hnot
  · exact hmem

end RowSound

/-! ## The invariant -/

/-- Every row is sound. -/
def RowsSound (sha256 : Sha256) (database : Database) : Prop :=
  ∀ row ∈ database.events, RowSound sha256 row

theorem RowsSound.updateEvents {database : Database} (h : RowsSound sha256 database)
    {matching : EventRow → Bool} {set : EventRow → EventRow}
    (hset : ∀ row, RowSound sha256 row → matching row = true → RowSound sha256 (set row)) :
    RowsSound sha256 (database.updateEvents matching set).2 := by
  intro row hrow
  obtain ⟨before, hbefore, rfl⟩ := List.mem_map.mp hrow
  have hsound := h before hbefore
  split
  · rename_i hmatching
    exact hset before hsound hmatching
  · exact hsound

theorem RowsSound.run {database database' : Database} (h : RowsSound sha256 database)
    {statement : Statement} {value : statement.Value} (hlawful : Lawful sha256 (.query statement))
    (hrun : statement.run database = some (value, database')) : RowsSound sha256 database' := by
  cases statement with
  | insertEvent new =>
    simp only [Statement.run, Database.insertEvent, bind, pure, Option.bind_eq_some_iff,
      Option.guard_eq_some'] at hrun
    obtain ⟨humanCode, _, expiresAt, _, _, _, _, _, hrun⟩ := hrun
    cases hrun
    intro row hrow
    rcases List.mem_append.mp hrow with hrow | hrow
    · exact h row hrow
    · rw [List.mem_singleton.mp hrow]
      refine ⟨hlawful, ?_, ?_, ?_⟩
      · intro id hid
        cases hid
      · rintro (haccepted | hdelivered)
        · cases haccepted
        · cases hdelivered
      · intro hfailed
        cases hfailed
  | insertDecision new =>
    obtain ⟨_, _, _, _, rfl⟩ := Database.insertDecision_eq_some hrun
    have hdecided : RowsSound sha256 (database.updateEvents
        (fun row => row.eventDigest = new.eventDigest && row.state = .pending)
        (fun row => { row with state := .decided })).2 :=
      h.updateEvents fun row hrow _ => ⟨hrow.digest, hrow.messageId, hrow.sent, hrow.failed⟩
    exact hdecided
  | updateDelivery eventDigest change =>
    cases hrun
    exact h.updateEvents fun row hrow _ => hrow.set hlawful
  | finalizeDelivery webhookId processedAt delivered finalStatus messageId =>
    obtain ⟨hstatus, rfl⟩ := hlawful
    simp only [Statement.run, Database.finalizeDelivery, bind, pure, Option.bind_eq_some_iff,
      Option.guard_eq_some'] at hrun
    obtain ⟨_, _, hrun⟩ := hrun
    cases hrun
    have hmarked : RowsSound sha256 (database.addWebhook webhookId processedAt) := h
    refine hmarked.updateEvents fun row hrow hmatching => ?_
    have hfinal := hrow.finalize hstatus (of_decide_eq_true hmatching)
    simpa using hfinal
  | countSms month attemptLimit =>
    have hdatabase : (database.countSms month attemptLimit).2 = database' :=
      congrArg Prod.snd (Option.some.inj hrun)
    rw [← hdatabase, Database.countSms]
    split
    · exact h
    · split <;> exact h
  | insertWebhook webhookId processedAt =>
    have hdatabase : (database.insertWebhook webhookId processedAt).2 = database' :=
      congrArg Prod.snd (Option.some.inj hrun)
    rw [← hdatabase, Database.insertWebhook]
    split <;> exact h
  | selectRecipient | selectEvent | selectWebhook | selectByCode | selectDecisions =>
    cases hrun
    exact h

/-- Handlers keep the rows sound and their digests distinct. -/
def rowDiscipline (sha256 : Sha256) : Discipline lossySemantics where
  Inv s := Keyed s ∧ RowsSound sha256 s.database
  le _ _ := True
  guard _ _ := Lawful sha256
  le_refl _ := trivial
  le_trans _ _ := trivial
  exec_inv := by
    rintro _ s op outcome s' ⟨hkeyed, hsound⟩ hlawful hexec
    refine ⟨keyed_exec hkeyed hexec, ?_⟩
    cases hexec with
    | reported hexec =>
      cases hexec with
      | commit hrun => exact hsound.run hlawful hrun
      | now | abort | send | answerCallback => exact hsound
    | lost hrun => exact hsound.run hlawful hrun
  exec_le _ _ _ := trivial
  env_inv := by
    rintro s s' ⟨hkeyed, hsound⟩ hmove
    cases hmove with
    | wait => exact ⟨hkeyed, hsound⟩
    | pair => exact ⟨hkeyed, hsound⟩
  env_le _ _ := trivial

/-! ## Handlers -/

theorem allowsReads_lawful : AllowsReads (Lawful sha256) where
  now := trivial
  select statement h := by cases statement <;> trivial
  webhook _ _ := trivial
  answer _ _ := trivial

theorem allowsFinals_lawful : AllowsFinals (Lawful sha256) := fun _ _ _ _ hstatus => ⟨hstatus, rfl⟩

theorem lawful_updateOnce {eventDigest : String} {change : DeliveryChange} (h : change.Lawful)
    {reply reply' : Reply} :
    (do if ← updateOnce eventDigest change then return reply else return reply' :
      RelayProgram Reply).Only (Lawful sha256) := by
  have honce : (updateOnce eventDigest change).Only (Lawful sha256) := by
    refine ⟨h, fun outcome => ?_⟩
    cases outcome <;> exact trivial
  refine honce.bind fun success => ?_
  cases success <;> exact trivial

theorem lawful_sendDelivery {event : Json} {text : String} :
    (sendDelivery env event text).Only (Lawful sha256) := by
  unfold sendDelivery
  split
  · refine (only_telegramRecipient allowsReads_lawful).bind fun recipient => ?_
    cases recipient with
    | none => exact trivial
    | some _ => exact ⟨trivial, fun _ => trivial⟩
  · exact ⟨trivial, fun _ => trivial⟩

theorem lawful_deliverCounted {submission : Submission} {accepted : Reply} :
    (deliverCounted env submission accepted).Only (Lawful sha256) := by
  refine lawful_sendDelivery.bind fun delivery => ?_
  cases delivery with
  | accepted id hid =>
    have haccept : (DeliveryChange.accept id).Lawful := hid
    exact lawful_updateOnce haccept
  | rejected =>
    have hrefusal : (DeliveryChange.fail "provider_rejected").Lawful := .head _
    exact lawful_updateOnce hrefusal
  | uncertain => exact trivial

theorem lawful_deliverClaimed {submission : Submission} {accepted : Reply} :
    (deliverClaimed env submission accepted).Only (Lawful sha256) := by
  refine ⟨trivial, fun _ => ⟨trivial, fun outcome => ?_⟩⟩
  cases outcome with
  | none => exact ⟨trivial, fun _ => trivial⟩
  | some changes =>
    change (if changes ≠ 1 then _ else _ : RelayProgram Reply).Only (Lawful sha256)
    split
    · have hrefusal : (DeliveryChange.fail (if isPriorityEvent submission.event then
          "monthly_sms_limit" else "monthly_priority_reserve")).Lawful := by
        split
        · exact .tail _ (.tail _ (.head _))
        · exact .tail _ (.head _)
      exact lawful_updateOnce hrefusal
    · exact lawful_deliverCounted

theorem lawful_deliver {submission : Submission} {prior : Option EventRow} :
    (deliver env submission prior).Only (Lawful sha256) := by
  unfold deliver
  simp only
  split
  · exact trivial
  · split
    · have hreceipt : (DeliveryChange.registerHost
          ("telegram-host:" ++ shortDigest submission.eventDigest)).Lawful := by
        intro hempty
        have hlength := congrArg String.length hempty
        rw [String.length_append] at hlength
        exact absurd hlength (by simp)
      exact lawful_updateOnce hreceipt
    · refine ⟨trivial, fun _ => ⟨trivial, fun outcome => ?_⟩⟩
      cases outcome with
      | none => exact trivial
      | some changes =>
        change (if changes ≠ 1 then _ else _ : RelayProgram Reply).Only (Lawful sha256)
        split
        · exact trivial
        · exact lawful_deliverClaimed

theorem lawful_acceptEvent {authorization : String} {body : Option Json} :
    (acceptEvent sha256 env authorization body).Only (Lawful sha256) := by
  unfold acceptEvent
  split
  · exact trivial
  refine (only_deliveryReady allowsReads_lawful).bind fun ready => ?_
  cases ready with
  | false => exact trivial
  | true =>
    refine ⟨trivial, fun instant => ?_⟩
    dsimp only [Program.bind]
    split
    · exact trivial
    · rename_i submission hsubmission
      refine ⟨trivial, fun outcome => ?_⟩
      match outcome with
      | none => exact trivial
      | some (some prior) =>
        change (if _ then _ else _ : RelayProgram Reply).Only (Lawful sha256)
        split
        · exact trivial
        · exact lawful_deliver
      | some none =>
        refine ⟨trivial, fun createdAt => ⟨readSubmission_digest hsubmission, fun inserted => ?_⟩⟩
        cases inserted with
        | none => exact trivial
        | some changes =>
          change (deliver env submission none).Only (Lawful sha256)
          exact lawful_deliver

theorem lawful_handle (request : Request) :
    (handle sha256 hmac env request).Only (Lawful sha256) := by
  cases request with
  | event => exact lawful_acceptEvent
  | telnyx => exact only_receiveTelnyx allowsReads_lawful (fun _ => trivial) allowsFinals_lawful
  | telegram => exact only_receiveTelegram allowsReads_lawful fun _ => trivial
  | decisions => exact only_listDecisions allowsReads_lawful

/-- Every row of a reachable system is sound, and no two have one digest. -/
theorem LossyReachable.rows {sys : RelaySystem} (h : LossyReachable sha256 hmac env sys) :
    Keyed sys.state ∧ RowsSound sha256 sys.state.database := by
  obtain ⟨clock, h⟩ := h
  have hempty : (rowDiscipline sha256).Inv ⟨.empty, clock⟩ :=
    ⟨List.nodup_nil, fun _ hrow => absurd hrow List.not_mem_nil⟩
  have htraced : System.Traced (rowDiscipline sha256) (fun _ _ => True) (fun _ _ => True) sys := by
    refine System.traced_reachable hempty trivial ?_ (fun _ _ _ => trivial)
      (fun _ _ _ _ _ _ _ _ _ _ _ => trivial) (fun _ _ _ _ _ _ => trivial) h
    rintro program ⟨request, rfl⟩ s _
    exact Safe.of_only (fun _ _ _ hlawful => hlawful) (fun _ _ _ => trivial) (lawful_handle request)
  exact htraced.inv

/-! ## Resubmissions -/

/-- The reply of a handler that runs alone, where nothing fails. -/
def replyAt (program : RelayProgram Reply) (s : RelayState) : Reply :=
  (program.play (fun s op => op.perform s) s []).1

/-- The relay has a recipient for its messages. -/
def ReadyAt (env : Env) (s : RelayState) : Prop :=
  ((deliveryReady env).play (fun s op => op.perform s) s []).1 = true

/-- An acknowledgement, or the answer that a monthly limit is reached. -/
def Reply.IsTerminal (reply : Reply) : Prop :=
  (∃ eventDigest status, reply = acknowledge 200 eventDigest status)
    ∨ ∃ error, reply = errorReply 429 error

/-- A request submits the event of the row while the relay still accepts the event. -/
structure Resubmits (sha256 : Sha256) (env : Env) (s : RelayState) (row : EventRow)
    (authorization : String) (body : Option Json) (submission : Submission) : Prop where
  authorized : authorized sha256 env authorization = true
  ready : ReadyAt env s
  read : readSubmission sha256 (unixMillis s.clock) body = .ok submission
  event_eq : canonical submission.event = canonical row.event

/-- The delivery of the row has ended. -/
def EventRow.Ended (row : EventRow) : Prop :=
  row.deliveryState = .accepted ∨ row.deliveryState = .delivered ∨ row.deliveryState = .failed

/-- The provider said that it could not deliver the message of the row. -/
def EventRow.Undelivered (row : EventRow) : Prop :=
  row.deliveryState = .failed ∧ ∃ status ∈ failures, row.telnyxFinalStatus = some status

section Replies

variable {s : RelayState} {row : EventRow} {authorization : String} {body : Option Json}
  {submission : Submission}

/-- The reply does not depend on what was done before. -/
theorem play_fst (program : RelayProgram Reply) (s : RelayState) (trace : List RelayEntry) :
    (program.play (fun s op => op.perform s) s trace).1 = replyAt program s := by
  have hsame : ∀ trace', (program.play (fun s op => op.perform s) s trace).1
      = (program.play (fun s op => op.perform s) s trace').1 := by
    induction program generalizing s trace with
    | done reply => exact fun _ => rfl
    | call op next ih => exact fun trace' => ih _ _ _ _
  exact hsame []

theorem replyAt_call {op : Op} {next : op.Result → RelayProgram Reply} :
    replyAt (.call op next) s = replyAt (next (op.perform s).1) (op.perform s).2 := by
  rw [replyAt]
  exact play_fst (next (op.perform s).1) _ _

/-- A relay that is ready goes on from the state as it is. -/
theorem replyAt_deliveryReady (h : ReadyAt env s) {next : Bool → RelayProgram Reply} :
    replyAt (deliveryReady env >>= next) s = replyAt (next true) s := by
  unfold ReadyAt at h
  unfold deliveryReady at h ⊢
  by_cases hconfigured : (!configurationReady env) = true
  · rw [if_pos hconfigured] at h
    cases h
  rw [if_neg hconfigured] at h ⊢
  by_cases htelegram : env.provider ≠ some .telegram
  · rw [if_pos htelegram]
    rfl
  rw [if_neg htelegram] at h ⊢
  unfold telegramRecipient at h ⊢
  rw [if_neg htelegram] at h ⊢
  have hperform : (Op.query .selectRecipient).perform s
      = (some s.database.telegramRecipient, s) := rfl
  change replyAt (.call (Op.query .selectRecipient) _) s = _
  change (Program.play _ (.call (Op.query .selectRecipient) _) s []).1 = true at h
  rw [replyAt_call, hperform]
  rw [Program.play, hperform] at h
  cases hrecipient : s.database.telegramRecipient with
  | none =>
    rw [hrecipient] at h
    cases h
  | some chatId =>
    rw [hrecipient] at h
    change (if isTelegramChatId chatId then some chatId else none).isSome = true at h
    change replyAt (next (if isTelegramChatId chatId then some chatId else none).isSome) s = _
    rw [h]

theorem eq_of_eventDigest (hkeyed : Keyed s) (hrow : row ∈ s.database.events) {other : EventRow}
    (hother : other ∈ s.database.events) (hdigest : other.eventDigest = row.eventDigest) :
    other = row :=
  List.inj_on_of_nodup_map hkeyed hother hrow hdigest

theorem event?_eq (hkeyed : Keyed s) (hrow : row ∈ s.database.events) :
    s.database.event? row.eventDigest = some row := by
  have hfound : (s.database.event? row.eventDigest).isSome = true := by
    rw [Database.event?, List.find?_isSome]
    exact ⟨row, hrow, by simp⟩
  obtain ⟨other, hother⟩ := Option.isSome_iff_exists.mp hfound
  have hmem := List.mem_of_find?_eq_some hother
  have hdigest : other.eventDigest = row.eventDigest := by
    simpa using List.find?_some hother
  rw [hother, eq_of_eventDigest hkeyed hrow hmem hdigest]

/-- A change that needs another state of the delivery changes no row. -/
theorem countP_eq_zero (hkeyed : Keyed s) (hrow : row ∈ s.database.events)
    {change : DeliveryChange} (hstate : row.deliveryState ≠ change.source) :
    s.database.events.countP (fun other => other.eventDigest = row.eventDigest
      && other.deliveryState = change.source) = 0 := by
  rw [List.countP_eq_zero]
  intro other hother hmatching
  simp only [Bool.and_eq_true, decide_eq_true_eq] at hmatching
  rw [eq_of_eventDigest hkeyed hrow hother hmatching.1] at hmatching
  exact hstate hmatching.2

theorem Resubmits.digest (h : Resubmits sha256 env s row authorization body submission)
    (hsound : RowSound sha256 row) : submission.eventDigest = row.eventDigest := by
  rw [readSubmission_digest h.read, eventDigestOf, h.event_eq, hsound.digest, eventDigestOf]

/-- A resubmission goes on with the row. -/
theorem replyAt_acceptEvent (hkeyed : Keyed s) (hrow : row ∈ s.database.events)
    (hsound : RowSound sha256 row) (h : Resubmits sha256 env s row authorization body submission) :
    replyAt (acceptEvent sha256 env authorization body) s
      = replyAt (deliver env submission (some row)) s := by
  have hdigest := h.digest hsound
  have hevent : (Op.query (.selectEvent submission.eventDigest)).perform s
      = (some (some row), s) := by
    rw [hdigest, Op.perform]
    simp only [Statement.run, event?_eq hkeyed hrow]
  unfold acceptEvent
  rw [h.authorized, Bool.not_true, if_neg Bool.false_ne_true, replyAt_deliveryReady h.ready]
  change replyAt (.call Op.now _) s = _
  rw [replyAt_call]
  simp only [Op.perform, Program.bind, h.read]
  change replyAt (.call (Op.query (.selectEvent submission.eventDigest)) _) s = _
  rw [replyAt_call, hevent]
  change replyAt (if canonical row.event ≠ canonical submission.event then _ else _) s = _
  rw [if_neg (not_not.mpr h.event_eq.symm)]

/-! ### Rows whose delivery has ended -/

theorem Reply.IsTerminal.status {reply : Reply} (h : reply.IsTerminal) {status : ℕ} {error : String}
    (hreply : reply = errorReply status error) : status = 429 := by
  subst hreply
  rcases h with ⟨eventDigest, status', hreply⟩ | ⟨error', hreply⟩
  · have hfields := (Reply.response.inj hreply).2
    have hlength := congrArg List.length (Json.obj.inj hfields)
    cases hlength
  · exact (Reply.response.inj hreply).1

/-- The relay knows how it answers an event whose delivery has ended, unless the provider could not
deliver the message. -/
theorem priorReply?_ended (hsound : RowSound sha256 row) (hended : row.Ended)
    (hdelivered : ¬ row.Undelivered) :
    ∃ reply, priorReply? row = some reply ∧ reply.IsTerminal := by
  unfold priorReply?
  by_cases hsent : row.deliveryState = .accepted ∨ row.deliveryState = .delivered
  · obtain ⟨id, hid⟩ := Option.isSome_iff_exists.mp (hsound.sent hsent)
    have hcondition : (row.telnyxMessageId.any (· ≠ "")
        && (row.deliveryState = .accepted || row.deliveryState = .delivered)) = true := by
      rw [hid]
      simpa using ⟨hsound.messageId id hid, hsent⟩
    rw [if_pos hcondition]
    exact ⟨_, rfl, .inl ⟨_, _, rfl⟩⟩
  · have hfailed : row.deliveryState = .failed := by
      rcases hended with h | h | h
      · exact absurd (.inl h) hsent
      · exact absurd (.inr h) hsent
      · exact h
    have hcondition : ¬ (row.telnyxMessageId.any (· ≠ "")
        && (row.deliveryState = .accepted || row.deliveryState = .delivered)) = true := by
      simp [hfailed]
    rw [if_neg hcondition, if_neg (not_not.mpr hfailed)]
    obtain ⟨status, hmem, hstatus⟩ := hsound.failed hfailed
    rcases List.mem_append.mp hmem with hrefusal | hfailure
    · rw [hstatus]
      simp only [refusals, List.mem_cons, List.not_mem_nil, or_false] at hrefusal
      rcases hrefusal with rfl | rfl | rfl
      · exact ⟨_, rfl, .inl ⟨_, _, rfl⟩⟩
      · exact ⟨_, rfl, .inr ⟨_, rfl⟩⟩
      · exact ⟨_, rfl, .inr ⟨_, rfl⟩⟩
    · exact absurd ⟨hfailed, status, hfailure, hstatus⟩ hdelivered

theorem priorReply?_undelivered (h : row.Undelivered) : priorReply? row = none := by
  obtain ⟨hfailed, status, hfailure, hstatus⟩ := h
  simp only [failures, List.mem_cons, List.not_mem_nil, or_false] at hfailure
  unfold priorReply?
  rcases hfailure with rfl | rfl | rfl <;> simp [hfailed, hstatus]

/-- The error of an event whose delivery cannot be started. -/
def deliveryError (env : Env) : String :=
  if env.provider = some .telegram ∧ env.telegramDeliveryMode = some .host then
    "host_registration_uncertain"
  else "delivery_in_progress_or_uncertain"

/-- A failed delivery that there is no reply for is answered as one that is going on. -/
theorem replyAt_deliver_failed (env : Env) (hkeyed : Keyed s) (hrow : row ∈ s.database.events)
    (hdigest : submission.eventDigest = row.eventDigest) (hprior : priorReply? row = none)
    (hfailed : row.deliveryState = .failed) :
    replyAt (deliver env submission (some row)) s = errorReply 503 (deliveryError env) := by
  have hnone : ∀ change : DeliveryChange, change.source = .pending →
      ((Op.query (.updateDelivery submission.eventDigest change)).perform s).1 = some 0 := by
    intro change hsource
    have hstate : row.deliveryState ≠ change.source := by
      rw [hsource, hfailed]
      decide
    rw [hdigest]
    exact congrArg some (countP_eq_zero hkeyed hrow hstate)
  unfold deliver deliveryError
  simp only [Option.bind_some, hprior]
  split
  · change replyAt (.call (Op.query (.updateDelivery submission.eventDigest
      (.registerHost ("telegram-host:" ++ shortDigest submission.eventDigest)))) _) s = _
    rw [replyAt_call, hnone _ rfl]
    rfl
  · change replyAt (.call Op.now _) s = _
    rw [replyAt_call]
    change replyAt (.call (Op.query (.updateDelivery submission.eventDigest
      (.claim (toISOString s.clock)))) _) s = _
    rw [replyAt_call, hnone _ rfl]
    rfl

/-- An event whose delivery has ended is answered for good, unless its row has a final status with
which the provider said that it could not deliver the message. -/
theorem resubmission_terminal_iff {sys : RelaySystem}
    (h : LossyReachable sha256 hmac env sys) (hrow : row ∈ sys.state.database.events)
    (hended : row.Ended)
    (hresubmits : Resubmits sha256 env sys.state row authorization body submission) :
    (replyAt (acceptEvent sha256 env authorization body) sys.state).IsTerminal
      ↔ ¬ row.Undelivered := by
  obtain ⟨hkeyed, hsound⟩ := h.rows
  have hsound := hsound row hrow
  have hdigest := hresubmits.digest hsound
  rw [replyAt_acceptEvent hkeyed hrow hsound hresubmits]
  constructor
  · rintro hterminal hundelivered
    have hreply := replyAt_deliver_failed env hkeyed hrow hdigest
      (priorReply?_undelivered hundelivered) hundelivered.1
    exact absurd (hterminal.status hreply) (by decide)
  · intro hdelivered
    obtain ⟨reply, hprior, hterminal⟩ := priorReply?_ended hsound hended hdelivered
    have hreply : replyAt (deliver env submission (some row)) sys.state = reply := by
      unfold deliver
      simp only [Option.bind_some, hprior]
      rfl
    rw [hreply]
    exact hterminal

end Replies

/-! ### A message that the provider could not deliver -/

/-- The provider reports that it could not deliver the message of the sample. -/
def sampleReport : Json :=
  .obj [("data", .obj [("id", .str "webhook"), ("event_type", .str "message.finalized"),
    ("payload", .obj [("id", .str "message"),
      ("to", .arr [.obj [("status", .str "delivery_failed")]])])])]

def undeliveredSystem : RelaySystem :=
  playRequests zeroSha256 zeroHmac sampleEnv
    [.event ("Bearer " ++ sampleToken) (some sampleSubmission),
      .telnyx true (some sampleReport)] ⟨⟨.empty, sampleClock⟩, []⟩

theorem undeliveredSystem_reachable :
    LossyReachable zeroSha256 zeroHmac sampleEnv undeliveredSystem :=
  lossy_of_reachable (playRequests_reachable _ _ _ _ _)

theorem readyAt_sample (s : RelayState) : ReadyAt sampleEnv s := by
  have hconfigured : configurationReady sampleEnv = true := by decide +kernel
  unfold ReadyAt deliveryReady
  rw [hconfigured]
  rfl

theorem readSubmission_event {now : ℤ} {body : Json}
    (h : readSubmission sha256 now (some body) = .ok submission) :
    submission.event = (body.field? "event").getD .null := by
  simp only [readSubmission, bind_eq_ok, pure_eq_ok] at h
  obtain ⟨_, _, _, _, _, _, _, _, _, _, _, _, _, _, rfl⟩ := h
  rfl

/-- The sample is submitted again. -/
theorem resubmits_sample {s : RelayState} (hclock : unixMillis s.clock = unixMillis sampleClock)
    (hevent : canonical row.event = canonical quarantinePrompt) :
    ∃ submission, Resubmits zeroSha256 sampleEnv s row ("Bearer " ++ sampleToken)
      (some sampleSubmission) submission := by
  have hread : (readSubmission zeroSha256 (unixMillis sampleClock)
      (some sampleSubmission)).isOk = true := by
    decide +kernel
  cases hsubmission : readSubmission zeroSha256 (unixMillis sampleClock)
      (some sampleSubmission) with
  | error error =>
    rw [hsubmission] at hread
    cases hread
  | ok submission =>
    refine ⟨submission, by decide +kernel, readyAt_sample s, by rw [hclock, hsubmission], ?_⟩
    rw [hevent, readSubmission_event hsubmission]
    rfl

theorem undelivered_sample : ∃ row ∈ undeliveredSystem.state.database.events,
    row.Undelivered ∧ ∃ submission, Resubmits zeroSha256 sampleEnv undeliveredSystem.state row
      ("Bearer " ++ sampleToken) (some sampleSubmission) submission := by
  have hany : (unixMillis undeliveredSystem.state.clock = unixMillis sampleClock
      && undeliveredSystem.state.database.events.any fun row =>
        row.deliveryState = .failed && row.telnyxFinalStatus = some "delivery_failed"
          && canonical row.event = canonical quarantinePrompt) = true := by
    decide +kernel
  simp only [Bool.and_eq_true, List.any_eq_true, decide_eq_true_eq] at hany
  obtain ⟨hclock, row, hrow, ⟨hstate, hstatus⟩, hevent⟩ := hany
  exact ⟨row, hrow, ⟨hstate, "delivery_failed", .tail _ (.head _), hstatus⟩,
    resubmits_sample hclock hevent⟩

theorem resubmission_terminal_sample :
    ¬ (replyAt (acceptEvent zeroSha256 sampleEnv ("Bearer " ++ sampleToken)
      (some sampleSubmission)) undeliveredSystem.state).IsTerminal := by
  obtain ⟨row, hrow, hundelivered, submission, hresubmits⟩ := undelivered_sample
  have hiff := resubmission_terminal_iff undeliveredSystem_reachable hrow
    (.inr (.inr hundelivered.1)) hresubmits
  exact fun hterminal => hiff.mp hterminal hundelivered

/-- The delivery of the event has failed, and the relay answers that it may still be going on. -/
theorem resubmission_retried :
    LossyReachable zeroSha256 zeroHmac sampleEnv undeliveredSystem
      ∧ ∃ row ∈ undeliveredSystem.state.database.events, row.Ended
        ∧ (∃ submission, Resubmits zeroSha256 sampleEnv undeliveredSystem.state row
            ("Bearer " ++ sampleToken) (some sampleSubmission) submission)
        ∧ replyAt (acceptEvent zeroSha256 sampleEnv ("Bearer " ++ sampleToken)
            (some sampleSubmission)) undeliveredSystem.state
          = errorReply 503 "delivery_in_progress_or_uncertain" := by
  obtain ⟨row, hrow, hundelivered, submission, hresubmits⟩ := undelivered_sample
  obtain ⟨hkeyed, hsound⟩ := undeliveredSystem_reachable.rows
  have hdigest := hresubmits.digest (hsound row hrow)
  refine ⟨undeliveredSystem_reachable, row, hrow, .inr (.inr hundelivered.1),
    ⟨submission, hresubmits⟩, ?_⟩
  rw [replyAt_acceptEvent hkeyed hrow (hsound row hrow) hresubmits,
    replyAt_deliver_failed sampleEnv hkeyed hrow hdigest (priorReply?_undelivered hundelivered)
      hundelivered.1]
  rfl

end IouAi.Relay
