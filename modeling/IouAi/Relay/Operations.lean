import IouAi.Relay.Handlers

/-!
# The operations of the handlers

Which operations a handler can issue, for any class of operations that allows its reads and what the
handler writes.
-/

namespace IouAi.Relay

open Calendar Checks Json Threads Wire

variable {sha256 : Sha256} {hmac : Hmac} {env : Env} {allowed : Op → Prop}

/-- A statement that reads. -/
def Statement.isSelect : Statement → Bool
  | .selectRecipient | .selectEvent _ | .selectWebhook _ | .selectByCode _ | .selectDecisions _ =>
    true
  | _ => false

/-- The class allows the operations that every handler issues: reading, marking a webhook and
answering a callback. -/
structure AllowsReads (allowed : Op → Prop) : Prop where
  now : allowed .now
  select : ∀ statement, statement.isSelect = true → allowed (.query statement)
  webhook : ∀ webhookId processedAt, allowed (.query (.insertWebhook webhookId processedAt))
  answer : ∀ text showAlert, allowed (.answerCallback text showAlert)

section Reads

variable (h : AllowsReads allowed)
include h

theorem only_telegramRecipient : (telegramRecipient env).Only allowed := by
  unfold telegramRecipient
  split
  · exact trivial
  · refine ⟨h.select _ rfl, fun outcome => ?_⟩
    match outcome with
    | none | some none | some (some _) => exact trivial

theorem only_deliveryReady : (deliveryReady env).Only allowed := by
  unfold deliveryReady
  split
  · exact trivial
  · split
    · exact trivial
    · exact (only_telegramRecipient h).bind fun _ => trivial

theorem only_answerTelegramCallback {callbackId : Option Json} {text : String} {showAlert : Bool} :
    (answerTelegramCallback callbackId text showAlert).Only allowed := by
  unfold answerTelegramCallback
  split
  · exact ⟨h.answer _ _, fun _ => trivial⟩
  · exact trivial

theorem only_recordIgnoredWebhook {webhookId status : String} :
    (recordIgnoredWebhook webhookId status).Only allowed := by
  refine ⟨h.now, fun _ => ⟨h.webhook _ _, fun outcome => ?_⟩⟩
  cases outcome <;> exact trivial

theorem only_listDecisions {authorization after : String} :
    (listDecisions sha256 env authorization after).Only allowed := by
  unfold listDecisions
  split
  · exact trivial
  · refine (only_deliveryReady h).bind fun ready => ?_
    cases ready with
    | false => exact trivial
    | true =>
      rw [Bool.not_true, if_neg Bool.false_ne_true]
      split
      · exact trivial
      · refine ⟨h.select _ rfl, fun outcome => ?_⟩
        cases outcome <;> exact trivial

end Reads

/-! ## Webhooks -/

/-- The class allows noting how a delivery ended. -/
def AllowsFinals (allowed : Op → Prop) : Prop :=
  ∀ webhookId processedAt finalStatus messageId, finalStatus ∈ finalStatuses →
    allowed (.query (.finalizeDelivery webhookId processedAt (finalStatus = "delivered") finalStatus
      messageId))

theorem only_recordFinalizedWebhook (h : AllowsReads allowed) (hfinal : AllowsFinals allowed)
    {webhookId : String} {payload : Option Json} :
    (recordFinalizedWebhook webhookId payload).Only allowed := by
  unfold recordFinalizedWebhook
  split
  · split
    · exact only_recordIgnoredWebhook h
    · rename_i hstatus
      refine ⟨h.now, fun _ => ⟨hfinal _ _ _ _ (not_not.mp hstatus), fun outcome => ?_⟩⟩
      cases outcome with
      | some _ => exact trivial
      | none =>
        refine ⟨h.select _ rfl, fun outcome => ?_⟩
        match outcome with
        | none | some true | some false => exact trivial
  · exact only_recordIgnoredWebhook h

section Decide

variable (h : AllowsReads allowed) (hinsert : ∀ new, allowed (.query (.insertDecision new)))
include h hinsert

theorem only_storeDecision {answer : Answer}
    (hanswer : ∀ text showAlert, (answer text showAlert).Only allowed) {recorded : String}
    {new : NewDecision} : (storeDecision answer recorded new).Only allowed := by
  refine ⟨hinsert _, fun outcome => ?_⟩
  change (if _ then _ else _ : RelayProgram Reply).Only allowed
  split
  · exact (hanswer _ _).bind fun _ => trivial
  · refine ⟨h.select _ rfl, fun replay => ?_⟩
    match replay with
    | none | some false | some true => exact (hanswer _ _).bind fun _ => trivial

theorem only_decide {answer : Answer}
    (hanswer : ∀ text showAlert, (answer text showAlert).Only allowed) {recorded : Command → String}
    {webhookId : String} {channel : Channel} {command : Command} {code sender : String} :
    (decide sha256 hmac env answer recorded webhookId channel command code sender).Only allowed := by
  have hignored : ∀ {status text : String}, (do
      let reply ← recordIgnoredWebhook webhookId status
      answer text true
      return reply : RelayProgram Reply).Only allowed := fun {status text} =>
    (only_recordIgnoredWebhook h).bind fun reply => (hanswer text true).bind fun _ => trivial
  refine ⟨h.select _ rfl, fun outcome => ?_⟩
  cases outcome with
  | none => exact trivial
  | some found =>
    refine ⟨h.now, fun instant => ?_⟩
    dsimp only [Program.bind]
    split
    · exact hignored
    · refine ⟨h.now, fun issuedAt => ?_⟩
      dsimp only [Program.bind]
      split
      · exact hignored
      · split
        · exact trivial
        · exact only_storeDecision h hinsert hanswer

theorem only_receiveTelnyx (hfinal : AllowsFinals allowed) {verified : Bool} {body : Option Json} :
    (receiveTelnyx sha256 hmac env verified body).Only allowed := by
  unfold receiveTelnyx
  split
  · exact trivial
  refine (only_deliveryReady h).bind fun ready => ?_
  split
  · exact trivial
  split
  · exact trivial
  simp only
  split
  · split
    · exact trivial
    · refine ⟨h.select _ rfl, fun replay => ?_⟩
      match replay with
      | none | some true => exact trivial
      | some false =>
        change (if _ then _ else _ : RelayProgram Reply).Only allowed
        split
        · exact only_recordFinalizedWebhook h hfinal
        split
        · exact only_recordIgnoredWebhook h
        split
        · exact only_recordIgnoredWebhook h
        split
        · exact only_recordIgnoredWebhook h
        · have hanswer : ∀ text showAlert, (noAnswer text showAlert).Only allowed :=
            fun _ _ => trivial
          exact only_decide h hinsert hanswer
  · exact trivial

theorem only_receiveTelegram {webhookSecret : String} {body : Option Json} :
    (receiveTelegram sha256 hmac env webhookSecret body).Only allowed := by
  have hignore : ∀ {callbackId : Option Json} {webhookId : String},
      (receiveTelegram.ignore (answerTelegramCallback callbackId) webhookId).Only allowed :=
    (only_recordIgnoredWebhook h).bind fun reply =>
      (only_answerTelegramCallback h).bind fun _ => trivial
  unfold receiveTelegram
  split
  · exact trivial
  refine (only_deliveryReady h).bind fun ready => ?_
  split
  · exact trivial
  split
  · exact trivial
  split
  · exact trivial
  simp only
  refine ⟨h.select _ rfl, fun replay => ?_⟩
  match replay with
  | none => exact trivial
  | some true => exact (only_answerTelegramCallback h).bind fun _ => trivial
  | some false =>
    refine (only_telegramRecipient h).bind fun paired => ?_
    split
    · split
      · exact hignore
      · exact only_decide h hinsert fun _ _ => only_answerTelegramCallback h
    · exact hignore

end Decide

end IouAi.Relay
