import IouAi.Relay.Decisions
import Mathlib.Algebra.Order.BigOperators.Group.List
import Mathlib.Data.List.Induction

/-!
# Messages under interleaved requests

However requests interleave, a message is sent for an event at most once, and the attempts of a
month stay below the limit. A request sends only while it holds the claim of the event, and after it
has counted the attempt. Here a statement that fails may have committed all the same.
-/

namespace IouAi.Relay

open Calendar Checks Json Threads Wire

variable {sha256 : Sha256} {hmac : Hmac} {env : Env}

/-! ## Statements that fail after they commit -/

/-- A statement commits, fails without a trace, or commits and is reported as a failure. -/
inductive LossyExec : RelayState → (op : Op) → op.Result → RelayState → Prop
  | reported {s s' : RelayState} {op : Op} {outcome : op.Result} (h : Exec s op outcome s') :
      LossyExec s op outcome s'
  | lost {s : RelayState} {statement : Statement} {value : statement.Value}
      {database : Database} (h : statement.run s.database = some (value, database)) :
      LossyExec s (.query statement) none ⟨database, s.clock⟩

def lossySemantics : Semantics RelayState Op Op.Result := ⟨LossyExec, Environment⟩

/-! ## Claims, counts and messages in a trace -/

/-- The digest under which an event is submitted. -/
def eventDigestOf (sha256 : Sha256) (event : Json) : String :=
  "sha256:" ++ sha256Hex sha256 (canonical event)

def attemptLimit (event : Json) : ℕ :=
  if isPriorityEvent event then monthlySmsLimit else monthlySmsLimit - prioritySmsReserve

/-- The request claimed the event. -/
def isClaim (eventDigest : String) (entry : RelayEntry) : Prop :=
  ∃ s claimedAt, entry = ⟨s, .query (.updateDelivery eventDigest (.claim claimedAt)), some 1⟩

/-- The request gave the event back, or tried to. -/
def isRelease (eventDigest : String) (entry : RelayEntry) : Prop :=
  entry.op = .query (.updateDelivery eventDigest .release)

/-- The request has claimed the event and not given it back. -/
def Holds (eventDigest : String) (trace : List RelayEntry) : Prop :=
  (∃ entry ∈ trace, isClaim eventDigest entry) ∧ ∀ entry ∈ trace, ¬ isRelease eventDigest entry

/-- The month under which the entry counts an attempt. -/
def countedMonth? : RelayEntry → Option String
  | ⟨_, .query (.countSms month _), some 1⟩ => some month
  | _ => none

def sentEvent? : RelayEntry → Option Json
  | ⟨_, .send event _, _⟩ => some event
  | _ => none

/-- The messages that a request sends for an event. -/
def sendsOf (sha256 : Sha256) (eventDigest : String) (trace : List RelayEntry) : ℕ :=
  trace.countP fun entry => (sentEvent? entry).any fun event =>
    eventDigestOf sha256 event = eventDigest

/-- The month under which a request has counted its attempt. -/
def deliveryMonth? (trace : List RelayEntry) : Option String := trace.findSome? countedMonth?

/-- The messages that a request sends under a month. -/
def sendsUnder (month : String) (trace : List RelayEntry) : ℕ :=
  if deliveryMonth? trace = some month then trace.countP fun entry => (sentEvent? entry).isSome
  else 0

/-- The attempts of a month in the table. -/
def Database.attempted (database : Database) (month : String) : ℕ :=
  ((database.smsMonthly.find? fun row => row.1 = month).map Prod.snd).getD 0

/-! ## Guards -/

def Unsent (trace : List RelayEntry) : Prop := ∀ entry ∈ trace, sentEvent? entry = none

def Uncounted (trace : List RelayEntry) : Prop := ∀ entry ∈ trace, countedMonth? entry = none

/-- The request has counted its attempt under the limit of the event. -/
def Counted (event : Json) (trace : List RelayEntry) : Prop :=
  ∃ s month, (⟨s, .query (.countSms month (attemptLimit event)), some 1⟩ : RelayEntry) ∈ trace

def deliveryGuard (sha256 : Sha256) (trace : List RelayEntry) (_ : RelayState) : Op → Prop
  | .query (.updateDelivery eventDigest .release) => Holds eventDigest trace ∧ Unsent trace
  | .query (.countSms _ limit) => Uncounted trace ∧ ∃ event, limit = attemptLimit event
  | .send event _ => Unsent trace ∧ Holds (eventDigestOf sha256 event) trace ∧ Counted event trace
  | _ => True

/-- The digests of events are a key. -/
def Keyed (s : RelayState) : Prop := (s.database.events.map EventRow.eventDigest).Nodup

theorem map_eventDigest_updateEvents (database : Database) {matching : EventRow → Bool}
    {set : EventRow → EventRow} (hset : ∀ row, (set row).eventDigest = row.eventDigest) :
    (database.updateEvents matching set).2.events.map EventRow.eventDigest
      = database.events.map EventRow.eventDigest := by
  rw [Database.updateEvents, List.map_map]
  apply List.map_congr_left
  intro row _
  simp only [Function.comp_apply]
  split
  · exact hset row
  · rfl

theorem keyed_run {database database' : Database} {statement : Statement}
    {value : statement.Value} (h : (database.events.map EventRow.eventDigest).Nodup)
    (hrun : statement.run database = some (value, database')) :
    (database'.events.map EventRow.eventDigest).Nodup := by
  cases statement with
  | insertEvent new =>
    obtain ⟨row, _, hdigest, _, hfresh, rfl⟩ := Database.insertEvent_eq_some hrun
    rw [List.map_append, List.map_singleton]
    refine List.Nodup.append h (List.nodup_singleton _) ?_
    simpa [List.disjoint_singleton, Database.event?, hdigest] using hfresh
  | insertDecision new =>
    obtain ⟨_, _, _, _, rfl⟩ := Database.insertDecision_eq_some hrun
    change ((database.updateEvents
      (fun row => row.eventDigest = new.eventDigest && row.state = .pending)
      (fun row => { row with state := .decided })).2.events.map EventRow.eventDigest).Nodup
    rw [map_eventDigest_updateEvents]
    · exact h
    · exact fun row => rfl
  | updateDelivery eventDigest change =>
    have hdatabase : (database.updateEvents _ _).2 = database' :=
      congrArg Prod.snd (Option.some.inj hrun)
    rw [← hdatabase, map_eventDigest_updateEvents]
    · exact h
    · exact fun row => by cases change <;> rfl
  | finalizeDelivery webhookId processedAt delivered finalStatus messageId =>
    simp only [Statement.run, Database.finalizeDelivery, bind, pure, Option.bind_eq_some_iff,
      Option.guard_eq_some'] at hrun
    obtain ⟨_, _, hrun⟩ := hrun
    cases hrun
    rw [map_eventDigest_updateEvents]
    · exact h
    · exact fun row => rfl
  | countSms month attemptLimit =>
    have hdatabase : (database.countSms month attemptLimit).2 = database' :=
      congrArg Prod.snd (Option.some.inj hrun)
    rw [← hdatabase, Database.countSms]
    split
    · exact h
    · split <;> exact h
  | insertWebhook webhookId processedAt =>
    have hdatabase : (database.insertWebhook webhookId processedAt).2 = database' :=
      congrArg Prod.snd (Option.some.inj hrun)
    rw [← hdatabase, Database.insertWebhook]
    split <;> exact h
  | selectRecipient | selectEvent | selectWebhook | selectByCode | selectDecisions =>
    cases hrun
    exact h

theorem keyed_exec {s s' : RelayState} {op : Op} {outcome : op.Result} (h : Keyed s)
    (hexec : LossyExec s op outcome s') : Keyed s' := by
  cases hexec with
  | reported hexec =>
    cases hexec with
    | commit hrun => exact keyed_run h hrun
    | now | abort | send | answerCallback => exact h
  | lost hrun => exact keyed_run h hrun

def deliveryDiscipline (sha256 : Sha256) : Discipline lossySemantics where
  Inv := Keyed
  le _ _ := True
  guard := deliveryGuard sha256
  le_refl _ := trivial
  le_trans _ _ := trivial
  exec_inv h _ hexec := keyed_exec h hexec
  exec_le _ _ _ := trivial
  env_inv := by
    intro s s' h hmove
    cases hmove with
    | wait => exact h
    | pair => exact h
  env_le _ _ := trivial

/-! ## Handlers that neither count, send nor give back -/

def isIdle : Op → Bool
  | .query (.updateDelivery _ .release) | .query (.countSms _ _) | .send _ _ => false
  | _ => true

abbrev Idle {α : Type} (program : RelayProgram α) : Prop := program.Only fun op => isIdle op = true

/-- A trace of idle operations. -/
def Fresh (trace : List RelayEntry) : Prop := ∀ entry ∈ trace, isIdle entry.op = true

variable {trace : List RelayEntry} {s : RelayState}

theorem guard_of_isIdle (trace : List RelayEntry) (s : RelayState) {op : Op}
    (h : isIdle op = true) : deliveryGuard sha256 trace s op := by
  cases op with
  | query statement =>
    cases statement with
    | updateDelivery eventDigest change =>
      cases change with
      | release => cases h
      | _ => trivial
    | countSms => cases h
    | _ => trivial
  | send => cases h
  | now | answerCallback => trivial

theorem Fresh.append {entry : RelayEntry} (h : Fresh trace) (hentry : isIdle entry.op = true) :
    Fresh (trace ++ [entry]) := by
  intro other hother
  rcases List.mem_append.mp hother with hother | hother
  · exact h other hother
  · rw [List.mem_singleton.mp hother]
    exact hentry

theorem sentEvent?_of_isIdle {entry : RelayEntry} (h : isIdle entry.op = true) :
    sentEvent? entry = none := by
  obtain ⟨s, op, outcome⟩ := entry
  cases op with
  | send => cases h
  | query | now | answerCallback => rfl

theorem countedMonth?_of_ne {entry : RelayEntry}
    (h : ∀ month limit, entry.op ≠ .query (.countSms month limit)) : countedMonth? entry = none := by
  obtain ⟨s, op, outcome⟩ := entry
  cases op with
  | query statement =>
    cases statement with
    | countSms month limit => exact absurd rfl (h month limit)
    | _ => rfl
  | now | send | answerCallback => rfl

theorem Fresh.unsent (h : Fresh trace) : Unsent trace :=
  fun entry hentry => sentEvent?_of_isIdle (h entry hentry)

theorem Fresh.uncounted (h : Fresh trace) : Uncounted trace := by
  intro entry hentry
  refine countedMonth?_of_ne fun month limit heq => ?_
  have hidle := h entry hentry
  rw [heq] at hidle
  cases hidle

theorem Fresh.holds (h : Fresh trace) {eventDigest : String}
    (hclaim : ∃ entry ∈ trace, isClaim eventDigest entry) : Holds eventDigest trace := by
  refine ⟨hclaim, fun entry hentry heq => ?_⟩
  have hidle := h entry hentry
  rw [heq] at hidle
  cases hidle

theorem isIdle_of_isQuiet {op : Op} (h : isQuiet op = true) : isIdle op = true := by
  cases op with
  | query statement =>
    cases statement with
    | updateDelivery | countSms => cases h
    | _ => rfl
  | send => cases h
  | now | answerCallback => rfl

theorem Quiet.idle {α : Type} {program : RelayProgram α} (h : Quiet program) : Idle program :=
  h.mono fun _ => isIdle_of_isQuiet

theorem allowsReads_idle : AllowsReads fun op => isIdle op = true where
  now := rfl
  select statement h := by cases statement <;> first | rfl | cases h
  webhook _ _ := rfl
  answer _ _ := rfl

theorem idle_receiveTelnyx {verified : Bool} {body : Option Json} :
    Idle (receiveTelnyx sha256 hmac env verified body) :=
  only_receiveTelnyx allowsReads_idle (fun _ => rfl) fun _ _ _ _ _ => rfl

theorem idle_receiveTelegram {webhookSecret : String} {body : Option Json} :
    Idle (receiveTelegram sha256 hmac env webhookSecret body) :=
  only_receiveTelegram allowsReads_idle fun _ => rfl

/-! ## Submissions -/

abbrev SafeDelivery (sha256 : Sha256) (program : RelayProgram Reply) (trace : List RelayEntry)
    (s : RelayState) : Prop :=
  Safe (deliveryDiscipline sha256) (fun _ _ => True) program trace s

theorem safeDelivery_idle {program : RelayProgram Reply} (h : Idle program) :
    SafeDelivery sha256 program trace s :=
  Safe.of_only (fun trace s _ => guard_of_isIdle trace s) (fun _ _ _ => trivial) h

/-- The request may send a message for the event. -/
def MaySend (sha256 : Sha256) (event : Json) (trace : List RelayEntry) : Prop :=
  Unsent trace ∧ Holds (eventDigestOf sha256 event) trace ∧ Counted event trace

theorem Unsent.append (h : Unsent trace) {rest : List RelayEntry}
    (hrest : ∀ entry ∈ rest, isIdle entry.op = true) : Unsent (trace ++ rest) := by
  intro entry hentry
  rcases List.mem_append.mp hentry with hentry | hentry
  · exact h entry hentry
  · exact sentEvent?_of_isIdle (hrest entry hentry)

theorem Holds.append {eventDigest : String} (h : Holds eventDigest trace) {rest : List RelayEntry}
    (hrest : ∀ entry ∈ rest, ¬ isRelease eventDigest entry) : Holds eventDigest (trace ++ rest) := by
  obtain ⟨⟨claim, hclaim, hclaims⟩, hrelease⟩ := h
  refine ⟨⟨claim, List.mem_append_left _ hclaim, hclaims⟩, fun entry hentry => ?_⟩
  rcases List.mem_append.mp hentry with hentry | hentry
  · exact hrelease entry hentry
  · exact hrest entry hentry

theorem not_isRelease_of_isIdle {entry : RelayEntry} (h : isIdle entry.op = true)
    (eventDigest : String) : ¬ isRelease eventDigest entry := by
  intro heq
  rw [heq] at h
  cases h

theorem MaySend.append {event : Json} (h : MaySend sha256 event trace) {rest : List RelayEntry}
    (hrest : ∀ entry ∈ rest, isIdle entry.op = true) : MaySend sha256 event (trace ++ rest) := by
  obtain ⟨hunsent, hholds, s, month, hcount⟩ := h
  exact ⟨hunsent.append hrest,
    hholds.append fun entry hentry => not_isRelease_of_isIdle (hrest entry hentry) _,
    s, month, List.mem_append_left _ hcount⟩

theorem idle_updateOnce {eventDigest : String} {change : DeliveryChange} {reply reply' : Reply}
    (h : change ≠ .release) :
    Idle (do if ← updateOnce eventDigest change then return reply else return reply') := by
  have honce : Idle (updateOnce eventDigest change) := by
    refine ⟨by cases change <;> first | rfl | exact absurd rfl h, fun outcome => ?_⟩
    cases outcome <;> exact trivial
  refine honce.bind fun success => ?_
  cases success <;> exact trivial

theorem safe_deliverCounted {submission : Submission} {accepted : Reply}
    (h : MaySend sha256 submission.event trace) :
    SafeDelivery sha256 (deliverCounted env submission accepted) trace s := by
  have hsend : ∀ {trace s}, MaySend sha256 submission.event trace →
      Safe (deliveryDiscipline sha256) (fun _ _ => True)
        (Program.perform (Op.send submission.event submission.fixedMessage)) trace s :=
    fun h => Safe.call (fun _ _ _ => h) fun _ _ _ _ _ _ => trivial
  have hdelivery : Safe (deliveryDiscipline sha256) (fun _ _ => True)
      (sendDelivery env submission.event submission.fixedMessage) trace s := by
    unfold sendDelivery
    split
    · have hrecipient : Safe (deliveryDiscipline sha256)
          (fun _ trace => MaySend sha256 submission.event trace) (telegramRecipient env) trace s :=
        Safe.of_only_append (fun trace s _ => guard_of_isIdle trace s)
          (fun _ _ hrest => h.append hrest) (Quiet.idle quiet_telegramRecipient)
      refine hrecipient.bind fun recipient trace s h => ?_
      cases recipient with
      | none => exact trivial
      | some _ => exact hsend h
    · exact hsend h
  refine hdelivery.bind fun delivery trace s _ => safeDelivery_idle ?_
  cases delivery with
  | accepted id => exact idle_updateOnce (by simp)
  | rejected => exact idle_updateOnce (by simp)
  | uncertain => exact trivial

/-- An entry of a statement, with what it returned. -/
abbrev queried (s : RelayState) (statement : Statement) (outcome : Option statement.Value) :
    RelayEntry :=
  ⟨s, .query statement, outcome⟩

theorem safe_deliverClaimed {submission : Submission} {accepted : Reply}
    (hdigest : submission.eventDigest = eventDigestOf sha256 submission.event)
    (hfresh : Fresh trace) (hclaim : ∃ entry ∈ trace, isClaim submission.eventDigest entry) :
    SafeDelivery sha256 (deliverClaimed env submission accepted) trace s := by
  refine Safe.call (fun _ _ _ => trivial) fun s₁ instant s₂ _ _ _ => ?_
  have hfresh : Fresh (trace ++ [⟨s₁, .now, instant⟩]) := hfresh.append rfl
  have hclaim : ∃ entry ∈ trace ++ [(⟨s₁, .now, instant⟩ : RelayEntry)],
      isClaim submission.eventDigest entry :=
    hclaim.imp fun entry hentry => ⟨List.mem_append_left _ hentry.1, hentry.2⟩
  have hholds := hfresh.holds hclaim
  refine Safe.call (fun _ _ _ => ⟨hfresh.uncounted, submission.event, rfl⟩)
    fun s₃ outcome s₄ _ _ _ => ?_
  have hunsent : Unsent (trace ++ [⟨s₁, .now, instant⟩] ++ [queried s₃ _ outcome]) := by
    intro entry hentry
    rcases List.mem_append.mp hentry with hentry | hentry
    · exact hfresh.unsent entry hentry
    · rw [List.mem_singleton.mp hentry]
      rfl
  have hholds : Holds submission.eventDigest
      (trace ++ [⟨s₁, .now, instant⟩] ++ [queried s₃ _ outcome]) := by
    refine hholds.append fun entry hentry heq => ?_
    rw [List.mem_singleton.mp hentry] at heq
    cases heq
  match outcome with
  | none =>
    exact Safe.call (fun _ _ _ => ⟨hholds, hunsent⟩) fun _ _ _ _ _ _ => trivial
  | some changes =>
    change Safe _ _ (if changes ≠ 1 then _ else _) _ _
    split
    · exact safeDelivery_idle (idle_updateOnce (by simp))
    · rename_i hone
      obtain rfl : changes = 1 := not_not.mp hone
      refine safe_deliverCounted ⟨hunsent, hdigest ▸ hholds, s₃,
        String.ofList (Datetime.date instant).monthText, ?_⟩
      exact List.mem_append_right _ (List.mem_singleton.mpr rfl)

theorem safe_deliver {submission : Submission} {prior : Option EventRow}
    (hdigest : submission.eventDigest = eventDigestOf sha256 submission.event)
    (hfresh : Fresh trace) :
    SafeDelivery sha256 (deliver env submission prior) trace s := by
  unfold deliver
  simp only
  split
  · exact trivial
  · split
    · exact safeDelivery_idle (idle_updateOnce (by simp))
    · refine Safe.call (fun _ _ _ => trivial) fun s₁ claimedAt s₂ _ _ _ => ?_
      have hfresh : Fresh (trace ++ [⟨s₁, .now, claimedAt⟩]) := hfresh.append rfl
      refine Safe.call (fun _ _ _ => trivial) fun s₃ outcome s₄ _ _ _ => ?_
      have hfresh : Fresh (trace ++ [⟨s₁, .now, claimedAt⟩] ++ [queried s₃ _ outcome]) :=
        hfresh.append rfl
      match outcome with
      | none => exact trivial
      | some changes =>
        change Safe _ _ (if changes ≠ 1 then _ else _) _ _
        split
        · exact trivial
        · rename_i hone
          obtain rfl : changes = 1 := not_not.mp hone
          refine safe_deliverClaimed hdigest hfresh
            ⟨queried s₃ _ (some 1), ?_, s₃, toISOString claimedAt, rfl⟩
          exact List.mem_append_right _ (List.mem_singleton.mpr rfl)

theorem readSubmission_digest {now : ℤ} {body : Option Json} {submission : Submission}
    (h : readSubmission sha256 now body = .ok submission) :
    submission.eventDigest = eventDigestOf sha256 submission.event := by
  cases body with
  | none => cases h
  | some body =>
    simp only [readSubmission, bind_eq_ok, pure_eq_ok] at h
    obtain ⟨_, _, _, _, _, _, _, _, _, _, _, _, _, _, rfl⟩ := h
    rfl

theorem safeDelivery_acceptEvent {authorization : String} {body : Option Json}
    (hfresh : Fresh trace) :
    SafeDelivery sha256 (acceptEvent sha256 env authorization body) trace s := by
  unfold acceptEvent
  split
  · exact trivial
  have hready : Safe (deliveryDiscipline sha256) (fun _ trace => Fresh trace) (deliveryReady env)
      trace s := by
    refine Safe.of_only (fun trace s _ => guard_of_isIdle trace s) ?_ (Quiet.idle quiet_deliveryReady)
    exact fun _ _ htrace entry hentry => (htrace entry hentry).elim (hfresh entry) id
  refine hready.bind fun ready trace s hfresh => ?_
  cases ready with
  | false => exact trivial
  | true =>
    refine Safe.call (fun _ _ _ => trivial) fun s₁ instant s₂ _ _ _ => ?_
    have hfresh : Fresh (trace ++ [⟨s₁, .now, instant⟩]) := hfresh.append rfl
    dsimp only [Program.bind]
    split
    · exact trivial
    · rename_i submission hsubmission
      have hdigest := readSubmission_digest hsubmission
      refine Safe.call (fun _ _ _ => trivial) fun s₃ outcome s₄ _ _ _ => ?_
      have hfresh : Fresh (trace ++ [⟨s₁, .now, instant⟩] ++ [queried s₃ _ outcome]) :=
        hfresh.append rfl
      match outcome with
      | none => exact trivial
      | some (some prior) =>
        change Safe _ _ (if _ then _ else _) _ _
        split
        · exact trivial
        · exact safe_deliver hdigest hfresh
      | some none =>
        refine Safe.call (fun _ _ _ => trivial) fun s₅ createdAt s₆ _ _ _ => ?_
        refine Safe.call (fun _ _ _ => trivial) fun s₇ inserted s₈ _ _ _ => ?_
        cases inserted with
        | none => exact trivial
        | some changes =>
          change Safe _ _ (deliver env submission none) _ _
          exact safe_deliver hdigest ((hfresh.append rfl).append rfl)

theorem safeDelivery_handle (request : Request) (s : RelayState) :
    SafeDelivery sha256 (handle sha256 hmac env request) [] s := by
  cases request with
  | event => exact safeDelivery_acceptEvent fun _ hentry => absurd hentry List.not_mem_nil
  | telnyx => exact safeDelivery_idle idle_receiveTelnyx
  | telegram => exact safeDelivery_idle idle_receiveTelegram
  | decisions => exact safeDelivery_idle (Quiet.idle quiet_listDecisions)

/-! ## Claims and counts over all requests -/

/-- The attempts that a request has counted under a month. -/
def countsUnder (month : String) (trace : List RelayEntry) : ℕ :=
  trace.countP fun entry => countedMonth? entry = some month

/-- A row whose delivery is not pending. -/
def Taken (database : Database) (eventDigest : String) : Prop :=
  ∃ row ∈ database.events, row.eventDigest = eventDigest ∧ row.deliveryState ≠ .pending

/-- What the traces of all requests say about claims and counts. -/
structure Accounted (s : RelayState) (traces : List (List RelayEntry)) : Prop where
  exclusive : traces.Pairwise fun trace trace' => ∀ eventDigest,
    ¬ (Holds eventDigest trace ∧ Holds eventDigest trace')
  held : ∀ trace ∈ traces, ∀ eventDigest, Holds eventDigest trace → Taken s.database eventDigest
  counted : ∀ month, (traces.map (countsUnder month)).sum ≤ s.database.attempted month
  limited : ∀ month, s.database.attempted month ≤ monthlySmsLimit
  below : ∀ trace ∈ traces, ∀ s₀ month limit, queried s₀ (.countSms month limit) (some 1) ∈ trace →
    0 < limit → s₀.database.attempted month < limit

theorem attempted_countSms (database : Database) (month other : String) (limit : ℕ) :
    (database.countSms month limit).2.attempted other
      = database.attempted other
        + if other = month then (database.countSms month limit).1 else 0 := by
  unfold Database.countSms
  split
  · rename_i hnone
    simp only [Database.attempted, List.find?_append]
    by_cases hother : other = month
    · subst hother
      simp [hnone]
    · have hne : month ≠ other := fun heq => hother heq.symm
      simp [hother, hne]
  · rename_i name attemptedCount hsome
    split
    · have hfind : ∀ rows : List (String × ℕ),
          (rows.map fun row => if row.1 = month then (month, row.2 + 1) else row).find?
              (fun row => row.1 = other)
            = (rows.find? fun row => row.1 = other).map
              fun row => if row.1 = month then (month, row.2 + 1) else row := by
        intro rows
        rw [List.find?_map]
        congr 2
        funext row
        simp only [Function.comp_apply]
        split
        · rename_i hmonth
          rw [hmonth]
        · rfl
      simp only [Database.attempted, hfind]
      by_cases hother : other = month
      · subst hother
        have hname : name = other := by simpa using List.find?_some hsome
        simp [hsome, hname]
      · cases hrow : database.smsMonthly.find? fun row => row.1 = other with
        | none => simp [hother]
        | some row =>
          have hmonth : row.1 = other := by simpa using List.find?_some hrow
          simp [hmonth, hother]
    · simp

/-- An attempt is counted below its limit. -/
theorem attempted_lt {database : Database} {month : String} {limit : ℕ} (hlimit : 0 < limit)
    (h : (database.countSms month limit).1 ≠ 0) : database.attempted month < limit := by
  unfold Database.countSms at h
  unfold Database.attempted
  split at h
  · rename_i hnone
    rw [hnone]
    exact hlimit
  · rename_i name attemptedCount hsome
    split at h
    · rename_i hlt
      rw [hsome]
      exact hlt
    · exact absurd rfl h

theorem countSms_le_one (database : Database) (month : String) (limit : ℕ) :
    (database.countSms month limit).1 ≤ 1 := by
  unfold Database.countSms
  split
  · exact le_rfl
  · split
    · exact le_rfl
    · exact Nat.zero_le 1

/-- Only counting an attempt changes the table of months. -/
theorem smsMonthly_run {database database' : Database} {statement : Statement}
    {value : statement.Value} (hne : ∀ month limit, statement ≠ .countSms month limit)
    (hrun : statement.run database = some (value, database')) :
    database'.smsMonthly = database.smsMonthly := by
  cases statement with
  | countSms month limit => exact absurd rfl (hne month limit)
  | insertEvent new =>
    obtain ⟨row, _, _, _, _, rfl⟩ := Database.insertEvent_eq_some hrun
    rfl
  | insertDecision new =>
    obtain ⟨_, _, _, _, rfl⟩ := Database.insertDecision_eq_some hrun
    rfl
  | finalizeDelivery webhookId processedAt delivered finalStatus messageId =>
    simp only [Statement.run, Database.finalizeDelivery, bind, pure, Option.bind_eq_some_iff,
      Option.guard_eq_some'] at hrun
    obtain ⟨_, _, hrun⟩ := hrun
    cases hrun
    rfl
  | insertWebhook webhookId processedAt =>
    have hdatabase : (database.insertWebhook webhookId processedAt).2 = database' :=
      congrArg Prod.snd (Option.some.inj hrun)
    rw [← hdatabase, Database.insertWebhook]
    split <;> rfl
  | updateDelivery | selectRecipient | selectEvent | selectWebhook | selectByCode
    | selectDecisions =>
    cases hrun
    rfl

theorem Taken.updateEvents {database : Database} {eventDigest : String}
    (h : Taken database eventDigest) {matching : EventRow → Bool} {set : EventRow → EventRow}
    (hset : ∀ row, (set row).eventDigest = row.eventDigest)
    (hkept : ∀ row, matching row = true → row.eventDigest = eventDigest →
      row.deliveryState ≠ .pending → (set row).deliveryState ≠ .pending) :
    Taken (database.updateEvents matching set).2 eventDigest := by
  obtain ⟨row, hrow, hdigest, hstate⟩ := h
  refine ⟨_, List.mem_map_of_mem hrow, ?_⟩
  split
  · rename_i hmatch
    exact ⟨(hset row).trans hdigest, hkept row hmatch hdigest hstate⟩
  · exact ⟨hdigest, hstate⟩

/-- Only giving an event back makes its delivery pending again. -/
theorem Taken.run {database database' : Database} {eventDigest : String} {statement : Statement}
    {value : statement.Value} (h : Taken database eventDigest)
    (hne : statement ≠ .updateDelivery eventDigest .release)
    (hrun : statement.run database = some (value, database')) : Taken database' eventDigest := by
  cases statement with
  | insertEvent new =>
    obtain ⟨row, _, _, _, _, rfl⟩ := Database.insertEvent_eq_some hrun
    exact h.imp fun row hrow => ⟨List.mem_append_left _ hrow.1, hrow.2⟩
  | insertDecision new =>
    obtain ⟨_, _, _, _, rfl⟩ := Database.insertDecision_eq_some hrun
    change Taken (database.updateEvents
      (fun row => row.eventDigest = new.eventDigest && row.state = .pending)
      (fun row => { row with state := .decided })).2 eventDigest
    exact h.updateEvents (fun row => rfl) fun row _ _ hstate => hstate
  | updateDelivery other change =>
    have hdatabase : (database.updateEvents _ _).2 = database' :=
      congrArg Prod.snd (Option.some.inj hrun)
    rw [← hdatabase]
    refine h.updateEvents (fun row => by cases change <;> rfl) fun row hmatch hdigest _ => ?_
    cases change with
    | release =>
      simp only [Bool.and_eq_true, decide_eq_true_eq] at hmatch
      rw [← hmatch.1, hdigest] at hne
      exact absurd rfl hne
    | registerHost | claim | accept | fail => simp [DeliveryChange.set]
  | finalizeDelivery webhookId processedAt delivered finalStatus messageId =>
    simp only [Statement.run, Database.finalizeDelivery, bind, pure, Option.bind_eq_some_iff,
      Option.guard_eq_some'] at hrun
    obtain ⟨_, _, hrun⟩ := hrun
    cases hrun
    have hmarked : Taken (database.addWebhook webhookId processedAt) eventDigest := h
    refine hmarked.updateEvents (fun row => rfl) fun row _ _ _ => ?_
    cases delivered <;> simp
  | countSms month limit =>
    have hdatabase : (database.countSms month limit).2 = database' :=
      congrArg Prod.snd (Option.some.inj hrun)
    rw [← hdatabase, Database.countSms]
    split
    · exact h
    · split <;> exact h
  | insertWebhook webhookId processedAt =>
    have hdatabase : (database.insertWebhook webhookId processedAt).2 = database' :=
      congrArg Prod.snd (Option.some.inj hrun)
    rw [← hdatabase, Database.insertWebhook]
    split <;> exact h
  | selectRecipient | selectEvent | selectWebhook | selectByCode | selectDecisions =>
    cases hrun
    exact h

/-- A claim that changes a row takes an event that was pending. -/
theorem claim_run {database database' : Database} {eventDigest claimedAt : String}
    (hrun : (Statement.updateDelivery eventDigest (.claim claimedAt)).run database
      = some (1, database')) :
    (∃ row ∈ database.events, row.eventDigest = eventDigest ∧ row.deliveryState = .pending)
      ∧ Taken database' eventDigest := by
  have hpair := Option.some.inj hrun
  have hcount : database.events.countP _ = 1 := congrArg Prod.fst hpair
  have hdatabase : (database.updateEvents _ _).2 = database' := congrArg Prod.snd hpair
  obtain ⟨row, hrow, hmatch⟩ := List.countP_pos_iff.mp (hcount ▸ Nat.one_pos)
  have hboth := hmatch
  simp only [DeliveryChange.source, Bool.and_eq_true, decide_eq_true_eq] at hboth
  refine ⟨⟨row, hrow, hboth.1, of_decide_eq_true hboth.2⟩, ?_⟩
  rw [← hdatabase]
  refine ⟨_, List.mem_map_of_mem hrow, ?_⟩
  rw [if_pos hmatch]
  exact ⟨hboth.1, by simp [DeliveryChange.set]⟩

theorem isClaim_of_holds {eventDigest : String} {entry : RelayEntry}
    (h : Holds eventDigest (trace ++ [entry])) :
    ¬ isRelease eventDigest entry ∧ (Holds eventDigest trace ∨ isClaim eventDigest entry) := by
  obtain ⟨⟨claim, hclaim, hclaims⟩, hrelease⟩ := h
  refine ⟨hrelease entry (by simp), ?_⟩
  rcases List.mem_append.mp hclaim with hclaim | hclaim
  · exact .inl ⟨⟨claim, hclaim, hclaims⟩, fun other hother =>
      hrelease other (List.mem_append_left _ hother)⟩
  · rw [List.mem_singleton.mp hclaim] at hclaims
    exact .inr hclaims

/-- What an operation of one request does to the claims. -/
theorem taken_exec {s s' : RelayState} {op : Op} {outcome : op.Result} {eventDigest : String}
    (h : Taken s.database eventDigest)
    (hne : op ≠ .query (.updateDelivery eventDigest .release)) (hexec : LossyExec s op outcome s') :
    Taken s'.database eventDigest := by
  have hrun : ∀ {statement : Statement} {value : statement.Value} {database : Database},
      op = .query statement → statement.run s.database = some (value, database) →
        Taken database eventDigest := by
    rintro statement value database rfl hrun
    exact h.run (fun heq => hne (by rw [heq])) hrun
  cases hexec with
  | reported hexec =>
    cases hexec with
    | commit hcommit => exact hrun rfl hcommit
    | now | abort | send | answerCallback => exact h
  | lost hlost => exact hrun rfl hlost

theorem claim_exec {s s' : RelayState} {entry : RelayEntry} {eventDigest : String}
    (hclaim : isClaim eventDigest entry) (hbefore : entry.before = s)
    (hexec : LossyExec s entry.op entry.outcome s') :
    (∃ row ∈ s.database.events, row.eventDigest = eventDigest ∧ row.deliveryState = .pending)
      ∧ Taken s'.database eventDigest := by
  obtain ⟨s₀, claimedAt, rfl⟩ := hclaim
  cases hbefore
  cases hexec with
  | reported hexec =>
    rcases exec_query hexec with hnone | ⟨value, database, hsome, hrun, rfl⟩
    · cases hnone
    · cases hsome
      exact claim_run hrun

/-- The digests of events are a key, so an event is not both pending and taken. -/
theorem not_taken_of_pending {s : RelayState} (h : Keyed s) {eventDigest : String}
    (hpending : ∃ row ∈ s.database.events,
      row.eventDigest = eventDigest ∧ row.deliveryState = .pending) :
    ¬ Taken s.database eventDigest := by
  rintro ⟨other, hother, hsame, hstate⟩
  obtain ⟨row, hrow, hdigest, hpending⟩ := hpending
  have heq : other = row := List.inj_on_of_nodup_map h hother hrow (hsame.trans hdigest.symm)
  exact hstate (heq ▸ hpending)

theorem mem_replaced {before after : List (List RelayEntry)} {entry : RelayEntry}
    {other : List RelayEntry} (h : other ∈ before ++ (trace ++ [entry]) :: after) :
    other = trace ++ [entry] ∨ other ∈ before ∨ other ∈ after := by
  rcases List.mem_append.mp h with h | h
  · exact .inr (.inl h)
  · rcases List.mem_cons.mp h with h | h
    · exact .inl h
    · exact .inr (.inr h)

/-- Requests other than the one that performs an operation. -/
theorem Accounted.others {before after : List (List RelayEntry)}
    (h : Accounted s (before ++ trace :: after)) {other : List RelayEntry}
    (hother : other ∈ before ∨ other ∈ after) :
    other ∈ before ++ trace :: after ∧ ∀ eventDigest,
      ¬ (Holds eventDigest trace ∧ Holds eventDigest other) := by
  have hpairwise := List.pairwise_append.mp h.exclusive
  rcases hother with hother | hother
  · refine ⟨by simp [hother], fun eventDigest hboth => ?_⟩
    exact hpairwise.2.2 other hother trace (by simp) eventDigest ⟨hboth.2, hboth.1⟩
  · exact ⟨by simp [hother], (List.pairwise_cons.mp hpairwise.2.1).1 other hother⟩

/-- No other request holds what a request holds after its operation. -/
theorem Accounted.exclusive_exec {s s' : RelayState} {before after : List (List RelayEntry)}
    {op : Op} {outcome : op.Result} (h : Accounted s (before ++ trace :: after)) (hkeyed : Keyed s)
    (hexec : LossyExec s op outcome s') {other : List RelayEntry}
    (hother : other ∈ before ∨ other ∈ after) (eventDigest : String)
    (hholds : Holds eventDigest (trace ++ [⟨s, op, outcome⟩])) : ¬ Holds eventDigest other := by
  intro hboth
  obtain ⟨hmem, hexclusive⟩ := h.others hother
  rcases (isClaim_of_holds hholds).2 with hold | hclaim
  · exact hexclusive eventDigest ⟨hold, hboth⟩
  · have hpending := (claim_exec hclaim rfl hexec).1
    exact not_taken_of_pending hkeyed hpending (h.held other hmem eventDigest hboth)

theorem attemptLimit_mem (event : Json) :
    0 < attemptLimit event ∧ attemptLimit event ≤ monthlySmsLimit := by
  unfold attemptLimit
  split <;> simp [monthlySmsLimit, prioritySmsReserve]

/-- The table of months after an attempt under an accepted limit. -/
theorem attempted_counted (database : Database) (month other : String) (event : Json)
    (h : database.attempted other ≤ monthlySmsLimit) :
    (database.countSms month (attemptLimit event)).2.attempted other ≤ monthlySmsLimit := by
  obtain ⟨hpos, hlimit⟩ := attemptLimit_mem event
  rw [attempted_countSms]
  split
  · rename_i hother
    have hone := countSms_le_one database month (attemptLimit event)
    by_cases hzero : (database.countSms month (attemptLimit event)).1 = 0
    · omega
    · have hlt := attempted_lt hpos hzero
      rw [hother]
      omega
  · exact h

/-- An attempt that a request counts is in the table. -/
theorem attempted_exec {s s' : RelayState} {op : Op} {outcome : op.Result} (month : String)
    (hguard : deliveryGuard sha256 trace s op) (hexec : LossyExec s op outcome s') :
    s.database.attempted month
        + (if countedMonth? ⟨s, op, outcome⟩ = some month then 1 else 0)
        ≤ s'.database.attempted month
      ∧ (s.database.attempted month ≤ monthlySmsLimit →
        s'.database.attempted month ≤ monthlySmsLimit) := by
  have hsame : (∀ month limit, op ≠ .query (.countSms month limit)) →
      s'.database.smsMonthly = s.database.smsMonthly →
        s.database.attempted month
            + (if countedMonth? ⟨s, op, outcome⟩ = some month then 1 else 0)
            ≤ s'.database.attempted month
          ∧ (s.database.attempted month ≤ monthlySmsLimit →
            s'.database.attempted month ≤ monthlySmsLimit) := by
    intro hne hsms
    rw [Database.attempted, Database.attempted, hsms, countedMonth?_of_ne hne]
    simp
  cases hexec with
  | reported hexec =>
    cases hexec with
    | now | send | answerCallback => exact hsame (by simp) rfl
    | abort statement =>
      cases statement with
      | countSms other limit => exact ⟨le_rfl, id⟩
      | _ => exact hsame (by simp) rfl
    | @commit statement value database hrun =>
      cases statement with
      | countSms other limit =>
        obtain ⟨_, event, rfl⟩ := hguard
        have hpair := Option.some.inj hrun
        have hvalue : (s.database.countSms other (attemptLimit event)).1 = value :=
          congrArg Prod.fst hpair
        have hdatabase : (s.database.countSms other (attemptLimit event)).2 = database :=
          congrArg Prod.snd hpair
        refine ⟨?_, fun h => hdatabase ▸ attempted_counted s.database other month event h⟩
        rw [← hdatabase, attempted_countSms, hvalue]
        by_cases hone : value = 1
        · subst hone
          simp only [countedMonth?, Option.some.injEq, eq_comm]
          exact le_rfl
        · have hnone : countedMonth? ⟨s, .query (.countSms other (attemptLimit event)),
              some value⟩ = none := by
            unfold countedMonth?
            split
            · rename_i heq
              cases heq
              exact absurd rfl hone
            · rfl
          rw [hnone]
          exact Nat.le_add_right _ _
      | _ => exact hsame (by simp) (smsMonthly_run (by simp) hrun)
  | @lost statement value database hrun =>
    cases statement with
    | countSms other limit =>
      obtain ⟨_, event, rfl⟩ := hguard
      have hdatabase : (s.database.countSms other (attemptLimit event)).2 = database :=
        congrArg Prod.snd (Option.some.inj hrun)
      refine ⟨?_, fun h => hdatabase ▸ attempted_counted s.database other month event h⟩
      rw [← hdatabase, attempted_countSms]
      exact Nat.le_add_right _ _
    | _ => exact hsame (by simp) (smsMonthly_run (by simp) hrun)

theorem Accounted.exec {s s' : RelayState} {before after : List (List RelayEntry)} {op : Op}
    {outcome : op.Result} (h : Accounted s (before ++ trace :: after)) (hkeyed : Keyed s)
    (hguard : deliveryGuard sha256 trace s op) (hexec : LossyExec s op outcome s') :
    Accounted s' (before ++ (trace ++ [⟨s, op, outcome⟩]) :: after) := by
  refine ⟨?_, ?_, ?_, ?_, ?_⟩
  · have hpairwise := List.pairwise_append.mp h.exclusive
    have hafter := List.pairwise_cons.mp hpairwise.2.1
    refine List.pairwise_append.mpr ⟨hpairwise.1, List.pairwise_cons.mpr ⟨?_, hafter.2⟩, ?_⟩
    · intro other hother eventDigest hboth
      exact h.exclusive_exec hkeyed hexec (.inr hother) eventDigest hboth.1 hboth.2
    · intro other hother last hlast eventDigest hboth
      rcases List.mem_cons.mp hlast with rfl | hlast
      · exact h.exclusive_exec hkeyed hexec (.inl hother) eventDigest hboth.2 hboth.1
      · exact hpairwise.2.2 other hother last (List.mem_cons_of_mem _ hlast) eventDigest hboth
  · intro other hother eventDigest hholds
    rcases mem_replaced hother with rfl | hother
    · obtain ⟨hrelease, hold | hclaim⟩ := isClaim_of_holds hholds
      · exact taken_exec (h.held trace (by simp) eventDigest hold) hrelease hexec
      · exact (claim_exec hclaim rfl hexec).2
    · obtain ⟨hmem, hexclusive⟩ := h.others hother
      refine taken_exec (h.held other hmem eventDigest hholds) ?_ hexec
      -- only a request that holds the event gives it back
      rintro rfl
      exact hexclusive eventDigest ⟨hguard.1, hholds⟩
  · intro month
    have hcounted := h.counted month
    have hattempted := (attempted_exec month hguard hexec).1
    rw [List.map_append, List.map_cons, List.sum_append, List.sum_cons] at hcounted ⊢
    have hcounts : countsUnder month (trace ++ [⟨s, op, outcome⟩])
        = countsUnder month trace
          + if countedMonth? ⟨s, op, outcome⟩ = some month then 1 else 0 := by
      rw [countsUnder, List.countP_append, List.countP_singleton]
      simp [countsUnder]
    rw [hcounts]
    omega
  · exact fun month => (attempted_exec month hguard hexec).2 (h.limited month)
  · intro other hother s₀ month limit hcount hlimit
    rcases mem_replaced hother with rfl | hother
    · rcases List.mem_append.mp hcount with hcount | hcount
      · exact h.below trace (by simp) s₀ month limit hcount hlimit
      · cases List.mem_singleton.mp hcount
        cases hexec with
        | reported hexec =>
          rcases exec_query hexec with hnone | ⟨value, database, hsome, hrun, _⟩
          · cases hnone
          · cases hsome
            have hone : (s.database.countSms month limit).1 = 1 :=
              congrArg Prod.fst (Option.some.inj hrun)
            exact attempted_lt hlimit (by omega)
    · exact h.below other (h.others hother).1 s₀ month limit hcount hlimit

theorem Accounted.new {traces : List (List RelayEntry)} (h : Accounted s traces) :
    Accounted s (traces ++ [[]]) := by
  have hnone : ∀ eventDigest, ¬ Holds eventDigest [] :=
    fun eventDigest hholds => hholds.1.elim fun _ hentry => absurd hentry.1 List.not_mem_nil
  refine ⟨?_, ?_, ?_, h.limited, ?_⟩
  · refine List.pairwise_append.mpr ⟨h.exclusive, List.pairwise_singleton _ _, ?_⟩
    intro trace _ other hother eventDigest hboth
    rw [List.mem_singleton.mp hother] at hboth
    exact hnone eventDigest hboth.2
  · intro trace htrace eventDigest hholds
    rcases List.mem_append.mp htrace with htrace | htrace
    · exact h.held trace htrace eventDigest hholds
    · rw [List.mem_singleton.mp htrace] at hholds
      exact absurd hholds (hnone eventDigest)
  · intro month
    have hcounted := h.counted month
    rw [List.map_append, List.sum_append]
    simpa [countsUnder] using hcounted
  · intro trace htrace s₀ month limit hcount
    rcases List.mem_append.mp htrace with htrace | htrace
    · exact h.below trace htrace s₀ month limit hcount
    · rw [List.mem_singleton.mp htrace] at hcount
      exact absurd hcount List.not_mem_nil

/-! ## Messages of one request -/

section

variable {sha256 : Sha256} {trace : List RelayEntry}

/-- A request that sends holds the event, has counted its attempt, and sends once. -/
theorem guarded_send (h : Guarded (deliveryDiscipline sha256) trace) :
    (∀ entry ∈ trace, ∀ event, sentEvent? entry = some event →
        Holds (eventDigestOf sha256 event) trace ∧ Counted event trace)
      ∧ (trace.countP fun entry => (sentEvent? entry).isSome) ≤ 1 := by
  induction trace using List.reverseRecOn with
  | nil => simp
  | append_singleton trace entry ih =>
    obtain ⟨hold, hguard⟩ := h.of_append
    obtain ⟨hsends, hone⟩ := ih hold
    have hcounted : ∀ {event}, Counted event trace → Counted event (trace ++ [entry]) :=
      fun ⟨s, month, hcount⟩ => ⟨s, month, List.mem_append_left _ hcount⟩
    rw [List.countP_append, List.countP_singleton]
    cases hsent : sentEvent? entry with
    | none =>
      refine ⟨fun other hother event hevent => ?_, by simpa using hone⟩
      rcases List.mem_append.mp hother with hother | hother
      · obtain ⟨hholds, hcount⟩ := hsends other hother event hevent
        refine ⟨hholds.append fun last hlast hrelease => ?_, hcounted hcount⟩
        -- the guard of a release refuses a trace with a message
        rw [List.mem_singleton.mp hlast] at hrelease
        have hunsent : Holds _ trace ∧ Unsent trace := hrelease ▸ hguard
        rw [hunsent.2 other hother] at hevent
        cases hevent
      · rw [List.mem_singleton.mp hother, hsent] at hevent
        cases hevent
    | some sent =>
      obtain ⟨s, op, outcome⟩ := entry
      cases op with
      | query | now | answerCallback => cases hsent
      | send event text =>
        cases hsent
        obtain ⟨hunsent, hholds, hcount⟩ := hguard
        have hzero : (trace.countP fun entry => (sentEvent? entry).isSome) = 0 := by
          rw [List.countP_eq_zero]
          intro other hother
          simp [hunsent other hother]
        refine ⟨fun other hother event' hevent => ?_, by simp [hzero]⟩
        rcases List.mem_append.mp hother with hother | hother
        · rw [hunsent other hother] at hevent
          cases hevent
        · rw [List.mem_singleton.mp hother] at hevent
          cases hevent
          refine ⟨hholds.append fun last hlast hrelease => ?_, hcounted hcount⟩
          rw [List.mem_singleton.mp hlast] at hrelease
          cases hrelease

/-- A request counts its attempt once, under the month of its delivery. -/
theorem guarded_count (h : Guarded (deliveryDiscipline sha256) trace) :
    ∀ entry ∈ trace, ∀ month, countedMonth? entry = some month →
      deliveryMonth? trace = some month := by
  induction trace using List.reverseRecOn with
  | nil => simp
  | append_singleton trace entry ih =>
    obtain ⟨hold, hguard⟩ := h.of_append
    intro other hother month hmonth
    rw [deliveryMonth?, List.findSome?_append]
    rcases List.mem_append.mp hother with hother | hother
    · have hfound := ih hold other hother month hmonth
      rw [deliveryMonth?] at hfound
      rw [hfound]
      rfl
    · rw [List.mem_singleton.mp hother] at hmonth
      have huncounted : Uncounted trace := by
        obtain ⟨s, op, outcome⟩ := entry
        by_cases hop : ∃ month limit, op = .query (.countSms month limit)
        · obtain ⟨_, _, rfl⟩ := hop
          exact hguard.1
        · have hnone : countedMonth? (⟨s, op, outcome⟩ : RelayEntry) = none :=
            countedMonth?_of_ne fun month limit heq => hop ⟨month, limit, heq⟩
          rw [hnone] at hmonth
          cases hmonth
      have hnone : trace.findSome? countedMonth? = none := List.findSome?_eq_none_iff.mpr huncounted
      rw [hnone, Option.none_or, List.findSome?_singleton, hmonth]

theorem sendsOf_le (eventDigest : String) :
    sendsOf sha256 eventDigest trace ≤ trace.countP fun entry => (sentEvent? entry).isSome := by
  apply List.countP_mono_left
  intro entry _ hsent
  cases hevent : sentEvent? entry with
  | none => simp [hevent] at hsent
  | some event => rfl

theorem sendsOf_eq_zero (h : Guarded (deliveryDiscipline sha256) trace) {eventDigest : String}
    (hholds : ¬ Holds eventDigest trace) : sendsOf sha256 eventDigest trace = 0 := by
  rw [sendsOf, List.countP_eq_zero]
  intro entry hentry hsent
  obtain ⟨event, hevent, hdigest⟩ := Option.any_eq_true _ _ |>.mp hsent
  have hheld := ((guarded_send h).1 entry hentry event hevent).1
  rw [of_decide_eq_true hdigest] at hheld
  exact hholds hheld

/-- A request sends no more messages under a month than it counts attempts. -/
theorem sendsUnder_le (h : Guarded (deliveryDiscipline sha256) trace) (month : String) :
    sendsUnder month trace ≤ countsUnder month trace := by
  unfold sendsUnder
  split
  · rename_i hmonth
    obtain ⟨entry, hentry, hcounted⟩ := List.exists_of_findSome?_eq_some hmonth
    have hpos : 0 < countsUnder month trace :=
      List.countP_pos_iff.mpr ⟨entry, hentry, by simpa using hcounted⟩
    exact (guarded_send h).2.trans hpos
  · exact Nat.zero_le _

end

/-- Of values that are at most one and of which no two are positive, the sum is at most one. -/
theorem sum_le_one {α : Type} {holds : α → Prop} {f : α → ℕ} {items : List α}
    (hexclusive : items.Pairwise fun item other => ¬ (holds item ∧ holds other))
    (hone : ∀ item ∈ items, f item ≤ 1) (hzero : ∀ item ∈ items, ¬ holds item → f item = 0) :
    (items.map f).sum ≤ 1 := by
  induction items with
  | nil => simp
  | cons item items ih =>
    obtain ⟨hitem, hitems⟩ := List.pairwise_cons.mp hexclusive
    have hrest := ih hitems (fun other hother => hone other (List.mem_cons_of_mem _ hother))
      fun other hother => hzero other (List.mem_cons_of_mem _ hother)
    rw [List.map_cons, List.sum_cons]
    by_cases hholds : holds item
    · have hnone : (items.map f).sum = 0 := by
        rw [List.sum_eq_zero]
        intro n hn
        obtain ⟨other, hother, rfl⟩ := List.mem_map.mp hn
        exact hzero other (List.mem_cons_of_mem _ hother) fun h => hitem other hother ⟨hholds, h⟩
      have hle := hone item List.mem_cons_self
      omega
    · have hnone := hzero item List.mem_cons_self hholds
      omega

/-! ## Runs -/

/-- The systems that the relay reaches when a statement that fails may have committed. -/
def LossyReachable (sha256 : Sha256) (hmac : Hmac) (env : Env) (sys : RelaySystem) : Prop :=
  ∃ clock, Relation.ReflTransGen (System.Step lossySemantics (Starts sha256 hmac env))
    ⟨⟨.empty, clock⟩, []⟩ sys

theorem LossyReachable.traced {sys : RelaySystem} (h : LossyReachable sha256 hmac env sys) :
    System.Traced (deliveryDiscipline sha256) (fun _ _ => True) Accounted sys := by
  obtain ⟨clock, h⟩ := h
  have hempty : Accounted ⟨.empty, clock⟩ [] := by
    constructor <;> simp [Database.empty, Database.attempted]
  refine System.traced_reachable List.nodup_nil hempty ?_ ?_ ?_ ?_ h
  · rintro program ⟨request, rfl⟩ s _
    exact safeDelivery_handle request s
  · exact fun s traces haccounted => haccounted.new
  · intro s before trace after op outcome s' hkeyed haccounted hguard hexec
    exact haccounted.exec hkeyed hguard hexec
  · intro s traces s' _ haccounted hmove
    cases hmove with
    | wait | pair =>
      exact ⟨haccounted.exclusive, haccounted.held, haccounted.counted, haccounted.limited,
        haccounted.below⟩

/-- What holds of the messages in a system of requests. -/
structure DeliveriesSafe (sha256 : Sha256) (sys : RelaySystem) : Prop where
  once : ∀ eventDigest,
    (sys.threads.map fun thread => sendsOf sha256 eventDigest thread.trace).sum ≤ 1
  monthly : ∀ month, (sys.threads.map fun thread => sendsUnder month thread.trace).sum ≤ 200
  preceded : ∀ thread ∈ sys.threads, ∀ before s event text delivery after,
    thread.trace = before ++ ⟨s, .send event text, delivery⟩ :: after →
      Holds (eventDigestOf sha256 event) before
        ∧ ∃ s₀ month limit, queried s₀ (.countSms month limit) (some 1) ∈ before
          ∧ deliveryMonth? thread.trace = some month
          ∧ s₀.database.attempted month < limit
          ∧ limit = if isPriorityEvent event then 200 else 180
  exclusive : sys.threads.Pairwise fun thread other => ∀ eventDigest,
    ¬ (Holds eventDigest thread.trace ∧ Holds eventDigest other.trace)

/-- However requests interleave, whichever statements fail and whatever the provider answers, a
message is sent for an event at most once, at most two hundred times in a month, and only by the
request that holds the claim of the event. -/
theorem deliveries_safe (sha256 : Sha256) (hmac : Hmac) (env : Env) (sys : RelaySystem)
    (h : LossyReachable sha256 hmac env sys) : DeliveriesSafe sha256 sys := by
  have htraced := h.traced
  have hexclusive := List.pairwise_map.mp htraced.history.exclusive
  refine ⟨?_, ?_, ?_, hexclusive⟩
  · intro eventDigest
    refine sum_le_one (hexclusive.imp fun h => h eventDigest) ?_ ?_
    · intro thread hthread
      exact (sendsOf_le eventDigest).trans (guarded_send (htraced.guarded thread hthread)).2
    · intro thread hthread hholds
      exact sendsOf_eq_zero (htraced.guarded thread hthread) hholds
  · intro month
    have hle : (sys.threads.map fun thread => sendsUnder month thread.trace).sum
        ≤ (sys.threads.map fun thread => countsUnder month thread.trace).sum := by
      apply List.sum_le_sum
      intro thread hthread
      exact sendsUnder_le (htraced.guarded thread hthread) month
    have hcounted := htraced.history.counted month
    rw [List.map_map] at hcounted
    exact hle.trans (hcounted.trans (htraced.history.limited month))
  · intro thread hthread before s event text delivery after htrace
    obtain ⟨_, hholds, s₀, month, hcount⟩ :=
      htraced.guarded thread hthread before _ after htrace
    have hmem : queried s₀ (.countSms month (attemptLimit event)) (some 1) ∈ thread.trace := by
      rw [htrace]
      exact List.mem_append_left _ hcount
    refine ⟨hholds, s₀, month, attemptLimit event, hcount, ?_, ?_, rfl⟩
    · exact guarded_count (htraced.guarded thread hthread) _ hmem month rfl
    · exact htraced.history.below thread.trace (List.mem_map_of_mem hthread) s₀ month _ hmem
        (attemptLimit_mem event).1

theorem lossy_of_reachable {sys : RelaySystem} (h : RelayReachable sha256 hmac env sys) :
    LossyReachable sha256 hmac env sys := by
  obtain ⟨clock, h⟩ := h
  refine ⟨clock, h.lift id fun sys sys' hstep => ?_⟩
  cases hstep with
  | start hstart => exact .start hstart
  | env hmove => exact .env hmove
  | run hexec => exact .run (.reported hexec)

/-- The event of the sample is sent once, although it is submitted twice. -/
theorem deliveries_safe_sample :
    ((playRequests zeroSha256 zeroHmac sampleEnv
        [.event ("Bearer " ++ sampleToken) (some sampleSubmission),
          .event ("Bearer " ++ sampleToken) (some sampleSubmission)]
        ⟨⟨.empty, sampleClock⟩, []⟩).threads.map fun thread =>
          thread.trace.countP fun entry => (sentEvent? entry).isSome) = [1, 0]
      ∧ DeliveriesSafe zeroSha256 (playRequests zeroSha256 zeroHmac sampleEnv
        [.event ("Bearer " ++ sampleToken) (some sampleSubmission),
          .event ("Bearer " ++ sampleToken) (some sampleSubmission)]
        ⟨⟨.empty, sampleClock⟩, []⟩) := by
  refine ⟨by decide +kernel, ?_⟩
  exact deliveries_safe zeroSha256 zeroHmac sampleEnv _
    (lossy_of_reachable (playRequests_reachable _ _ _ _ _))

end IouAi.Relay
