import IouAi.Foundations.JsonText
import IouAi.Wire.Projection
import IouAi.Wire.Texts

/-!
# The event projector

A run of the projector fills the outbox (prompts, thresholds, counters) and only then replaces the
file of the baseline. It can be killed while it puts its events, where it may leave a torn file in
the outbox, and while the temporary of the baseline exists. Every later run raises at a torn file and
at a temporary that has been left behind.
-/

namespace IouAi.Wire

open Calendar

variable {sha256 : Sha256}

/-! ## Packets -/

structure OutcomeClassSummary where
  outcomeClass : String
  count : ℕ
  deriving DecidableEq

/-- What the projector reads of a telemetry packet. -/
structure TelemetryPacket where
  campaignId : Identifier
  packetHash : Digest
  targetHashes : TargetHashes
  outcomeClasses : List OutcomeClassSummary
  deriving DecidableEq

inductive ProjectorError
  | projection (error : ProjectionError)
  | duplicateCounter
  | tornEvent
  | staleTemporary
  deriving DecidableEq

namespace TelemetryPacket

variable (packet : TelemetryPacket)

/-- `_counter`: a class that is absent has not been seen. -/
def counter (name : String) : Except ProjectorError ℕ :=
  match (packet.outcomeClasses.filter fun item => item.outcomeClass = name).map
      OutcomeClassSummary.count with
  | [] => .ok 0
  | [value] => .ok value
  | _ => .error .duplicateCounter

def snapshot : Except ProjectorError CounterSnapshot := do
  let crashCount ← packet.counter "saved_crash"
  let hangCount ← packet.counter "saved_hang"
  return {
    campaignId := packet.campaignId
    telemetryPacketDigest := packet.packetHash
    targetHashes := packet.targetHashes
    crashCount := crashCount
    hangCount := hangCount }

end TelemetryPacket

theorem TelemetryPacket.snapshot_eq {packet : TelemetryPacket} {current : CounterSnapshot}
    (h : packet.snapshot = .ok current) :
    current.campaignId = packet.campaignId ∧ current.telemetryPacketDigest = packet.packetHash
      ∧ current.targetHashes = packet.targetHashes := by
  unfold TelemetryPacket.snapshot at h
  cases hcrash : packet.counter "saved_crash" with
  | error error =>
    rw [hcrash] at h
    cases h
  | ok crashCount =>
    cases hhang : packet.counter "saved_hang" with
    | error error =>
      rw [hcrash, hhang] at h
      cases h
    | ok hangCount =>
      rw [hcrash, hhang] at h
      cases h
      exact ⟨rfl, rfl, rfl⟩

/-! ## Runs -/

/-- What a run reads: the items of the projectors of prompts, the status of the budget, the packet,
the configured lifetime of prompts, the clock at each projector and the random bytes of the two
projectors of prompts. -/
structure ProjectorInput where
  quarantine : List (Option QuarantineItem)
  candidates : List (Option CandidateItem)
  status : Budget.BudgetStatus
  packet : TelemetryPacket
  decisionTtl : ℤ
  clock : Fin 4 → Datetime
  nonces : Fin 2 → ℕ → Vector UInt8 32

/-- How many events a run has projected. -/
structure Projected where
  proposals : ℕ
  executions : ℕ
  budgets : ℕ
  counters : ℕ
  deriving DecidableEq

/-- What follows a projector, which does not run when the projector has raised. -/
def thenProject {α : Type}
    (result : Outbox sha256 × Except ProjectionError (List (RedactedEvent sha256)))
    (next : Outbox sha256 → ℕ → Outbox sha256 × Except ProjectorError α) :
    Outbox sha256 × Except ProjectorError α :=
  match result with
  | (outbox, .error error) => (outbox, .error (.projection error))
  | (outbox, .ok events) => next outbox events.length

/-- The time at which the counters are compared. -/
abbrev ProjectorInput.counterClock (input : ProjectorInput) : Datetime := input.clock 3

/-- The projectors of a run in their order, with the snapshot that is the next baseline. -/
def projectAll (input : ProjectorInput) (outbox : Outbox sha256)
    (previous : Option CounterSnapshot) :
    Outbox sha256 × Except ProjectorError (CounterSnapshot × Projected) :=
  thenProject (projectQuarantine input.quarantine outbox (input.clock 0) (input.nonces 0)
    input.decisionTtl) fun outbox proposals =>
  thenProject (projectExecutionReady input.candidates outbox (input.clock 1) (input.nonces 1)
    input.decisionTtl) fun outbox executions =>
  thenProject (projectBudgetStatus input.status outbox (input.clock 2)) fun outbox budgets =>
  match input.packet.snapshot with
  | .error error => (outbox, .error error)
  | .ok current =>
    thenProject (projectCounterSnapshot previous current outbox (input.clock 3))
      fun outbox counters => (outbox, .ok (current, ⟨proposals, executions, budgets, counters⟩))

/-- The outbox, with a torn file when a run was killed while it wrote one, the file of the baseline
and its temporary. -/
structure ProjectorState (sha256 : Sha256) where
  outbox : Outbox sha256
  torn : Bool
  baseline : Option CounterSnapshot
  temporary : Bool

/-- `project`: the result of a run that is not killed. -/
def project (state : ProjectorState sha256) (input : ProjectorInput) :
    ProjectorState sha256 × Except ProjectorError Projected :=
  if state.torn then (state, .error .tornEvent)
  else
    match projectAll input state.outbox state.baseline with
    | (outbox, .error error) => ({ state with outbox := outbox }, .error error)
    | (outbox, .ok (current, projected)) =>
      if state.temporary then ({ state with outbox := outbox }, .error .staleTemporary)
      else ({ state with
        outbox := outbox
        baseline := some current }, .ok projected)

/-- Where a run is killed: after some of its events are in the outbox, perhaps while it writes the
next, or while the temporary of the baseline exists. -/
inductive Kill
  | putting (events : ℕ) (tears : Bool)
  | replacing
  deriving DecidableEq

/-- A run that is killed. Nothing is left to kill when the run has raised before. -/
def killed (state : ProjectorState sha256) (input : ProjectorInput) : Kill → ProjectorState sha256
  | .putting events tears =>
    if state.torn then state
    else
      let outbox := (projectAll input state.outbox state.baseline).1
      { state with
        outbox := outbox.take (state.outbox.length + events)
        torn := tears && state.outbox.length + events < outbox.length }
  | .replacing =>
    match (project state input).2 with
    | .error _ => (project state input).1
    | .ok _ => { (project state input).1 with
      baseline := state.baseline
      temporary := true }

structure ProjectorRun where
  input : ProjectorInput
  kill : Option Kill

def runProjector (state : ProjectorState sha256) (run : ProjectorRun) : ProjectorState sha256 :=
  match run.kill with
  | none => (project state run.input).1
  | some kill => killed state run.input kill

/-! ## What the projectors put -/

/-- The outbox has grown by events of one kind. -/
def Extends (P : RedactedEvent sha256 → Prop) (outbox outbox' : Outbox sha256) : Prop :=
  ∃ events, outbox' = outbox ++ events ∧ ∀ event ∈ events, P event

section Extends

variable {P : RedactedEvent sha256 → Prop} {outbox outbox' outbox'' : Outbox sha256}

theorem Extends.refl : Extends P outbox outbox := ⟨[], by simp⟩

theorem Extends.trans (h : Extends P outbox outbox') (h' : Extends P outbox' outbox'') :
    Extends P outbox outbox'' := by
  obtain ⟨events, rfl, hevents⟩ := h
  obtain ⟨events', rfl, hevents'⟩ := h'
  refine ⟨events ++ events', by simp, fun event hevent => ?_⟩
  rcases List.mem_append.mp hevent with hevent | hevent
  · exact hevents event hevent
  · exact hevents' event hevent

theorem putEvent_extends {event : RedactedEvent sha256} (h : putEvent outbox event = .ok outbox')
    (hP : P event) : Extends P outbox outbox' := by
  unfold putEvent at h
  split at h
  · cases h
    exact ⟨[event], rfl, by simpa using hP⟩
  · split at h
    · cases h
      exact .refl
    · cases h

theorem loop_extends {α : Type} (prompter : Prompter sha256 α)
    (hP : ∀ item nonce, P (prompter.prompt item nonce)) {current : Datetime}
    {nonces : ℕ → Vector UInt8 32} {items : List (Option α)}
    {challenges : List (Digest × ApprovalChallenge)} {drawn : ℕ} :
    Extends P outbox (prompter.loop current nonces items challenges outbox drawn).1 := by
  induction items generalizing challenges outbox drawn with
  | nil => exact .refl
  | cons item items ih =>
    cases item with
    | none => exact .refl
    | some item =>
      rw [Prompter.loop]
      split
      · exact ih
      · simp only
        split
        · exact .refl
        · exact ih
        · split
          · exact .refl
          · rename_i outbox' hput
            exact (putEvent_extends hput (hP item _)).trans ih

theorem projectPrompts_extends {α : Type} {prompter : Datetime → Prompter sha256 α}
    (hP : ∀ expiry item nonce, P ((prompter expiry).prompt item nonce)) {items : List (Option α)}
    {current : Datetime} {nonces : ℕ → Vector UInt8 32} {decisionTtl : ℤ} :
    Extends P outbox (projectPrompts prompter items outbox current nonces decisionTtl).1 := by
  unfold projectPrompts
  split
  · exact .refl
  · split
    · exact .refl
    · exact loop_extends _ (hP _)

theorem projectKeyed_extends {α : Type} {isProjected : Outbox sha256 → α → Bool}
    {event? : α → Option (RedactedEvent sha256)}
    (hP : ∀ item event, event? item = some event → P event) {items : List α} :
    Extends P outbox (projectKeyed isProjected event? items outbox).1 := by
  induction items generalizing outbox with
  | nil => exact .refl
  | cons item items ih =>
    rw [projectKeyed]
    split
    · exact ih
    · split
      · exact .refl
      · rename_i event hevent
        split
        · exact .refl
        · rename_i outbox' hput
          exact (putEvent_extends hput (hP item event hevent)).trans ih

end Extends

/-! ## Alerts -/

/-- The alerts of a counter, in the order in which they were put. -/
def alerts (counter : Counter) (outbox : Outbox sha256) : List CounterIncreaseEvent :=
  outbox.filterMap fun
    | .counterIncrease event => if event.counter = counter then some event else none
    | _ => none

variable {counter : Counter} {outbox outbox' : Outbox sha256} {event : CounterIncreaseEvent}

theorem mem_alerts : event ∈ alerts counter outbox
    ↔ .counterIncrease event ∈ outbox ∧ event.counter = counter := by
  rw [alerts, List.mem_filterMap]
  constructor
  · rintro ⟨other, hother, heq⟩
    split at heq
    · split at heq
      · cases heq
        exact ⟨hother, ‹_›⟩
      · cases heq
    · cases heq
  · rintro ⟨hevent, hcounter⟩
    exact ⟨_, hevent, if_pos hcounter⟩

theorem alerts_append (events : Outbox sha256) :
    alerts counter (outbox ++ events) = alerts counter outbox ++ alerts counter events :=
  List.filterMap_append

theorem alerts_prefix (h : outbox <+: outbox') : alerts counter outbox <+: alerts counter outbox' := by
  obtain ⟨events, rfl⟩ := h
  exact ⟨_, (alerts_append events).symm⟩

/-- Events that are no alert. -/
def IsOther : RedactedEvent sha256 → Prop
  | .counterIncrease _ => False
  | _ => True

theorem alerts_eq_of_extends (h : Extends IsOther outbox outbox') :
    alerts counter outbox' = alerts counter outbox := by
  obtain ⟨events, rfl, hevents⟩ := h
  have hnil : alerts counter events = [] := by
    rw [List.eq_nil_iff_forall_not_mem]
    exact fun event hevent => hevents _ (mem_alerts.mp hevent).1
  rw [alerts_append, hnil, List.append_nil]

theorem isCounterProjected_iff {current : CounterSnapshot} :
    isCounterProjected current outbox counter = true
      ↔ ∃ event ∈ alerts counter outbox, event.campaignId = current.campaignId
        ∧ event.telemetryPacketDigest = current.telemetryPacketDigest := by
  rw [isCounterProjected, List.any_eq_true]
  constructor
  · rintro ⟨event, hevent, hkey⟩
    split at hkey
    · simp only [Bool.and_eq_true, decide_eq_true_eq] at hkey
      exact ⟨_, mem_alerts.mpr ⟨hevent, hkey.1.1⟩, hkey.1.2, hkey.2⟩
    · cases hkey
  · rintro ⟨event, hevent, hcampaign, hdigest⟩
    obtain ⟨hevent, hcounter⟩ := mem_alerts.mp hevent
    exact ⟨_, hevent, by simp [hcounter, hcampaign, hdigest]⟩

/-! ## Putting an alert -/

theorem plain_toJson (event : RedactedEvent sha256) : event.toJson.Plain := by
  cases event <;> simp [RedactedEvent.toJson, ProposalQuarantinedEvent.toJson,
    ExecutionReadyEvent.toJson, BudgetThresholdEvent.toJson, CounterIncreaseEvent.toJson,
    CrashTriageEvent.toJson, TargetHashes.toJson, ApprovalChallenge.toJson,
    PromotionScope.toJson, Json.Plain, Json.PlainFields, Json.PlainItems]

/-- The canonical JSON of an alert tells its counter, its campaign and its packet. -/
theorem counterIncrease_of_canonicalJson_eq {other : RedactedEvent sha256}
    (h : canonicalJson other.toJson = canonicalJson event.toJson) :
    ∃ alert, other = .counterIncrease alert ∧ alert.counter = event.counter
      ∧ alert.campaignId = event.campaignId
      ∧ alert.telemetryPacketDigest = event.telemetryPacketDigest := by
  have hencode := encode_eq_of_canonicalJson_eq h
  have hplain := plain_toJson other
  have hplain' : event.toJson.Plain := plain_toJson (.counterIncrease event : RedactedEvent sha256)
  have hstr : ∀ {fields : List (String × Json)}, other.toJson = .obj fields →
      ∀ {key text text'}, Json.lookup fields key = some (.str text) →
        event.toJson.field? key = some (.str text') → text = text' := by
    intro fields hfields key text text' htext htext'
    rw [hfields] at hencode hplain
    exact Json.lookup_str_eq hplain hplain' hencode htext htext'
  have hkinds : event.counter.eventKind = "crash_counter_increase"
      ∨ event.counter.eventKind = "hang_counter_increase" := by
    cases event.counter
    · exact .inl rfl
    · exact .inr rfl
  have hkind : event.toJson.field? "event_kind" = some (.str event.counter.eventKind) := rfl
  have hcampaign : event.toJson.field? "campaign_id" = some (.str event.campaignId) := rfl
  have hdigest : event.toJson.field? "telemetry_packet_digest"
      = some (.str event.telemetryPacketDigest) := rfl
  cases other with
  | counterIncrease alert =>
    have hcounter : alert.counter.eventKind = event.counter.eventKind := hstr rfl rfl hkind
    refine ⟨alert, rfl, ?_, Subtype.ext (hstr rfl rfl hcampaign),
      Subtype.ext (hstr rfl rfl hdigest)⟩
    cases halert : alert.counter <;> cases hevent : event.counter <;>
      simp [halert, hevent, Counter.eventKind] at hcounter ⊢
  | proposalQuarantined other =>
    have hother : "proposal_quarantined" = event.counter.eventKind := hstr rfl rfl hkind
    simp [← hother] at hkinds
  | executionReady other =>
    have hother : "execution_ready" = event.counter.eventKind := hstr rfl rfl hkind
    simp [← hother] at hkinds
  | budgetThreshold other =>
    have hother : "budget_threshold" = event.counter.eventKind := hstr rfl rfl hkind
    simp [← hother] at hkinds
  | crashTriage other =>
    have hother : "crash_triage" = event.counter.eventKind := hstr rfl rfl hkind
    simp [← hother] at hkinds

/-- An alert that has not been put under its key goes to the end of the outbox. -/
theorem putEvent_counterIncrease
    (hnew : ∀ alert ∈ alerts event.counter outbox, ¬(alert.campaignId = event.campaignId
      ∧ alert.telemetryPacketDigest = event.telemetryPacketDigest))
    (hput : putEvent outbox (.counterIncrease event) = .ok outbox') :
    outbox' = outbox ++ [.counterIncrease event] := by
  unfold putEvent at hput
  split at hput
  · cases hput
    rfl
  · rename_i other hother
    split at hput
    · rename_i heq
      obtain ⟨alert, rfl, hcounter, hkey⟩ := counterIncrease_of_canonicalJson_eq heq
      have hmem := mem_alerts.mpr ⟨List.mem_of_find?_eq_some hother, hcounter⟩
      exact absurd hkey (hnew alert hmem)
    · cases hput

/-! ## The projector of counters -/

variable {previous current : CounterSnapshot} {createdAt : Datetime}

/-- The alert of a counter that has grown since the baseline. -/
theorem counterEvent?_eq_some (h : counterEvent? previous current createdAt counter = some event) :
    event.counter = counter ∧ event.campaignId = current.campaignId
      ∧ event.telemetryPacketDigest = current.telemetryPacketDigest
      ∧ event.previousCount = previous.count counter
      ∧ event.currentCount = current.count counter := by
  unfold counterEvent? at h
  split at h
  · cases h
    exact ⟨rfl, rfl, rfl, rfl, rfl⟩
  · cases h

/-- The alert of the packet is the only new one of the counter. -/
def Alerted (previous current : CounterSnapshot) (createdAt : Datetime) (counter : Counter)
    (before after : List CounterIncreaseEvent) : Prop :=
  ∃ event, counterEvent? previous current createdAt counter = some event ∧ after = before ++ [event]

theorem isCounterProjected_congr (h : alerts counter outbox' = alerts counter outbox) :
    isCounterProjected current outbox' counter = isCounterProjected current outbox counter := by
  rw [Bool.eq_iff_iff, isCounterProjected_iff, isCounterProjected_iff, h]

theorem alerts_concat : alerts counter (outbox ++ [.counterIncrease event])
    = if event.counter = counter then alerts counter outbox ++ [event]
      else alerts counter outbox := by
  rw [alerts_append]
  by_cases h : event.counter = counter
  · simp [alerts, h]
  · simp [alerts, h]

theorem putEvent_counterEvent? (hprojected : isCounterProjected current outbox counter = false)
    (hevent : counterEvent? previous current createdAt counter = some event)
    (hput : putEvent outbox (.counterIncrease event) = .ok outbox') :
    outbox' = outbox ++ [.counterIncrease event] := by
  obtain ⟨hcounter, hcampaign, hdigest, -, -⟩ := counterEvent?_eq_some hevent
  refine putEvent_counterIncrease (fun alert halert hkey => ?_) hput
  rw [hcounter] at halert
  rw [hcampaign, hdigest] at hkey
  exact Bool.false_ne_true (hprojected.symm.trans (isCounterProjected_iff.mpr ⟨alert, halert, hkey⟩))

/-- The loop over the counters alerts each of them at most once, unless the packet has an alert of
it, and does not leave one out unless it raises. -/
theorem alerts_projectKeyed {items : List Counter} (hnodup : items.Nodup)
    {result : Outbox sha256 × Except ProjectionError (List (RedactedEvent sha256))}
    (hresult : projectKeyed (isCounterProjected current)
      (fun counter => (counterEvent? previous current createdAt counter).map .counterIncrease)
      items outbox = result) :
    (alerts counter result.1 = alerts counter outbox
      ∨ counter ∈ items ∧ isCounterProjected current outbox counter = false
        ∧ Alerted previous current createdAt counter (alerts counter outbox)
          (alerts counter result.1))
    ∧ ((∃ events, result.2 = .ok events) → counter ∈ items →
      isCounterProjected current outbox counter = true
        ∨ Alerted previous current createdAt counter (alerts counter outbox)
          (alerts counter result.1)) := by
  induction items generalizing outbox result with
  | nil =>
    subst hresult
    exact ⟨.inl rfl, fun _ hmem => absurd hmem List.not_mem_nil⟩
  | cons item items ih =>
    obtain ⟨hitem, hnodup⟩ := List.nodup_cons.mp hnodup
    rw [projectKeyed] at hresult
    split at hresult
    · rename_i hprojected
      obtain ⟨hput, hleft⟩ := ih hnodup hresult
      refine ⟨hput.imp_right fun h => ⟨List.mem_cons_of_mem _ h.1, h.2⟩, fun hok hmem => ?_⟩
      rcases List.mem_cons.mp hmem with rfl | hmem
      · exact .inl hprojected
      · exact hleft hok hmem
    · rename_i hprojected
      rw [Bool.not_eq_true] at hprojected
      cases hevent : counterEvent? previous current createdAt item with
      | none =>
        rw [hevent] at hresult
        subst hresult
        refine ⟨.inl rfl, ?_⟩
        rintro ⟨events, hevents⟩
        cases hevents
      | some event =>
        rw [hevent] at hresult
        simp only [Option.map_some] at hresult
        cases hput : putEvent outbox (.counterIncrease event) with
        | error error =>
          rw [hput] at hresult
          subst hresult
          refine ⟨.inl rfl, ?_⟩
          rintro ⟨events, hevents⟩
          cases hevents
        | ok outbox' =>
          rw [hput] at hresult
          have hconcat : alerts counter outbox' = if item = counter
              then alerts counter outbox ++ [event] else alerts counter outbox := by
            rw [putEvent_counterEvent? hprojected hevent hput, alerts_concat,
              (counterEvent?_eq_some hevent).1]
          subst hresult
          obtain ⟨hrest, hleft⟩ := @ih outbox' hnodup _ rfl
          by_cases hcounter : item = counter
          · -- the rest of the loop has no item of this counter
            subst hcounter
            have halerted := hrest.resolve_right fun h => hitem h.1
            rw [hconcat, if_pos rfl] at halerted
            exact ⟨.inr ⟨List.mem_cons_self, hprojected, event, hevent, halerted⟩,
              fun _ _ => .inr ⟨event, hevent, halerted⟩⟩
          · rw [if_neg hcounter] at hconcat
            rw [hconcat, isCounterProjected_congr hconcat] at hrest hleft
            refine ⟨hrest.imp_right fun h => ⟨List.mem_cons_of_mem _ h.1, h.2⟩, ?_⟩
            rintro ⟨events, hok⟩ hmem
            refine hleft ?_ ((List.mem_cons.mp hmem).resolve_left (Ne.symm hcounter))
            cases hresult : (projectKeyed (isCounterProjected current)
                (fun counter => (counterEvent? previous current createdAt counter).map
                  .counterIncrease) items outbox').2 with
            | ok events => exact ⟨events, rfl⟩
            | error error =>
              simp only [hresult] at hok
              cases hok

/-- The packet is of the campaign and the target of the baseline, and no counter has decreased. -/
structure Grows (previous current : CounterSnapshot) : Prop where
  campaignId : previous.campaignId = current.campaignId
  targetHashes : previous.targetHashes = current.targetHashes
  count : ∀ counter, previous.count counter ≤ current.count counter

theorem projectCounterSnapshot_of_grows (h : Grows previous current) :
    projectCounterSnapshot (some previous) current outbox createdAt
      = projectKeyed (isCounterProjected current)
        (fun counter => (counterEvent? previous current createdAt counter).map .counterIncrease)
        ([Counter.crash, Counter.hang].filter fun counter =>
          previous.count counter < current.count counter) outbox := by
  have hcrash := h.count .crash
  have hhang := h.count .hang
  simp only [CounterSnapshot.count] at hcrash hhang
  rw [projectCounterSnapshot, if_neg]
  rw [not_or, not_or, not_or, not_not, not_not, not_lt, not_lt]
  exact ⟨h.campaignId, h.targetHashes, hcrash, hhang⟩

theorem alerts_projectCounterSnapshot (h : Grows previous current) {counter : Counter}
    {result : Outbox sha256 × Except ProjectionError (List (RedactedEvent sha256))}
    (hresult : projectCounterSnapshot (some previous) current outbox createdAt = result) :
    (alerts counter result.1 = alerts counter outbox
      ∨ previous.count counter < current.count counter
        ∧ isCounterProjected current outbox counter = false
        ∧ Alerted previous current createdAt counter (alerts counter outbox)
          (alerts counter result.1))
    ∧ ((∃ events, result.2 = .ok events) → previous.count counter < current.count counter →
      isCounterProjected current outbox counter = true
        ∨ Alerted previous current createdAt counter (alerts counter outbox)
          (alerts counter result.1)) := by
  rw [projectCounterSnapshot_of_grows h] at hresult
  have hmem : ∀ counter, counter ∈ [Counter.crash, Counter.hang].filter (fun counter =>
      previous.count counter < current.count counter)
        ↔ previous.count counter < current.count counter := by
    intro counter
    rw [List.mem_filter, decide_eq_true_eq, and_iff_right]
    cases counter <;> decide
  have hspec := @alerts_projectKeyed _ counter outbox previous current createdAt _
    (List.Nodup.filter _ (by decide)) result hresult
  rwa [hmem counter] at hspec

/-! ## A whole run -/

theorem thenProject_extends {α : Type} {P : RedactedEvent sha256 → Prop}
    {result : Outbox sha256 × Except ProjectionError (List (RedactedEvent sha256))}
    {next : Outbox sha256 → ℕ → Outbox sha256 × Except ProjectorError α}
    (hresult : Extends P outbox result.1) {Q : Outbox sha256 × Except ProjectorError α → Prop}
    (hraised : ∀ before error, Extends P outbox before → Q (before, .error error))
    (hnext : ∀ before n, Extends P outbox before → Q (next before n)) :
    Q (thenProject result next) := by
  obtain ⟨before, result⟩ := result
  cases result with
  | error error => exact hraised before _ hresult
  | ok events => exact hnext before _ hresult

/-- A run puts events that are no alerts and then, unless it has raised, the alerts of its
packet. -/
def PutsInOrder (input : ProjectorInput) (outbox : Outbox sha256)
    (previous : Option CounterSnapshot)
    (result : Outbox sha256 × Except ProjectorError (CounterSnapshot × Projected)) : Prop :=
  ∃ before, Extends IsOther outbox before
    ∧ ((∃ error, result = (before, .error error))
      ∨ ∃ current, input.packet.snapshot = .ok current ∧ ∃ projected : ℕ → Projected, result
        = thenProject (projectCounterSnapshot previous current before (input.clock 3))
          fun outbox counters => (outbox, .ok (current, projected counters)))

theorem putsInOrder_projectAll (input : ProjectorInput) (outbox : Outbox sha256)
    (previous : Option CounterSnapshot) :
    PutsInOrder input outbox previous (projectAll input outbox previous) := by
  have hraised : ∀ before error, Extends IsOther outbox before →
      PutsInOrder input outbox previous (before, .error error) :=
    fun before error hbefore => ⟨before, hbefore, .inl ⟨error, rfl⟩⟩
  rw [projectAll]
  refine thenProject_extends (projectPrompts_extends fun _ _ _ => trivial) hraised ?_
  intro before proposals hbefore
  refine thenProject_extends (hbefore.trans (projectPrompts_extends fun _ _ _ => trivial))
    hraised ?_
  intro before executions hbefore
  refine thenProject_extends (hbefore.trans (projectKeyed_extends ?_)) hraised ?_
  · intro threshold event hevent
    obtain ⟨budget, -, rfl⟩ := Option.map_eq_some_iff.mp hevent
    trivial
  · intro before budgets hbefore
    cases hsnapshot : input.packet.snapshot with
    | error error => exact hraised before error hbefore
    | ok current => exact ⟨before, hbefore, .inr ⟨current, hsnapshot, _, rfl⟩⟩

end IouAi.Wire
