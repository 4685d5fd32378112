import IouAi.Budget.Closings
import IouAi.Pipeline.Planner

/-!
# Failing over from one provider to the next

The candidates are called in order, until one of them answers or raises what no other provider can
help with (`FailoverLaw`). Every call that has made a reservation closes it, and the one terminal
event of the reservation charges what came of the call (`Attempt.SettledOnce`).
-/

namespace IouAi.Pipeline

open Calendar Checks Runs Budget Wire

variable {sha256 : Sha256} {uuid4 : ℕ → String} {pipeline : ShadowPipeline}
  {arguments : PlannerArguments} {ledger ledger' ledger'' : Ledger}

/-! ## What a call is charged -/

/-- The provider declined: it refused, or answered with an HTTP error that is not retryable. -/
def Raised.declined : Raised → Bool
  | .provider failure => failure.isRefusal || failure.statusCode?.any fun status => !retryable status
  | _ => false

/-- Nothing for a call that was declined, the price of a usage that adds up, else the whole
reservation. -/
def chargeFor (policy : PricingPolicy) (reserved : ℕ) : Except Raised ProviderResult → ℕ
  | .error raised => if raised.declined then 0 else reserved
  | .ok result =>
    match result.usage with
    | some usage =>
      if usage.cachedInputTokens ≤ usage.inputTokens then
        policy.price usage.inputTokens usage.outputTokens usage.cachedInputTokens
      else reserved
    | none => reserved

/-- The terminal event that closes a call, and the usage that it is given. -/
def closingOf : Except Raised ProviderResult → EventType × Usage
  | .ok result => (.settle, usageOf result.usage)
  | .error raised =>
    if raised.declined then (.settle, ⟨.int 0, .int 0, .int 0⟩)
    else (.abandon, ⟨.other, .other, .other⟩)

theorem closingOf_ne_reserve (generated : Except Raised ProviderResult) :
    (closingOf generated).1 ≠ .reserve := by
  cases generated with
  | ok result => simp [closingOf]
  | error raised => cases hdeclined : raised.declined <;> simp [closingOf, hdeclined]

theorem abandon_eq_close {reservationId reason : String} {now : Budget.Timestamp}
    (hreason : ¬ (isBlank reason ∨ 500 < reason.length)) :
    abandon uuid4 ledger reservationId reason now true
      = close uuid4 ledger reservationId .abandon ⟨.other, .other, .other⟩ now true :=
  raiseIf_bind_of_not hreason

/-- The branches of the two handlers, as one choice of the terminal event. -/
theorem closeReservation_eq {reservationId : String} {generated : Except Raised ProviderResult}
    {now : Budget.Timestamp} :
    closeReservation uuid4 ledger reservationId generated now
      = close uuid4 ledger reservationId (closingOf generated).1 (closingOf generated).2 now
          true := by
  have huncertain : ¬ (isBlank "provider call failed or completion state was uncertain"
      ∨ 500 < "provider call failed or completion state was uncertain".length) := by
    decide +kernel
  have hretryable : ¬ (isBlank "retryable provider HTTP error with uncertain state"
      ∨ 500 < "retryable provider HTTP error with uncertain state".length) := by
    decide +kernel
  cases generated with
  | ok result => rfl
  | error raised =>
    cases raised with
    | provider failure =>
      cases failure with
      | http status | authentication status | rateLimit status =>
        by_cases hstatus : retryable status = true
        · simp [closeReservation, closingOf, Raised.declined, ProviderFailure.statusCode?,
            ProviderFailure.isRefusal, hstatus, abandon_eq_close hretryable]
        · simp [closeReservation, closingOf, Raised.declined, ProviderFailure.statusCode?,
            ProviderFailure.isRefusal, hstatus, settle]
      | refusal => rfl
      | error | transport | timeout | connection | protocol | state | incomplete =>
        exact abandon_eq_close huncertain
    | budget | pipeline | rejected | blank | other => exact abandon_eq_close huncertain

theorem validUsage_usageOf (usage : TokenUsage) :
    validUsage (usageOf (some usage))
      = if usage.cachedInputTokens ≤ usage.inputTokens then
          some ⟨usage.inputTokens, usage.outputTokens, usage.cachedInputTokens⟩
        else none := by
  simp [validUsage, usageOf]

/-- The terminal event of a reservation charges what came of the call. -/
theorem charge_closingOf {request : ReserveRequest} {instant : Datetime} {amount charged : ℕ}
    {reservationId eventId : String} {tokens : Option TokenCounts}
    {generated : Except Raised ProviderResult}
    (hprovider : request.policy.provider = request.provider)
    (hmodel : request.policy.model = request.model)
    (h : charge (closingOf generated).1 (closingOf generated).2
      (reserveRow request instant amount reservationId eventId) = .ok (charged, tokens)) :
    charged = chargeFor request.policy amount generated := by
  have hsettle : ∀ {usage : Usage} {counts : TokenCounts}, validUsage usage = some counts →
      charge .settle usage (reserveRow request instant amount reservationId eventId)
        = .ok (charged, tokens) →
      charged = request.policy.price counts.inputTokens counts.outputTokens
        counts.cachedInputTokens := by
    intro usage counts hvalid hcharge
    simp only [charge, if_true, hvalid, bind_eq_ok, pure_eq_ok, Prod.mk.injEq] at hcharge
    obtain ⟨_, hquote, rfl, -⟩ := hcharge
    exact quoteUsage_reserveRow hprovider hmodel hquote
  cases generated with
  | error raised =>
    rw [chargeFor]
    rw [closingOf] at h
    by_cases hdeclined : raised.declined = true
    · rw [if_pos hdeclined] at h ⊢
      rw [hsettle rfl h]
      simp [PricingPolicy.price, ceilRate, tokensPerMillion]
    · rw [if_neg hdeclined] at h ⊢
      cases h
      rfl
  | ok result =>
    rw [chargeFor]
    rw [closingOf] at h
    cases husage : result.usage with
    | none =>
      rw [husage] at h
      cases h
      rfl
    | some usage =>
      rw [husage] at h
      have hvalid := validUsage_usageOf usage
      by_cases hle : usage.cachedInputTokens ≤ usage.inputTokens
      · rw [if_pos hle] at hvalid
        simp only [if_pos hle]
        exact hsettle hvalid h
      · rw [if_neg hle] at hvalid
        simp only [if_neg hle]
        simp only [charge, if_true, hvalid] at h
        cases h
        rfl

/-! ## Calls -/

/-- A ledger that some calls have come after. -/
structure Later (uuid4 : ℕ → String) (ledger ledger' : Ledger) : Prop where
  grows : Grows uuid4 ledger ledger'
  inserts : Inserts ledger.rows ledger'.rows

namespace Later

theorem refl (ledger : Ledger) : Later uuid4 ledger ledger :=
  ⟨Grows.refl ledger, Relation.ReflTransGen.refl⟩

theorem trans (h : Later uuid4 ledger ledger') (h' : Later uuid4 ledger' ledger'') :
    Later uuid4 ledger ledger'' := ⟨h.grows.trans h'.grows, h.inserts.trans h'.inserts⟩

theorem runCalls (config : BudgetConfig) (calls : List Call) :
    Later uuid4 ledger (runCalls config uuid4 ledger calls) :=
  ⟨runCalls_grows calls, runCalls_inserts calls⟩

theorem reserve {config : BudgetConfig} {request : ReserveRequest} {reservation : Reservation}
    (h : Budget.reserve config uuid4 ledger request = .ok (ledger', reservation)) :
    Later uuid4 ledger ledger' := ⟨reserve_grows h, reserve_inserts h⟩

theorem closeReservation {reservationId : String} {generated : Except Raised ProviderResult}
    {now : Budget.Timestamp} {settlement : Settlement}
    (h : closeReservation uuid4 ledger reservationId generated now = .ok (ledger', settlement)) :
    Later uuid4 ledger ledger' := by
  rw [closeReservation_eq] at h
  exact ⟨close_grows (closingOf_ne_reserve generated) h, close_inserts h⟩

end Later

/-- No field of the request is blank. -/
structure PlannerArguments.Presentable (arguments : PlannerArguments) : Prop where
  systemPrompt : isBlank arguments.systemPrompt = false
  inputText : isBlank arguments.inputText = false
  schemaName : isBlank arguments.schemaName = false
  principalId : isBlank arguments.principalId = false

theorem isBlank_append {text : String} (h : isBlank text = false) (text' : String) :
    isBlank (text ++ text') = false := by
  rw [isBlank, String.toList_append, List.all_append, Bool.and_eq_false_iff]
  exact .inl h

/-- So it is with the arguments of `run`, whose instructions are not blank. -/
theorem presentable_runArguments {plannerInstructions : String}
    (h : isBlank plannerInstructions = false) (telemetryText contractText fleetId : String)
    (schema : Json) :
    (runArguments sha256 plannerInstructions telemetryText contractText fleetId
      schema).Presentable where
  systemPrompt := h
  inputText := by
    have hfirst : isBlank "<TELEMETRY_DATA>\n" = false := by decide +kernel
    exact isBlank_append (isBlank_append (isBlank_append (isBlank_append hfirst _) _) _) _
  schemaName := by
    have hname : isBlank "io_uring_fuzz_plan_v1" = false := by decide +kernel
    exact hname
  principalId := by
    have hfirst : isBlank "principal-" = false := by decide +kernel
    exact isBlank_append hfirst _

theorem exists_make (harguments : arguments.Presentable) (requestKey : String) :
    ∃ request, ProviderRequest.make arguments.systemPrompt arguments.inputText arguments.schema
      arguments.schemaName (clientId requestKey) arguments.principalId = .ok request := by
  have hfirst : isBlank "planner-" = false := by decide +kernel
  have hclient : isBlank (clientId requestKey) = false := isBlank_append hfirst _
  refine ⟨⟨arguments.systemPrompt, arguments.inputText, arguments.schema, arguments.schemaName,
    clientId requestKey, arguments.principalId⟩, ?_⟩
  simp only [ProviderRequest.make, raiseIf_bind_eq_ok, pure_eq_ok, harguments.systemPrompt,
    harguments.inputText, harguments.schemaName, harguments.principalId, hclient]
  decide

/-- In the ledger with these rows, the reservation of a call has one terminal event, which charges
what the adapter made of the request, unless closing the reservation failed. -/
def Attempt.SettledOnce (rows : List Row) (attempt : Attempt) : Prop :=
  ∀ reservation, attempt.reservation = some reservation →
    (∀ error, attempt.closing ≠ some (.error error)) →
      ∃ policy request terminal, attempt.candidate.provider.pricingPolicy = .ok policy
        ∧ attempt.generated = some (attempt.candidate.generate request)
        ∧ (∀ raised, attempt.candidate.generate request = .error raised →
            attempt.outcome = .error raised)
        ∧ terminalsOf rows reservation.reservationId = [terminal]
        ∧ terminal.amount
            = chargeFor policy reservation.reserved (attempt.candidate.generate request)

theorem Attempt.SettledOnce.later {attempt : Attempt} (h : attempt.SettledOnce ledger.rows)
    (hlater : Later uuid4 ledger ledger') : attempt.SettledOnce ledger'.rows := by
  intro reservation hreservation hclosing
  obtain ⟨policy, request, terminal, hpolicy, hgenerated, houtcome, hterminal, hamount⟩ :=
    h reservation hreservation hclosing
  exact ⟨policy, request, terminal, hpolicy, hgenerated, houtcome,
    hlater.inserts.terminalsOf hterminal, hamount⟩

theorem settledOnce_stopped (rows : List Row) (candidate : Candidate) (raised : Raised) :
    (Attempt.stopped candidate raised).SettledOnce rows := by
  rintro reservation ⟨⟩

/-- What closes a reservation, after whatever calls, charges what came of the call. -/
theorem terminalsOf_closeReservation {config : BudgetConfig} {request : ReserveRequest}
    {reservation : Reservation} {generated : Except Raised ProviderResult}
    {now : Budget.Timestamp} {settlement : Settlement} {closed : Ledger}
    (hbefore : Grows uuid4 Ledger.empty ledger)
    (hreserve : Budget.reserve config uuid4 ledger request = .ok (ledger', reservation))
    (hlater : Later uuid4 ledger' ledger'')
    (hclose : closeReservation uuid4 ledger'' reservation.reservationId generated now
      = .ok (closed, settlement)) (huuid : Set.InjOn uuid4 (Set.Iio closed.drawn)) :
    ∃ terminal, terminalsOf closed.rows reservation.reservationId = [terminal]
      ∧ terminal.amount = chargeFor request.policy reservation.reserved generated := by
  have hdrawn := (Later.closeReservation hclose).grows.drawn
  rw [closeReservation_eq] at hclose
  obtain ⟨found, terminal, tokens, hactive, hcharge, hterminal, -⟩ :=
    terminalsOf_close (closingOf_ne_reserve generated) hclose
  obtain ⟨instant, amount, -, hprovider, hmodel, hreserved, rfl⟩ :=
    activeReservation_of_reserve hbefore hreserve hlater.grows
      (huuid.mono (Set.Iio_subset_Iio hdrawn)) hactive
  refine ⟨terminal, hterminal, ?_⟩
  rw [hreserved]
  exact charge_closingOf hprovider hmodel hcharge

theorem call_later (candidate : Candidate) (surroundings : Surroundings) :
    Later uuid4 ledger
      (call sha256 uuid4 pipeline arguments candidate surroundings ledger).1 := by
  unfold call
  split
  · exact Later.refl ledger
  · split
    · exact Later.refl ledger
    · have hearlier : Later uuid4 ledger
          (runCalls pipeline.budget uuid4 ledger surroundings.before) := Later.runCalls _ _
      simp only
      split
      · exact hearlier
      · rename_i reserved reservation hreserve
        obtain ⟨_, -, hreserve⟩ := bind_eq_ok.mp hreserve
        have hreserved := (hearlier.trans (Later.reserve hreserve)).trans
          (Later.runCalls pipeline.budget surroundings.during)
        split
        · exact hreserved
        · split
          · exact hreserved
          · rename_i hclose
            exact hreserved.trans (Later.closeReservation hclose)

/-- Every path out of a call closes its reservation. -/
theorem call_settledOnce (harguments : arguments.Presentable)
    (hbefore : Grows uuid4 Ledger.empty ledger) (candidate : Candidate)
    (surroundings : Surroundings)
    (huuid : Set.InjOn uuid4 (Set.Iio
      (call sha256 uuid4 pipeline arguments candidate surroundings ledger).1.drawn)) :
    (call sha256 uuid4 pipeline arguments candidate surroundings ledger).2.SettledOnce
      (call sha256 uuid4 pipeline arguments candidate surroundings ledger).1.rows := by
  unfold call at huuid ⊢
  split
  · exact settledOnce_stopped _ _ _
  · rename_i hsize
    rw [if_neg hsize] at huuid
    split
    · exact settledOnce_stopped _ _ _
    · rename_i policy hpolicy
      simp only [hpolicy] at huuid ⊢
      split
      · exact settledOnce_stopped _ _ _
      · rename_i reserved reservation hreserve
        simp only [hreserve] at huuid
        obtain ⟨_, -, hreserve⟩ := bind_eq_ok.mp hreserve
        obtain ⟨request, hrequest⟩ := exists_make harguments reservation.requestKey
        simp only [hrequest] at huuid ⊢
        split
        · rename_i error herror
          rintro _ - hclosing
          exact absurd rfl (hclosing error)
        · rename_i closed settlement hclose
          simp only [hclose] at huuid
          rintro _ ⟨⟩ -
          have hearlier : Grows uuid4 Ledger.empty
              (runCalls pipeline.budget uuid4 ledger surroundings.before) :=
            hbefore.trans (runCalls_grows _)
          obtain ⟨terminal, hterminal, hamount⟩ := terminalsOf_closeReservation hearlier hreserve
            (Later.runCalls pipeline.budget surroundings.during) hclose huuid
          refine ⟨policy, request, terminal, hpolicy, rfl, ?_, hterminal, hamount⟩
          intro raised hraised
          have hgenerated : candidate.generate request = .error raised := hraised
          change callOutcome pipeline (candidate.generate request) settlement = _
          rw [hgenerated]
          rfl

/-! ## Runs -/

/-- The candidates are called in order. A call that has another one after it raised an exception
that advances, the last one decides the value, and the candidates are exhausted only where every
one of them raised an exception that advances. -/
structure FailoverLaw (candidates : List Candidate) (run : PlannerRun) : Prop where
  called : run.attempts.map Attempt.candidate <+: candidates
  advanced : ∀ attempt ∈ run.attempts.dropLast, ∃ raised : Raised,
    attempt.outcome = .error raised ∧ raised.advances = true
  value : run.attempts.getLast?.map Attempt.outcome = some run.value
  exhausted : ∀ raised : Raised, run.value = .error raised → raised.advances = true →
    run.attempts.map Attempt.candidate = candidates

theorem call_candidate (candidate : Candidate) (surroundings : Surroundings) :
    (call sha256 uuid4 pipeline arguments candidate surroundings ledger).2.candidate
      = candidate := by
  unfold call
  split
  · rfl
  · split
    · rfl
    · simp only
      split
      · rfl
      · split
        · rfl
        · split <;> rfl

/-- A call that is the last one, by its own outcome. -/
theorem FailoverLaw.singleton {candidate : Candidate} {rest : List Candidate} {attempt : Attempt}
    {value : Except Raised CallResult} (hcandidate : attempt.candidate = candidate)
    (houtcome : attempt.outcome = value)
    (hlast : ∀ raised : Raised, value = .error raised → raised.advances = true → rest = []) :
    FailoverLaw (candidate :: rest) ⟨ledger, [attempt], value⟩ where
  called := by simp [hcandidate]
  advanced := by simp
  value := by simp [houtcome]
  exhausted raised hraised hadvances := by simp [hcandidate, hlast raised hraised hadvances]

/-- A call that raised an exception that advances, before the calls of the other candidates. -/
theorem FailoverLaw.cons {candidate : Candidate} {rest : List Candidate} {attempt : Attempt}
    {run : PlannerRun} {raised : Raised} (h : FailoverLaw rest run)
    (hcandidate : attempt.candidate = candidate) (houtcome : attempt.outcome = .error raised)
    (hadvances : raised.advances = true) :
    FailoverLaw (candidate :: rest) ⟨run.ledger, attempt :: run.attempts, run.value⟩ := by
  have hne : run.attempts ≠ [] := by
    intro hnil
    have hvalue := h.value
    rw [hnil] at hvalue
    cases hvalue
  refine ⟨?called, ?advanced, ?value, ?exhausted⟩
  case called =>
    rw [List.map_cons, hcandidate]
    exact (List.prefix_cons_inj candidate).mpr h.called
  case advanced =>
    rw [List.dropLast_cons_of_ne_nil hne]
    intro other hother
    rcases List.mem_cons.mp hother with rfl | hother
    · exact ⟨raised, houtcome, hadvances⟩
    · exact h.advanced other hother
  case value =>
    rw [List.getLast?_cons_of_ne_nil hne]
    exact h.value
  case exhausted =>
    intro last hlast hlastAdvances
    rw [List.map_cons, hcandidate, h.exhausted last hlast hlastAdvances]

theorem callCandidates_law (surroundings : ℕ → Surroundings) (i : ℕ) (candidate : Candidate)
    (rest : List Candidate) (lastError : Option Raised) (ledger : Ledger) :
    FailoverLaw (candidate :: rest) (callCandidates sha256 uuid4 pipeline arguments surroundings i
      (candidate :: rest) lastError ledger) := by
  induction rest generalizing i candidate lastError ledger with
  | nil =>
    rw [callCandidates]
    split
    · rename_i value hvalue
      exact .singleton (call_candidate candidate _) hvalue fun raised hraised => nomatch hraised
    · rename_i raised hraised
      split
      · exact .singleton (call_candidate candidate _) hraised fun _ _ _ => rfl
      · exact .singleton (call_candidate candidate _) hraised fun _ _ _ => rfl
  | cons next rest ih =>
    rw [callCandidates]
    split
    · rename_i value hvalue
      exact .singleton (call_candidate candidate _) hvalue fun raised hraised => nomatch hraised
    · rename_i raised hraised
      split
      · rename_i hadvances
        exact (ih (i + 1) next _ _).cons (call_candidate candidate _) hraised hadvances
      · rename_i hadvances
        refine .singleton (call_candidate candidate _) hraised fun raised' heq hadvances' => ?_
        cases heq
        exact absurd hadvances' hadvances

theorem callCandidates_later (surroundings : ℕ → Surroundings) (i : ℕ)
    (candidates : List Candidate) (lastError : Option Raised) (ledger : Ledger) :
    Later uuid4 ledger (callCandidates sha256 uuid4 pipeline arguments surroundings i candidates
      lastError ledger).ledger := by
  induction candidates generalizing i lastError ledger with
  | nil => exact Later.refl ledger
  | cons candidate rest ih =>
    have hcall : Later uuid4 ledger
        (call sha256 uuid4 pipeline arguments candidate (surroundings i) ledger).1 :=
      call_later candidate _
    rw [callCandidates]
    split
    · exact hcall
    · split
      · exact hcall.trans (ih _ _ _)
      · exact hcall

theorem callCandidates_settledOnce (harguments : arguments.Presentable)
    (surroundings : ℕ → Surroundings) (i : ℕ) (candidates : List Candidate)
    (lastError : Option Raised) (ledger : Ledger) (hbefore : Grows uuid4 Ledger.empty ledger)
    (huuid : Set.InjOn uuid4 (Set.Iio (callCandidates sha256 uuid4 pipeline arguments surroundings
      i candidates lastError ledger).ledger.drawn)) :
    ∀ attempt ∈ (callCandidates sha256 uuid4 pipeline arguments surroundings i candidates lastError
      ledger).attempts, attempt.SettledOnce (callCandidates sha256 uuid4 pipeline arguments
        surroundings i candidates lastError ledger).ledger.rows := by
  induction candidates generalizing i lastError ledger with
  | nil => exact fun attempt hattempt => absurd hattempt List.not_mem_nil
  | cons candidate rest ih =>
    have hcall : Later uuid4 ledger
        (call sha256 uuid4 pipeline arguments candidate (surroundings i) ledger).1 :=
      call_later candidate _
    simp only [callCandidates] at huuid ⊢
    cases houtcome : (call sha256 uuid4 pipeline arguments candidate (surroundings i)
        ledger).2.outcome with
    | ok value =>
      simp only [houtcome] at huuid ⊢
      intro attempt hattempt
      rw [List.mem_singleton.mp hattempt]
      exact call_settledOnce harguments hbefore candidate _ huuid
    | error raised =>
      simp only [houtcome] at huuid ⊢
      by_cases hadvances : raised.advances = true
      · simp only [if_pos hadvances] at huuid ⊢
        have hrest : Later uuid4
            (call sha256 uuid4 pipeline arguments candidate (surroundings i) ledger).1
            (callCandidates sha256 uuid4 pipeline arguments surroundings (i + 1) rest (some raised)
              (call sha256 uuid4 pipeline arguments candidate (surroundings i) ledger).1).ledger :=
          callCandidates_later surroundings _ _ _ _
        intro attempt hattempt
        rcases List.mem_cons.mp hattempt with rfl | hattempt
        · have hdrawn := hrest.grows.drawn
          have hsettled := call_settledOnce harguments hbefore candidate _
            (huuid.mono (Set.Iio_subset_Iio hdrawn))
          exact hsettled.later hrest
        · exact ih (i + 1) (some raised) _ (hbefore.trans hcall.grows) huuid attempt hattempt
      · simp only [if_neg hadvances] at huuid ⊢
        intro attempt hattempt
        rw [List.mem_singleton.mp hattempt]
        exact call_settledOnce harguments hbefore candidate _ huuid

/-- In every run, among whatever calls of other processes, the candidates are called in order, and
every reservation that the run made has for good one terminal event, which charges nothing, the
whole reservation or the price of the usage, as the answer of the adapter has it. -/
theorem callPlanner_law {before later : List Call} {surroundings : ℕ → Surroundings}
    {run : PlannerRun} (harguments : arguments.Presentable)
    (hrun : callPlanner sha256 uuid4 pipeline arguments surroundings
      (runCalls pipeline.budget uuid4 Ledger.empty before) = run)
    (huuid : Set.InjOn uuid4 (Set.Iio run.ledger.drawn)) :
    FailoverLaw pipeline.candidates run
      ∧ ∀ attempt ∈ run.attempts,
          attempt.SettledOnce (runCalls pipeline.budget uuid4 run.ledger later).rows := by
  subst hrun
  refine ⟨callCandidates_law surroundings 0 _ _ _ _, fun attempt hattempt => ?_⟩
  have hsettled := callCandidates_settledOnce harguments surroundings 0 pipeline.candidates none _
    (runCalls_grows before) huuid attempt hattempt
  exact hsettled.later (Later.runCalls _ later)

/-! ## A refusal and an answer -/

def sampleProvider (name : String) (policy : PricingPolicy) : ProviderConfig where
  name := name
  model := "planner"
  pricingVersion := "v1"
  maxInputTokens := 1000
  maxOutputTokens := 500
  reasoningEffort := "high"
  requestTimeoutSeconds := 300
  pricingPolicy := .ok policy

/-- The prices of the sample, from another provider. -/
def fallbackPolicy : PricingPolicy :=
  { samplePolicy with
    provider := "anthropic"
    names_nonblank := by decide }

/-- The planner declines with status 400, and the fallback answers. -/
def samplePipeline : ShadowPipeline where
  budget :=
    { sampleConfig with
      monthlyCallQuotas := [(("openai", "planner"), 2), (("anthropic", "planner"), 2)]
      quotas_nonblank := by decide }
  maxPacketBytes := 100000
  maxResponseBytes := 100000
  planner := ⟨fun _ => .error (.provider (.http 400)), sampleProvider "openai" samplePolicy⟩
  plannerFallbacks := [⟨fun _ => .ok ⟨some 100, some ⟨1000, 500, 0⟩⟩,
    sampleProvider "anthropic" fallbackPolicy⟩]

def sampleArguments : PlannerArguments :=
  runArguments (fun _ => Vector.replicate 32 0) "plan" "telemetry" "contract" "fleet" .null

def sampleSurroundings (_ : ℕ) : Surroundings :=
  ⟨[], [], sampleInstant, sampleInstant, .absent, .absent⟩

def samplePlannerRun : PlannerRun :=
  callPlanner (fun _ => Vector.replicate 32 0) sampleUuid4 samplePipeline sampleArguments
    sampleSurroundings Ledger.empty

theorem callPlanner_law_sample :
    (terminals samplePlannerRun.ledger.rows).map Row.amount = [0, 1250]
      ∧ FailoverLaw samplePipeline.candidates samplePlannerRun
      ∧ ∀ attempt ∈ samplePlannerRun.attempts,
          attempt.SettledOnce samplePlannerRun.ledger.rows := by
  refine ⟨by decide +kernel, ?_⟩
  have hpresentable : sampleArguments.Presentable :=
    presentable_runArguments (by decide +kernel) _ _ _ _
  have huuid : Set.InjOn sampleUuid4 (Set.Iio samplePlannerRun.ledger.drawn) := by
    have hdrawn : samplePlannerRun.ledger.drawn = 6 := by decide +kernel
    have hdistinct : ∀ a < 6, ∀ b < 6, sampleUuid4 a = sampleUuid4 b → a = b := by decide
    rw [hdrawn]
    exact fun a ha b hb => hdistinct a ha b hb
  have hrun : callPlanner (fun _ => Vector.replicate 32 0) sampleUuid4 samplePipeline
      sampleArguments sampleSurroundings (runCalls samplePipeline.budget sampleUuid4 Ledger.empty [])
      = samplePlannerRun := rfl
  have hlaw := @callPlanner_law _ _ _ _ [] [] _ _ hpresentable hrun huuid
  rwa [runCalls, List.foldl_nil] at hlaw

end IouAi.Pipeline
