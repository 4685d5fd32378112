import IouAi.Budget.Reservations
import IouAi.Wire.Patterns

/-!
# The calls of the planner

A call of a provider is reserved in the ledger before it is made and closed after it, whatever came
of it. The planner is called through one candidate after another until one of them answers. Other
processes use the ledger at the same time: their calls stand between those of the pipeline.
-/

namespace IouAi.Pipeline

open Calendar Checks Runs Budget Wire

/-! ## Exceptions -/

/-- The classes of `ProviderError`. -/
inductive ProviderFailure
  | error
  | transport
  | timeout
  | connection
  | protocol
  | state
  | incomplete
  | refusal
  | http (statusCode : ℤ)
  | authentication (statusCode : ℤ)
  | rateLimit (statusCode : ℤ)
  deriving DecidableEq

namespace ProviderFailure

/-- The status of a `ProviderHTTPError`; none of another class. -/
def statusCode? : ProviderFailure → Option ℤ
  | .http statusCode | .authentication statusCode | .rateLimit statusCode => some statusCode
  | _ => none

def isRefusal (failure : ProviderFailure) : Bool := failure = .refusal

end ProviderFailure

/-- `ProviderHTTPError.retryable`. -/
def retryable (statusCode : ℤ) : Bool := statusCode ∈ [408, 409, 429] || 500 ≤ statusCode

/-- An exception: one of a provider, of the ledger, of the pipeline, a `ValueError` of a blank
field, or any other. -/
inductive Raised
  | provider (failure : ProviderFailure)
  | budget (error : BudgetError)
  | pipeline (message : String)
  | rejected (message : String)
  | blank (field : String)
  | other (name : String)
  deriving DecidableEq

/-- The exceptions after which the next candidate is called: `ProviderError`, `QuotaExceeded`. -/
def Raised.advances : Raised → Bool
  | .provider _ => true
  | .budget (.quotaExceeded ..) => true
  | _ => false

/-! ## Requests and results -/

structure ProviderRequest where
  systemPrompt : String
  inputText : String
  jsonSchema : Json
  schemaName : String
  clientRequestId : String
  principalId : String

/-- The constructor with the checks of `__post_init__`. -/
def ProviderRequest.make (systemPrompt inputText : String) (jsonSchema : Json)
    (schemaName clientRequestId principalId : String) : Except Raised ProviderRequest := do
  raiseIf (isBlank systemPrompt) (.blank "system_prompt")
  raiseIf (isBlank inputText) (.blank "input_text")
  raiseIf (isBlank schemaName) (.blank "schema_name")
  raiseIf (isBlank clientRequestId) (.blank "client_request_id")
  raiseIf (isBlank principalId) (.blank "principal_id")
  return ⟨systemPrompt, inputText, jsonSchema, schemaName, clientRequestId, principalId⟩

/-- The counts that a settlement is given. -/
structure TokenUsage where
  inputTokens : ℕ
  outputTokens : ℕ
  cachedInputTokens : ℕ
  deriving DecidableEq

/-- A response. `textBytes` is the length of its text in UTF-8; a text with a lone surrogate has
none. -/
structure ProviderResult where
  textBytes : Option ℕ
  usage : Option TokenUsage
  deriving DecidableEq

/-- `usage.input_tokens if usage else None`, and so for each count. -/
def usageOf : Option TokenUsage → Usage
  | some usage => ⟨.int usage.inputTokens, .int usage.outputTokens, .int usage.cachedInputTokens⟩
  | none => ⟨.other, .other, .other⟩

/-! ## The pipeline -/

/-- A provider of the configuration. `pricingPolicy` is what the function of this name makes of its
dates and prices, or the exception it raises. -/
structure ProviderConfig where
  name : String
  model : String
  pricingVersion : String
  maxInputTokens : ℤ
  maxOutputTokens : ℤ
  reasoningEffort : String
  requestTimeoutSeconds : ℤ
  pricingPolicy : Except Raised PricingPolicy

/-- An adapter with its provider. -/
structure Candidate where
  generate : ProviderRequest → Except Raised ProviderResult
  provider : ProviderConfig

structure ShadowPipeline where
  budget : BudgetConfig
  maxPacketBytes : ℕ
  maxResponseBytes : ℕ
  planner : Candidate
  plannerFallbacks : List Candidate

/-- The arguments of a call of the planner. -/
structure PlannerArguments where
  systemPrompt : String
  inputText : String
  schema : Json
  schemaName : String
  principalId : String

def plannerInput (telemetryJson harnessJson : String) : String :=
  "<TELEMETRY_DATA>\n" ++ telemetryJson ++ "\n</TELEMETRY_DATA>\n<HARNESS_CONTRACT>\n"
    ++ harnessJson ++ "\n</HARNESS_CONTRACT>"

/-- `_principal_id`. -/
def principalId (sha256 : Sha256) (fleetId : String) : String :=
  "principal-" ++ String.ofList ((hexText (sha256 (utf8 fleetId)).toList).toList.take 32)

/-- The arguments with which `run` calls the planner, under its instructions. -/
def runArguments (sha256 : Sha256) (plannerInstructions telemetryText contractText fleetId : String)
    (schema : Json) : PlannerArguments where
  systemPrompt := plannerInstructions
  inputText := plannerInput telemetryText contractText
  schema := schema
  schemaName := "io_uring_fuzz_plan_v1"
  principalId := principalId sha256 fleetId

/-- What a call finds of its surroundings: the times and the looks at the kill switch, and the calls
of other processes, before the reservation and before it is closed. -/
structure Surroundings where
  before : List Call
  during : List Call
  reservedAt : Datetime
  closedAt : Datetime
  killSwitch : KillSwitch
  killSwitchUnderLock : KillSwitch

/-- `_Call`. -/
structure CallResult where
  result : ProviderResult
  settlement : Settlement
  deriving DecidableEq

/-- What came of the call of a candidate: its reservation, the answer of the adapter, how the
reservation was closed, and the value or the exception of the call. -/
structure Attempt where
  candidate : Candidate
  reservation : Option Reservation
  generated : Option (Except Raised ProviderResult)
  closing : Option (Except BudgetError Settlement)
  outcome : Except Raised CallResult

/-- A call that raises before it has reserved anything. -/
def Attempt.stopped (candidate : Candidate) (raised : Raised) : Attempt where
  candidate := candidate
  reservation := none
  generated := none
  closing := none
  outcome := .error raised

variable (sha256 : Sha256) (uuid4 : ℕ → String) (pipeline : ShadowPipeline)
  (arguments : PlannerArguments)

/-- `_request_key` of the planner. -/
def requestKey (provider : ProviderConfig) : String :=
  hexText (sha256 (canonicalJson (.obj [("role", .str "planner"), ("provider", .str provider.name),
    ("model", .str provider.model), ("pricing", .str provider.pricingVersion),
    ("generation", .obj [("max_input_tokens", .num provider.maxInputTokens),
      ("max_output_tokens", .num provider.maxOutputTokens),
      ("reasoning_effort", .str provider.reasoningEffort),
      ("request_timeout_seconds", .num provider.requestTimeoutSeconds)]),
    ("prompt", .str arguments.systemPrompt), ("input", .str arguments.inputText),
    ("schema", arguments.schema)]))).toList

def clientId (requestKey : String) : String :=
  "planner-" ++ String.ofList (requestKey.toList.take 24)

/-- The arguments of the reservation; its amount is priced from the maximum token counts. -/
def reserveRequest (provider : ProviderConfig) (policy : PricingPolicy)
    (surroundings : Surroundings) : ReserveRequest where
  provider := provider.name
  model := provider.model
  requestKey := requestKey sha256 arguments provider
  worstCase := 0
  policy := policy
  now := .aware surroundings.reservedAt
  detailsSerializable := true
  killSwitch := surroundings.killSwitch
  killSwitchUnderLock := surroundings.killSwitchUnderLock

/-- How a call closes its reservation: a refusal and an HTTP error that is not retryable cost
nothing, and where the state of the call is uncertain the reservation is abandoned. -/
def closeReservation (ledger : Ledger) (reservationId : String)
    (generated : Except Raised ProviderResult) (now : Budget.Timestamp) :
    Except BudgetError (Ledger × Settlement) :=
  match generated with
  | .ok result => settle uuid4 ledger reservationId (usageOf result.usage) now true
  | .error (.provider failure) =>
    if failure.isRefusal || failure.statusCode?.isSome then
      if failure.statusCode?.any retryable then
        abandon uuid4 ledger reservationId "retryable provider HTTP error with uncertain state"
          now true
      else settle uuid4 ledger reservationId ⟨.int 0, .int 0, .int 0⟩ now true
    else
      abandon uuid4 ledger reservationId "provider call failed or completion state was uncertain"
        now true
  | .error _ =>
    abandon uuid4 ledger reservationId "provider call failed or completion state was uncertain"
      now true

/-- The value of a call whose reservation has been closed. -/
def callOutcome (generated : Except Raised ProviderResult) (settlement : Settlement) :
    Except Raised CallResult := do
  let result ← generated
  match result.textBytes with
  | none => throw (.other "UnicodeEncodeError")
  | some size =>
    raiseIf (pipeline.maxResponseBytes < size)
      (.rejected "provider output exceeds the local byte cap")
    return ⟨result, settlement⟩

/-- `_call`, in the role of the planner. -/
def call (candidate : Candidate) (surroundings : Surroundings) (ledger : Ledger) :
    Ledger × Attempt :=
  if pipeline.maxPacketBytes < arguments.inputText.utf8ByteSize then
    (ledger, .stopped candidate (.rejected "sanitized request exceeds the local byte cap"))
  else
    match candidate.provider.pricingPolicy with
    | .error raised => (ledger, .stopped candidate raised)
    | .ok policy =>
      let earlier := runCalls pipeline.budget uuid4 ledger surroundings.before
      match reserveForTokens pipeline.budget uuid4 earlier
          (reserveRequest sha256 arguments candidate.provider policy surroundings)
          candidate.provider.maxInputTokens candidate.provider.maxOutputTokens 0 with
      | .error error => (earlier, .stopped candidate (.budget error))
      | .ok (reserved, reservation) =>
        let later := runCalls pipeline.budget uuid4 reserved surroundings.during
        match ProviderRequest.make arguments.systemPrompt arguments.inputText arguments.schema
            arguments.schemaName (clientId reservation.requestKey) arguments.principalId with
        | .error raised => (later, ⟨candidate, some reservation, none, none, .error raised⟩)
        | .ok request =>
          let generated := candidate.generate request
          match closeReservation uuid4 later reservation.reservationId generated
              (.aware surroundings.closedAt) with
          | .error error =>
            (later, ⟨candidate, some reservation, some generated, some (.error error),
              .error (.budget error)⟩)
          | .ok (closed, settlement) =>
            (closed, ⟨candidate, some reservation, some generated, some (.ok settlement),
              callOutcome pipeline generated settlement⟩)

/-- A run of `_call_planner`: the ledger after it, its calls and its value. -/
structure PlannerRun where
  ledger : Ledger
  attempts : List Attempt
  value : Except Raised CallResult

/-- The loop over the candidates, from the `i`-th call on. -/
def callCandidates (surroundings : ℕ → Surroundings) :
    ℕ → List Candidate → Option Raised → Ledger → PlannerRun
  | _, [], lastError, ledger =>
    ⟨ledger, [], .error (lastError.getD (.rejected "no planner provider is configured"))⟩
  | i, candidate :: rest, _, ledger =>
    let called := call sha256 uuid4 pipeline arguments candidate (surroundings i) ledger
    match called.2.outcome with
    | .ok value => ⟨called.1, [called.2], .ok value⟩
    | .error raised =>
      if raised.advances then
        let run := callCandidates surroundings (i + 1) rest (some raised) called.1
        ⟨run.ledger, called.2 :: run.attempts, run.value⟩
      else ⟨called.1, [called.2], .error raised⟩

def ShadowPipeline.candidates : List Candidate := pipeline.planner :: pipeline.plannerFallbacks

/-- `_call_planner`. -/
def callPlanner (surroundings : ℕ → Surroundings) (ledger : Ledger) : PlannerRun :=
  callCandidates sha256 uuid4 pipeline arguments surroundings 0 pipeline.candidates none ledger

end IouAi.Pipeline
