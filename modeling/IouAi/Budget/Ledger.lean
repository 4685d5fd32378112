import IouAi.Budget.Pricing
import IouAi.Foundations.Dict

/-!
# The budget ledger

The append-only table `ledger_events` and the calls of `BudgetLedger` that write to it. A call is
one transaction: it returns the ledger it commits, or raises and leaves the ledger as it was.
Rows are listed in the order of their sequence numbers; `uuid4` is the supply of identifiers, read
in the order in which the calls that commit have drawn them.
-/

namespace IouAi.Budget

open Calendar Checks

/-! ## The table -/

inductive EventType
  | reserve
  | settle
  | abandon
  deriving DecidableEq

/-- The pricing columns. The columns of dates hold `isoformat` of a date, here the date itself. -/
structure PricingColumns where
  version : String
  effectiveFrom : Date
  effectiveUntil : Option Date
  inputRate : ℕ
  outputRate : ℕ
  cachedInputRate : ℕ
  deriving DecidableEq

/-- The recorded token counts of a usage that is valid. -/
structure TokenCounts where
  inputTokens : ℕ
  outputTokens : ℕ
  cachedInputTokens : ℕ
  deriving DecidableEq

/-- A row of `ledger_events`. -/
structure Row where
  eventId : String
  eventType : EventType
  reservationId : String
  occurredAtUtc : String
  monthKey : String
  provider : String
  model : String
  requestKey : String
  amount : ℕ
  pricing : PricingColumns
  tokens : Option TokenCounts
  usageValid : Option Bool
  deriving DecidableEq

namespace Row

variable (row : Row)

def isReserve : Bool := row.eventType = .reserve
def isTerminal : Bool := row.eventType = .settle ∨ row.eventType = .abandon

/-- The columns of the index `one_reservation_per_request`. -/
def requestIdentity : String × String × String × String :=
  (row.monthKey, row.provider, row.model, row.requestKey)

/-- The first ten characters of the time: the day of the row. -/
def dayKey : String := substr row.occurredAtUtc 10

/-- The values of the integer columns. -/
def integers : List ℕ :=
  [row.amount, row.pricing.inputRate, row.pricing.outputRate, row.pricing.cachedInputRate]
    ++ match row.tokens with
      | none => []
      | some counts => [counts.inputTokens, counts.outputTokens, counts.cachedInputTokens]

end Row

/-- The largest integer of the database. -/
def sqliteMax : ℕ := 2 ^ 63 - 1

def reserves (rows : List Row) : List Row := rows.filter Row.isReserve
def terminals (rows : List Row) : List Row := rows.filter Row.isTerminal

/-- `INSERT` under the constraints of the schema. -/
def insert (rows : List Row) (row : Row) : Except BudgetError (List Row) := do
  raiseIf (∃ n ∈ row.integers, sqliteMax < n) .integerOverflow
  raiseIf (∃ other ∈ rows, other.eventId = row.eventId) (.integrity "event_id")
  raiseIf (row.isReserve ∧ ∃ other ∈ reserves rows, other.requestIdentity = row.requestIdentity)
    (.integrity "one_reservation_per_request")
  raiseIf (row.isTerminal ∧ ∃ other ∈ terminals rows, other.reservationId = row.reservationId)
    (.integrity "one_terminal_per_reservation")
  return rows ++ [row]

/-! ## Queries -/

/-- The left join of one reservation with the terminal rows of its identifier. -/
def joinTerminal (rows : List Row) (reserve : Row) : List (Row × Option Row) :=
  match (terminals rows).filter fun terminal => terminal.reservationId = reserve.reservationId with
  | [] => [(reserve, none)]
  | terminals => terminals.map fun terminal => (reserve, some terminal)

def leftJoin (rows reserves : List Row) : List (Row × Option Row) :=
  reserves.flatMap (joinTerminal rows)

/-- `COALESCE(SUM(...), 0)`, which raises when the sum is no integer of the database. -/
def sumColumn (values : List ℕ) : Except BudgetError ℕ := do
  raiseIf (sqliteMax < values.sum) .integerOverflow
  return values.sum

def chargedAmount : Row × Option Row → ℕ
  | (_, some terminal) => terminal.amount
  | (_, none) => 0

def activeAmount : Row × Option Row → ℕ
  | (_, some _) => 0
  | (reserve, none) => reserve.amount

def effectiveAmount : Row × Option Row → ℕ
  | (_, some terminal) => terminal.amount
  | (reserve, none) => reserve.amount

def spendParts (rows : List Row) (month : String) : Except BudgetError (ℕ × ℕ) := do
  let joined := leftJoin rows ((reserves rows).filter fun reserve => reserve.monthKey = month)
  let charged ← sumColumn (joined.map chargedAmount)
  let activeReserved ← sumColumn (joined.map activeAmount)
  return (charged, activeReserved)

def dayEffectiveSpend (rows : List Row) (day : String) : Except BudgetError ℕ :=
  sumColumn ((leftJoin rows ((reserves rows).filter fun reserve => reserve.dayKey = day)).map
    effectiveAmount)

def callCount (rows : List Row) (month provider model : String) : ℕ :=
  ((reserves rows).filter fun reserve =>
    reserve.monthKey = month ∧ reserve.provider = provider ∧ reserve.model = model).length

/-! ## Configuration and arguments -/

/-- The limits of a ledger as `__init__` accepts them. -/
structure BudgetConfig where
  hardLimit : ℕ
  warningThresholds : List ℕ
  dailyLimit : Option ℕ
  monthlyCallQuotas : List ((String × String) × ℕ)
  hardLimit_pos : 0 < hardLimit
  thresholds_increasing : warningThresholds.Pairwise (· < ·)
  thresholds_lt : ∀ threshold ∈ warningThresholds, threshold < hardLimit
  dailyLimit_pos : ∀ limit ∈ dailyLimit, 0 < limit
  quotas_nonblank : ∀ quota ∈ monthlyCallQuotas, ¬ isBlank quota.1.1 ∧ ¬ isBlank quota.1.2

def quotaFor (config : BudgetConfig) (provider model : String) : Except BudgetError ℕ :=
  match Dict.get? Prod.fst config.monthlyCallQuotas (provider, model) with
  | some quota => .ok quota.2
  | none => .error (.unknownQuota provider model)

/-- A timestamp argument: one without a time zone, or an instant. -/
inductive Timestamp
  | naive
  | aware (instant : Datetime)

def normalizeNow : Timestamp → Except BudgetError Datetime
  | .naive => .error (.configuration "timestamps must be timezone-aware")
  | .aware instant => .ok instant

def monthKey (instant : Datetime) : String := String.ofList instant.date.monthText
def dayKey (instant : Datetime) : String := String.ofList instant.date.text

/-- What a look at the kill-switch path finds. -/
inductive KillSwitch
  | absent
  | present
  | unreadable
  deriving DecidableEq

def assertCallsEnabled (killSwitch : KillSwitch) : Except BudgetError Unit :=
  raiseIf (killSwitch ≠ .absent) .killSwitchActive

def jsonDetails (serializable : Bool) : Except BudgetError Unit :=
  raiseIf (!serializable) (.configuration "details must be JSON-serializable")

/-- One identity text: not blank, and within its length. -/
def validateIdentityText (name value : String) (limit : ℕ) : Except BudgetError Unit := do
  raiseIf (isBlank value) (.configuration (name ++ " must be a non-empty string"))
  raiseIf (limit < value.length) (.configuration (name ++ " is too long"))

def validateIdentity (provider model requestKey : String) : Except BudgetError Unit := do
  validateIdentityText "provider" provider 100
  validateIdentityText "model" model 200
  validateIdentityText "request_key" requestKey 512

/-! ## Reservations -/

/-- The table, and the number of identifiers that its rows have drawn. -/
structure Ledger where
  rows : List Row
  drawn : ℕ

def Ledger.empty : Ledger := ⟨[], 0⟩

structure ReserveRequest where
  provider : String
  model : String
  requestKey : String
  worstCase : ℤ
  policy : PricingPolicy
  now : Timestamp
  detailsSerializable : Bool
  killSwitch : KillSwitch
  killSwitchUnderLock : KillSwitch

structure Reservation where
  reservationId : String
  eventId : String
  month : String
  provider : String
  model : String
  requestKey : String
  reserved : ℕ
  pricingVersion : String
  createdAt : Datetime
  deriving DecidableEq

variable (config : BudgetConfig) (uuid4 : ℕ → String)

def checkDuplicate (rows : List Row) (row : Row) : Except BudgetError Unit :=
  match (reserves rows).find? fun other => other.requestIdentity = row.requestIdentity with
  | some existing => .error (.duplicateRequest existing.reservationId)
  | none => .ok ()

def checkHardLimit (rows : List Row) (month : String) (amount : ℕ) : Except BudgetError Unit := do
  let (charged, activeReserved) ← spendParts rows month
  raiseIf (config.hardLimit < charged + activeReserved + amount)
    (.budgetExceeded month (charged + activeReserved) amount config.hardLimit)

def checkDailyLimit (rows : List Row) (day : String) (amount : ℕ) : Except BudgetError Unit :=
  match config.dailyLimit with
  | none => .ok ()
  | some limit => do
    let daySpend ← dayEffectiveSpend rows day
    raiseIf (limit < daySpend + amount) (.budgetExceeded day daySpend amount limit)

/-- The row that a reservation inserts. -/
def reserveRow (request : ReserveRequest) (instant : Datetime) (amount : ℕ)
    (reservationId eventId : String) : Row where
  eventId := eventId
  eventType := .reserve
  reservationId := reservationId
  occurredAtUtc := instant.isoformat
  monthKey := monthKey instant
  provider := request.provider
  model := request.model
  requestKey := request.requestKey
  amount := amount
  pricing :=
    { version := request.policy.version
      effectiveFrom := request.policy.effectiveFrom
      effectiveUntil := request.policy.effectiveUntil
      inputRate := request.policy.inputRate
      outputRate := request.policy.outputRate
      cachedInputRate := request.policy.cachedRate }
  tokens := none
  usageValid := none

def reserve (ledger : Ledger) (request : ReserveRequest) :
    Except BudgetError (Ledger × Reservation) := do
  validateIdentity request.provider request.model request.requestKey
  let amount ← requireNonnegativeInt request.worstCase "worst_case_microdollars"
  raiseIf (request.policy.provider ≠ request.provider ∨ request.policy.model ≠ request.model)
    (.configuration "pricing policy provider/model does not match reservation")
  let instant ← normalizeNow request.now
  raiseIf (!request.policy.isEffective instant.date)
    (.pricingNotEffective request.policy.version instant.date)
  jsonDetails request.detailsSerializable
  let quota ← quotaFor config request.provider request.model
  assertCallsEnabled request.killSwitch
  let row := reserveRow request instant amount (uuid4 ledger.drawn) (uuid4 (ledger.drawn + 1))
  -- from here on under the write lock
  assertCallsEnabled request.killSwitchUnderLock
  checkDuplicate ledger.rows row
  let usedCalls := callCount ledger.rows row.monthKey request.provider request.model
  raiseIf (quota ≤ usedCalls)
    (.quotaExceeded request.provider request.model usedCalls quota)
  checkHardLimit config ledger.rows row.monthKey amount
  checkDailyLimit config ledger.rows (dayKey instant) amount
  let rows ← insert ledger.rows row
  return (⟨rows, ledger.drawn + 2⟩,
    { reservationId := row.reservationId
      eventId := row.eventId
      month := row.monthKey
      provider := request.provider
      model := request.model
      requestKey := request.requestKey
      reserved := amount
      pricingVersion := request.policy.version
      createdAt := instant })

/-- A reservation priced from the maximum token counts of a request. -/
def reserveForTokens (ledger : Ledger) (request : ReserveRequest)
    (maxInputTokens maxOutputTokens guaranteedCachedInputTokens : ℤ) :
    Except BudgetError (Ledger × Reservation) := do
  let amount ← request.policy.quote maxInputTokens maxOutputTokens guaranteedCachedInputTokens
  reserve config uuid4 ledger { request with worstCase := amount }

/-! ## Closing -/

/-- A reported token count: an integer, or a value of another type. -/
inductive UsageValue
  | int (value : ℤ)
  | other

structure Usage where
  inputTokens : UsageValue
  outputTokens : UsageValue
  cachedInputTokens : UsageValue

structure Settlement where
  reservationId : String
  eventId : String
  eventType : EventType
  month : String
  provider : String
  model : String
  reserved : ℕ
  charged : ℕ
  usageValid : Bool
  closedAt : Datetime
  deriving DecidableEq

def activeReservation (rows : List Row) (reservationId : String) : Except BudgetError Row :=
  match (reserves rows).find? fun row => row.reservationId = reservationId with
  | none => .error (.reservationNotFound reservationId)
  | some reserve =>
    match (terminals rows).find? fun row => row.reservationId = reservationId with
    | some terminal => .error (.reservationAlreadyClosed reservationId terminal.eventId)
    | none => .ok reserve

/-- The counts of a valid usage: integers from zero on, of which no more are cached than read. -/
def validUsage : Usage → Option TokenCounts
  | ⟨.int input, .int output, .int cached⟩ =>
    if 0 ≤ input ∧ 0 ≤ output ∧ 0 ≤ cached ∧ cached ≤ input then
      some ⟨input.toNat, output.toNat, cached.toNat⟩
    else none
  | _ => none

def policyFromRow (row : Row) : Except BudgetError PricingPolicy :=
  PricingPolicy.make row.provider row.model row.pricing.version row.pricing.effectiveFrom
    row.pricing.effectiveUntil row.pricing.inputRate row.pricing.outputRate
    (some row.pricing.cachedInputRate)

/-- The price of a valid usage at the rates of the reservation. -/
def quoteUsage (reserve : Row) (counts : TokenCounts) : Except BudgetError ℕ := do
  let policy ← policyFromRow reserve
  policy.quote counts.inputTokens counts.outputTokens counts.cachedInputTokens

/-- What a terminal event charges, and the counts it records. -/
def charge (eventType : EventType) (usage : Usage) (reserve : Row) :
    Except BudgetError (ℕ × Option TokenCounts) :=
  match if eventType = .settle then validUsage usage else none with
  | none => return (reserve.amount, none)
  | some counts => do
    let charged ← quoteUsage reserve counts
    return (charged, some counts)

/-- The terminal row of a reservation: its month, its names and its prices are the reservation's. -/
def terminalRow (reserve : Row) (eventType : EventType) (eventId : String) (instant : Datetime)
    (charged : ℕ) (tokens : Option TokenCounts) : Row :=
  { reserve with
    eventId := eventId
    eventType := eventType
    occurredAtUtc := instant.isoformat
    amount := charged
    tokens := tokens
    usageValid := some tokens.isSome }

def settlementOf (reserve terminal : Row) (instant : Datetime) : Settlement where
  reservationId := terminal.reservationId
  eventId := terminal.eventId
  eventType := terminal.eventType
  month := reserve.monthKey
  provider := reserve.provider
  model := reserve.model
  reserved := reserve.amount
  charged := terminal.amount
  usageValid := terminal.tokens.isSome
  closedAt := instant

def close (ledger : Ledger) (reservationId : String) (eventType : EventType) (usage : Usage)
    (now : Timestamp) (detailsSerializable : Bool) : Except BudgetError (Ledger × Settlement) := do
  raiseIf (reservationId = "") (.configuration "reservation_id must be non-empty")
  let instant ← normalizeNow now
  jsonDetails detailsSerializable
  let reserve ← activeReservation ledger.rows reservationId
  let (charged, tokens) ← charge eventType usage reserve
  let row := terminalRow reserve eventType (uuid4 ledger.drawn) instant charged tokens
  let rows ← insert ledger.rows row
  return (⟨rows, ledger.drawn + 1⟩, settlementOf reserve row instant)

def settle (ledger : Ledger) (reservationId : String) (usage : Usage) (now : Timestamp)
    (detailsSerializable : Bool) : Except BudgetError (Ledger × Settlement) :=
  close uuid4 ledger reservationId .settle usage now detailsSerializable

def abandon (ledger : Ledger) (reservationId reason : String) (now : Timestamp)
    (detailsSerializable : Bool) : Except BudgetError (Ledger × Settlement) := do
  raiseIf (isBlank reason ∨ 500 < reason.length)
    (.configuration "abandon reason must be 1-500 characters")
  close uuid4 ledger reservationId .abandon ⟨.other, .other, .other⟩ now detailsSerializable

/-! ## Reconciliation -/

/-- The reservations without a terminal row that are as old as the cutoff, in order. The times are
compared as texts. -/
def staleReservations (rows : List Row) (cutoff : String) : List Row :=
  ((leftJoin rows (reserves rows)).filter fun joined =>
    joined.2.isNone ∧ joined.1.occurredAtUtc ≤ cutoff).map Prod.fst

/-- The loop that closes each reservation of a list at its full amount. -/
def abandonAll (instant : Datetime) : Ledger → List Row →
    Except BudgetError (Ledger × List Settlement)
  | ledger, [] => return (ledger, [])
  | ledger, reserve :: rest => do
    let row := terminalRow reserve .abandon (uuid4 ledger.drawn) instant reserve.amount none
    let rows ← insert ledger.rows row
    let (ledger', settlements) ← abandonAll instant ⟨rows, ledger.drawn + 1⟩ rest
    return (ledger', settlementOf reserve row instant :: settlements)

def cutoffOf (instant : Datetime) (olderThan : ℕ) : Except BudgetError Datetime :=
  match instant.sub? olderThan with
  | some cutoff => .ok cutoff
  | none => .error .dateOverflow

/-- `olderThan` is a duration in microseconds. -/
def reconcileAbandoned (ledger : Ledger) (olderThan : ℤ) (now : Timestamp) :
    Except BudgetError (Ledger × List Settlement) := do
  raiseIf (olderThan < 0) (.configuration "older_than must be a non-negative timedelta")
  let instant ← normalizeNow now
  let cutoff ← cutoffOf instant olderThan.toNat
  abandonAll uuid4 instant ledger (staleReservations ledger.rows cutoff.isoformat)

/-! ## Runs -/

/-- A call of the ledger with its arguments and what it finds of its surroundings. -/
inductive Call
  | reserve (request : ReserveRequest)
  | reserveForTokens (request : ReserveRequest)
      (maxInputTokens maxOutputTokens guaranteedCachedInputTokens : ℤ)
  | settle (reservationId : String) (usage : Usage) (now : Timestamp) (detailsSerializable : Bool)
  | abandon (reservationId reason : String) (now : Timestamp) (detailsSerializable : Bool)
  | reconcileAbandoned (olderThan : ℤ) (now : Timestamp)

/-- The ledger that a call commits. -/
def perform (ledger : Ledger) : Call → Except BudgetError Ledger
  | .reserve request => Prod.fst <$> reserve config uuid4 ledger request
  | .reserveForTokens request maxInput maxOutput cached =>
    Prod.fst <$> reserveForTokens config uuid4 ledger request maxInput maxOutput cached
  | .settle reservationId usage now serializable =>
    Prod.fst <$> settle uuid4 ledger reservationId usage now serializable
  | .abandon reservationId reason now serializable =>
    Prod.fst <$> abandon uuid4 ledger reservationId reason now serializable
  | .reconcileAbandoned olderThan now =>
    Prod.fst <$> reconcileAbandoned uuid4 ledger olderThan now

/-- The ledger after a call: a call that raises is rolled back. -/
def step (ledger : Ledger) (call : Call) : Ledger :=
  match perform config uuid4 ledger call with
  | .ok ledger' => ledger'
  | .error _ => ledger

end IouAi.Budget
