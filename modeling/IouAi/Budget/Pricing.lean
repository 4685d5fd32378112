import IouAi.Foundations.Calendar
import IouAi.Foundations.Checks

/-!
# Pricing policies

Versioned token prices in microdollars for a million tokens, effective on an interval of dates, and
the conservative quote of a reported usage: each part of the usage is rounded upward.
-/

namespace IouAi.Budget

open Calendar Checks

/-- The exceptions of the budget ledger, and the two that its database raises: a constraint of the
schema, and an integer that no column holds. -/
inductive BudgetError
  | configuration (message : String)
  | budgetExceeded (window : String) (spend amount limit : ℕ)
  | quotaExceeded (provider model : String) (used quota : ℕ)
  | unknownQuota (provider model : String)
  | killSwitchActive
  | duplicateRequest (reservationId : String)
  | reservationNotFound (reservationId : String)
  | reservationAlreadyClosed (reservationId eventId : String)
  | pricingNotEffective (version : String) (on : Date)
  | integrity (constraint : String)
  | integerOverflow
  | dateOverflow
  deriving DecidableEq

/-- The characters that `str.strip` removes. -/
def isSpace (c : Char) : Bool :=
  let n := c.toNat
  (9 ≤ n && n ≤ 13) || (28 ≤ n && n ≤ 32) || n == 0x85 || n == 0xa0 || n == 0x1680
    || (0x2000 ≤ n && n ≤ 0x200a) || n == 0x2028 || n == 0x2029 || n == 0x202f || n == 0x205f
    || n == 0x3000

/-- A text of which `strip` leaves nothing. -/
def isBlank (text : String) : Bool := text.toList.all isSpace

/-- The value of an integer argument that must not be negative. -/
def requireNonnegativeInt (value : ℤ) (name : String) : Except BudgetError ℕ :=
  if value < 0 then .error (.configuration (name ++ " must be a non-negative integer"))
  else .ok value.toNat

theorem requireNonnegativeInt_eq_ok {value : ℤ} {name : String} {n : ℕ} :
    requireNonnegativeInt value name = .ok n ↔ value = n := by
  unfold requireNonnegativeInt
  split
  · simp only [reduceCtorEq, false_iff]
    omega
  · simp only [Except.ok.injEq]
    omega

def tokensPerMillion : ℕ := 1000000

/-- The price of some tokens, rounded upward to a microdollar. -/
def ceilRate (tokens rate : ℕ) : ℕ := (tokens * rate + tokensPerMillion - 1) / tokensPerMillion

/-- The rounding never loses a part of a microdollar, and adds less than one. -/
theorem ceilRate_bounds (tokens rate : ℕ) :
    tokens * rate ≤ ceilRate tokens rate * tokensPerMillion
      ∧ ceilRate tokens rate * tokensPerMillion < tokens * rate + tokensPerMillion := by
  unfold ceilRate tokensPerMillion
  omega

theorem ceilRate_mono {tokens tokens' : ℕ} (rate : ℕ) (h : tokens ≤ tokens') :
    ceilRate tokens rate ≤ ceilRate tokens' rate := by
  have hmul : tokens * rate ≤ tokens' * rate := Nat.mul_le_mul_right rate h
  unfold ceilRate
  apply Nat.div_le_div_right
  omega

/-- A pricing policy as `__post_init__` accepts it: names that are not blank, and an interval of
dates, open at its end, that is not empty. -/
structure PricingPolicy where
  provider : String
  model : String
  version : String
  effectiveFrom : Date
  effectiveUntil : Option Date
  inputRate : ℕ
  outputRate : ℕ
  cachedInputRate : Option ℕ
  names_nonblank : ¬ isBlank provider ∧ ¬ isBlank model ∧ ¬ isBlank version
  interval : ∀ date ∈ effectiveUntil, effectiveFrom < date
  deriving DecidableEq

namespace PricingPolicy

/-- The constructor with the checks of `__post_init__`. -/
def make (provider model version : String) (effectiveFrom : Date) (effectiveUntil : Option Date)
    (inputRate outputRate : ℕ) (cachedInputRate : Option ℕ) :
    Except BudgetError PricingPolicy :=
  if hprovider : isBlank provider then .error (.configuration "pricing provider must be non-empty")
  else if hmodel : isBlank model then .error (.configuration "pricing model must be non-empty")
  else if hversion : isBlank version then
    .error (.configuration "pricing version must be non-empty")
  else if hinterval : ∀ date ∈ effectiveUntil, effectiveFrom < date then
    .ok ⟨provider, model, version, effectiveFrom, effectiveUntil, inputRate, outputRate,
      cachedInputRate, ⟨hprovider, hmodel, hversion⟩, hinterval⟩
  else .error (.configuration "effective_until must be later than effective_from")

variable (policy : PricingPolicy)

/-- A policy passes its own checks. -/
theorem make_self :
    make policy.provider policy.model policy.version policy.effectiveFrom policy.effectiveUntil
      policy.inputRate policy.outputRate policy.cachedInputRate = .ok policy := by
  obtain ⟨hprovider, hmodel, hversion⟩ := policy.names_nonblank
  simp only [make, dif_neg hprovider, dif_neg hmodel, dif_neg hversion, dif_pos policy.interval]

/-- Cached tokens cost the normal input rate when no rate is given for them. -/
def cachedRate : ℕ := policy.cachedInputRate.getD policy.inputRate

def isEffective (on : Date) : Bool :=
  policy.effectiveFrom ≤ on ∧ ∀ date ∈ policy.effectiveUntil, on < date

/-- The price of a usage whose counts are accepted. -/
def price (input output cached : ℕ) : ℕ :=
  ceilRate (input - cached) policy.inputRate + ceilRate cached policy.cachedRate
    + ceilRate output policy.outputRate

def quote (inputTokens outputTokens cachedInputTokens : ℤ) : Except BudgetError ℕ := do
  let inputCount ← requireNonnegativeInt inputTokens "input_tokens"
  let outputCount ← requireNonnegativeInt outputTokens "output_tokens"
  let cachedCount ← requireNonnegativeInt cachedInputTokens "cached_input_tokens"
  raiseIf (inputCount < cachedCount)
    (.configuration "cached_input_tokens cannot exceed input_tokens")
  return policy.price inputCount outputCount cachedCount

theorem quote_eq_ok {inputTokens outputTokens cachedInputTokens : ℤ} {amount : ℕ} :
    policy.quote inputTokens outputTokens cachedInputTokens = .ok amount
      ↔ ∃ input output cached : ℕ, inputTokens = input ∧ outputTokens = output
          ∧ cachedInputTokens = cached ∧ cached ≤ input
          ∧ amount = policy.price input output cached := by
  simp only [quote, bind_eq_ok, requireNonnegativeInt_eq_ok, raiseIf_eq_ok, exists_const,
    pure_eq_ok, not_lt]
  constructor
  · rintro ⟨input, hinput, output, houtput, cached, hcached, hle, rfl⟩
    exact ⟨input, output, cached, hinput, houtput, hcached, hle, rfl⟩
  · rintro ⟨input, output, cached, hinput, houtput, hcached, hle, rfl⟩
    exact ⟨input, hinput, output, houtput, cached, hcached, hle, rfl⟩

end PricingPolicy

end IouAi.Budget
