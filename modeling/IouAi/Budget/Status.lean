import IouAi.Budget.Account
import Mathlib.Data.List.Sort

/-!
# The status of a month

What `BudgetLedger.status` reports: the spend of a month, the thresholds that it has crossed and
the calls of every model.
-/

namespace IouAi.Budget

open Calendar Checks WindowSum

inductive WarningLevel
  | ok
  | warning
  | critical
  | exhausted
  deriving DecidableEq

structure CallCount where
  provider : String
  model : String
  used : ℕ
  quota : Option ℕ
  deriving DecidableEq

structure BudgetStatus where
  month : String
  hardLimit : ℕ
  charged : ℕ
  activeReserved : ℕ
  effectiveSpend : ℕ
  remaining : ℕ
  warningLevel : WarningLevel
  crossedThresholds : List ℕ
  callCounts : List CallCount
  deriving DecidableEq

/-- The provider and the model of the reservations of a month and of the quotas, each once. -/
def modelKeys (config : BudgetConfig) (rows : List Row) (month : String) : List (String × String) :=
  let used := ((reserves rows).filter fun row => row.monthKey = month).map fun row =>
    (row.provider, row.model)
  (used ++ config.monthlyCallQuotas.map Prod.fst).dedup.insertionSort fun key other =>
    key.1 < other.1 ∨ key.1 = other.1 ∧ key.2 ≤ other.2

def warningLevel (config : BudgetConfig) (effective : ℕ) (crossed : List ℕ) : WarningLevel :=
  if config.hardLimit ≤ effective then .exhausted
  else if 2 ≤ crossed.length then .critical
  else if crossed = [] then .ok
  else .warning

def status (config : BudgetConfig) (rows : List Row) (now : Timestamp) :
    Except BudgetError BudgetStatus := do
  let instant ← normalizeNow now
  let month := monthKey instant
  let (charged, activeReserved) ← spendParts rows month
  let effective := charged + activeReserved
  let crossed := config.warningThresholds.filter fun threshold => threshold ≤ effective
  return {
    month := month
    hardLimit := config.hardLimit
    charged := charged
    activeReserved := activeReserved
    effectiveSpend := effective
    remaining := config.hardLimit - effective
    warningLevel := warningLevel config effective crossed
    crossedThresholds := crossed
    callCounts := (modelKeys config rows month).map fun key =>
      { provider := key.1
        model := key.2
        used := callCount rows month key.1 key.2
        quota := (Dict.get? Prod.fst config.monthlyCallQuotas key).map Prod.snd } }

variable {config : BudgetConfig} {rows : List Row} {now : Timestamp} {report : BudgetStatus}

/-- What a status says of the amounts: the threshold that an event names is crossed and lies below
the limit, and the remainder is what the limit leaves. -/
theorem status_eq_ok (h : status config rows now = .ok report) :
    (∃ instant, report.month = monthKey instant)
      ∧ report.remaining = report.hardLimit - report.effectiveSpend
      ∧ ∀ threshold ∈ report.crossedThresholds,
          threshold < report.hardLimit ∧ threshold ≤ report.effectiveSpend := by
  simp only [status, bind_eq_ok, pure_eq_ok] at h
  obtain ⟨instant, -, ⟨charged, activeReserved⟩, -, rfl⟩ := h
  refine ⟨⟨instant, rfl⟩, rfl, ?_⟩
  intro threshold hthreshold
  obtain ⟨hmem, hle⟩ := List.mem_filter.mp hthreshold
  exact ⟨config.thresholds_lt threshold hmem, of_decide_eq_true hle⟩

/-- The effective spend of a status is the spend of the account. -/
theorem status_effectiveSpend (hone : OneTerminal rows) (h : status config rows now = .ok report) :
    report.effectiveSpend = monthSpend rows report.month := by
  simp only [status, bind_eq_ok, pure_eq_ok] at h
  obtain ⟨instant, -, ⟨charged, activeReserved⟩, hspend, rfl⟩ := h
  exact spendParts_eq_ok hone hspend

end IouAi.Budget
