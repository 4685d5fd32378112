import IouAi.Budget.Ledger
import IouAi.Foundations.WindowSum

/-!
# The account behind the ledger

What the ledger stands for: every reservation weighs what its terminal event charges, or its full
amount while it has none, and the weights add up in the month and on the day of the reservation.
While no reservation has two terminal rows, the queries of the ledger compute these sums.
-/

namespace IouAi.Budget

open Calendar Checks WindowSum

/-- The terminal row of a reservation. -/
def terminalOf (rows : List Row) (reservationId : String) : Option Row :=
  (terminals rows).find? fun terminal => terminal.reservationId = reservationId

/-- What a reservation weighs. -/
def effective (rows : List Row) (reserve : Row) : ℕ :=
  effectiveAmount (reserve, terminalOf rows reserve.reservationId)

def monthSpend (rows : List Row) (month : String) : ℕ :=
  windowSum Row.monthKey (effective rows) (reserves rows) month

def daySpend (rows : List Row) (day : String) : ℕ :=
  windowSum Row.dayKey (effective rows) (reserves rows) day

/-- The window of a call quota. -/
def Row.quotaKey (row : Row) : String × String × String := (row.monthKey, row.provider, row.model)

/-- No reservation has two terminal rows. -/
def OneTerminal (rows : List Row) : Prop := ((terminals rows).map Row.reservationId).Nodup

/-- A reservation is charged or active: the two parts add up to what it weighs. -/
theorem sum_chargedAmount_add_activeAmount (joined : List (Row × Option Row)) :
    (joined.map chargedAmount).sum + (joined.map activeAmount).sum
      = (joined.map effectiveAmount).sum := by
  induction joined with
  | nil => rfl
  | cons pair joined ih =>
    obtain ⟨reserve, terminal⟩ := pair
    simp only [List.map_cons, List.sum_cons, ← ih]
    cases terminal with
    | none => simp only [chargedAmount, activeAmount, effectiveAmount]; omega
    | some terminal => simp only [chargedAmount, activeAmount, effectiveAmount]; omega

theorem sumColumn_eq_ok {values : List ℕ} {total : ℕ} :
    sumColumn values = .ok total ↔ values.sum ≤ sqliteMax ∧ total = values.sum := by
  rw [sumColumn, raiseIf_bind_eq_ok, pure_eq_ok, not_lt, eq_comm (a := total)]

section Queries

variable {rows : List Row} (hone : OneTerminal rows)

include hone

theorem joinTerminal_eq (reserve : Row) :
    joinTerminal rows reserve = [(reserve, terminalOf rows reserve.reservationId)] := by
  have hfilter := Dict.filter_eq_toList_find? hone reserve.reservationId
  rw [joinTerminal, hfilter, ← terminalOf]
  cases terminalOf rows reserve.reservationId <;> rfl

theorem leftJoin_eq (reserves : List Row) :
    leftJoin rows reserves
      = reserves.map fun reserve => (reserve, terminalOf rows reserve.reservationId) := by
  induction reserves with
  | nil => rfl
  | cons reserve reserves ih =>
    rw [leftJoin, List.flatMap_cons, joinTerminal_eq hone, ← leftJoin, ih]
    rfl

theorem spendParts_eq_ok {month : String} {charged activeReserved : ℕ}
    (h : spendParts rows month = .ok (charged, activeReserved)) :
    charged + activeReserved = monthSpend rows month := by
  simp only [spendParts, bind_eq_ok, sumColumn_eq_ok, pure_eq_ok, Prod.mk.injEq] at h
  obtain ⟨_, ⟨-, rfl⟩, _, ⟨-, rfl⟩, rfl, rfl⟩ := h
  rw [sum_chargedAmount_add_activeAmount, leftJoin_eq hone, List.map_map]
  rfl

theorem dayEffectiveSpend_eq_ok {day : String} {total : ℕ}
    (h : dayEffectiveSpend rows day = .ok total) : total = daySpend rows day := by
  rw [dayEffectiveSpend, sumColumn_eq_ok, leftJoin_eq hone, List.map_map] at h
  exact h.2

end Queries

theorem callCount_eq (rows : List Row) (month provider model : String) :
    callCount rows month provider model
      = windowSum Row.quotaKey (fun _ => 1) (reserves rows) (month, provider, model) := by
  rw [windowSum_one, callCount]
  simp only [Row.quotaKey, Prod.mk.injEq]

/-! ## How the account moves -/

theorem reserves_append (rows : List Row) (row : Row) :
    reserves (rows ++ [row]) = reserves rows ++ if row.isReserve then [row] else [] := by
  rw [reserves, List.filter_append, List.filter_singleton, ← reserves, cond_eq_ite]

theorem terminals_append (rows : List Row) (row : Row) :
    terminals (rows ++ [row]) = terminals rows ++ if row.isTerminal then [row] else [] := by
  rw [terminals, List.filter_append, List.filter_singleton, ← terminals, cond_eq_ite]

theorem Row.isTerminal_iff (row : Row) : row.isTerminal = !row.isReserve := by
  unfold Row.isTerminal Row.isReserve
  cases row.eventType <;> rfl

/-- A new reservation changes the weight of none. -/
theorem effective_append_reserve {rows : List Row} {row : Row} (h : row.isReserve) :
    effective (rows ++ [row]) = effective rows := by
  funext reserve
  unfold effective terminalOf
  rw [terminals_append, Row.isTerminal_iff, h]
  simp

/-- A terminal row for a reservation, at most its amount, raises the weight of none. -/
theorem effective_append_terminal_le {rows : List Row} {terminal reserve : Row}
    (h : terminal.isTerminal)
    (hle : terminal.reservationId = reserve.reservationId → terminal.amount ≤ reserve.amount) :
    effective (rows ++ [terminal]) reserve ≤ effective rows reserve := by
  unfold effective terminalOf
  rw [terminals_append, if_pos h, List.find?_append]
  cases hfound : (terminals rows).find? fun row => row.reservationId = reserve.reservationId with
  | some found => exact le_refl _
  | none =>
    by_cases hid : terminal.reservationId = reserve.reservationId
    · simpa [hid, effectiveAmount] using hle hid
    · simp [hid, effectiveAmount]

end IouAi.Budget
