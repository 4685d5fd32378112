import IouAi.Budget.Account
import IouAi.Foundations.Runs
import Mathlib.Data.Set.Function
import Mathlib.Order.Interval.Set.Basic

/-!
# Every limit holds after every run

A committed call appends rows of two kinds: a reservation with room in its month, on its day and
under its quota, and the terminal row of an open reservation, at most its amount (`step_commits`).
Both keep the account within its limits (`Sound`), so it is within them after every run.
-/

namespace IouAi.Budget

open Calendar Checks Runs WindowSum

variable {config : BudgetConfig} {uuid4 : ℕ → String} {ledger ledger' : Ledger}

/-! ## What a commit appends -/

/-- The month and the day of a reservation are those of its instant. -/
def Dated (row : Row) : Prop :=
  ∃ instant : Datetime, row.occurredAtUtc = instant.isoformat
    ∧ row.monthKey = monthKey instant ∧ row.dayKey = dayKey instant

/-- A row that a reservation appends. -/
structure Reserves (config : BudgetConfig) (uuid4 : ℕ → String) (ledger : Ledger) (row : Row) :
    Prop where
  isReserve : row.isReserve
  reservationId : row.reservationId = uuid4 ledger.drawn
  dated : Dated row
  newRequest : ∀ other ∈ reserves ledger.rows, other.requestIdentity ≠ row.requestIdentity
  quota : ∃ quota, quotaFor config row.provider row.model = .ok quota
    ∧ callCount ledger.rows row.monthKey row.provider row.model < quota
  month : ∃ charged activeReserved, spendParts ledger.rows row.monthKey
    = .ok (charged, activeReserved) ∧ charged + activeReserved + row.amount ≤ config.hardLimit
  day : ∀ limit ∈ config.dailyLimit, ∃ daySpend,
    dayEffectiveSpend ledger.rows row.dayKey = .ok daySpend ∧ daySpend + row.amount ≤ limit

/-- A row that closes a reservation. -/
structure Closes (rows : List Row) (reserve terminal : Row) : Prop where
  mem : reserve ∈ reserves rows
  isTerminal : terminal.isTerminal
  reservationId : terminal.reservationId = reserve.reservationId
  monthKey : terminal.monthKey = reserve.monthKey
  stillOpen : ∀ other ∈ terminals rows, other.reservationId ≠ terminal.reservationId
  amount_le : terminal.amount ≤ reserve.amount

/-- One row more. -/
inductive Commit (config : BudgetConfig) (uuid4 : ℕ → String) : Ledger → Ledger → Prop
  | reserve {ledger : Ledger} {row : Row} (h : Reserves config uuid4 ledger row) :
      Commit config uuid4 ledger ⟨ledger.rows ++ [row], ledger.drawn + 2⟩
  | close {ledger : Ledger} {reserve terminal : Row} (h : Closes ledger.rows reserve terminal) :
      Commit config uuid4 ledger ⟨ledger.rows ++ [terminal], ledger.drawn + 1⟩

abbrev Commits (config : BudgetConfig) (uuid4 : ℕ → String) : Ledger → Ledger → Prop :=
  Relation.ReflTransGen (Commit config uuid4)

theorem insert_eq_ok {rows rows' : List Row} {row : Row} (h : insert rows row = .ok rows') :
    rows' = rows ++ [row]
      ∧ (row.isTerminal → ∀ other ∈ terminals rows, other.reservationId ≠ row.reservationId) := by
  simp only [insert, raiseIf_bind_eq_ok, pure_eq_ok] at h
  obtain ⟨-, -, -, hterminal, rfl⟩ := h
  refine ⟨rfl, fun hrow other hother hid => hterminal ⟨hrow, other, hother, hid⟩⟩

theorem dayKey_eq_of_isoformat {row : Row} {instant : Datetime}
    (h : row.occurredAtUtc = instant.isoformat) : row.dayKey = dayKey instant := by
  rw [Row.dayKey, h, substr_isoformat_ten]
  rfl

theorem checkDuplicate_eq_ok {rows : List Row} {row : Row}
    (h : checkDuplicate rows row = .ok ()) :
    ∀ other ∈ reserves rows, other.requestIdentity ≠ row.requestIdentity := by
  unfold checkDuplicate at h
  split at h
  · cases h
  · rename_i hnone
    intro other hother heq
    simpa [heq] using List.find?_eq_none.mp hnone other hother

theorem checkHardLimit_eq_ok {rows : List Row} {month : String} {amount : ℕ}
    (h : checkHardLimit config rows month amount = .ok ()) :
    ∃ charged activeReserved, spendParts rows month = .ok (charged, activeReserved)
      ∧ charged + activeReserved + amount ≤ config.hardLimit := by
  simp only [checkHardLimit, bind_eq_ok, raiseIf_eq_ok, not_lt] at h
  obtain ⟨⟨charged, activeReserved⟩, hspend, hle⟩ := h
  exact ⟨charged, activeReserved, hspend, hle⟩

theorem checkDailyLimit_eq_ok {rows : List Row} {day : String} {amount limit : ℕ}
    (h : checkDailyLimit config rows day amount = .ok ()) (hlimit : limit ∈ config.dailyLimit) :
    ∃ daySpend, dayEffectiveSpend rows day = .ok daySpend ∧ daySpend + amount ≤ limit := by
  rw [checkDailyLimit, Option.mem_def.mp hlimit] at h
  simpa only [bind_eq_ok, raiseIf_eq_ok, not_lt] using h

theorem reserve_commits {request : ReserveRequest} {reservation : Reservation}
    (h : reserve config uuid4 ledger request = .ok (ledger', reservation)) :
    Commits config uuid4 ledger ledger' := by
  simp only [reserve, bind_eq_ok, raiseIf_eq_ok, exists_const, pure_eq_ok, Prod.mk.injEq] at h
  obtain ⟨_, -, amount, -, -, instant, -, -, _, -, quota, hquota, _, -, _, -, _, hduplicate,
    hcount, _, hhard, _, hdaily, rows, hinsert, rfl, -⟩ := h
  obtain ⟨rfl, -⟩ := insert_eq_ok hinsert
  have hday : (reserveRow request instant amount (uuid4 ledger.drawn)
      (uuid4 (ledger.drawn + 1))).dayKey = dayKey instant := dayKey_eq_of_isoformat rfl
  apply Relation.ReflTransGen.single
  apply Commit.reserve
  exact
    { isReserve := rfl
      reservationId := rfl
      dated := ⟨instant, rfl, rfl, hday⟩
      newRequest := checkDuplicate_eq_ok hduplicate
      quota := ⟨quota, hquota, not_le.mp hcount⟩
      month := checkHardLimit_eq_ok hhard
      day := by
        intro limit hlimit
        rw [hday]
        exact checkDailyLimit_eq_ok hdaily hlimit }

theorem activeReservation_eq_ok {rows : List Row} {reservationId : String} {reserve : Row}
    (h : activeReservation rows reservationId = .ok reserve) : reserve ∈ reserves rows := by
  unfold activeReservation at h
  split at h
  · cases h
  · rename_i found hfound
    split at h
    · cases h
    · cases h
      exact List.mem_of_find?_eq_some hfound

/-- The provision: a settlement with a valid usage quotes no more than the reserved amount. -/
def QuotesWithin (ledger : Ledger) : Call → Prop
  | .settle reservationId usage _ _ => ∀ reserve counts charged,
      activeReservation ledger.rows reservationId = .ok reserve → validUsage usage = some counts →
        quoteUsage reserve counts = .ok charged → charged ≤ reserve.amount
  | _ => True

theorem charge_le {eventType : EventType} {usage : Usage} {reserve : Row} {charged : ℕ}
    {tokens : Option TokenCounts} (h : charge eventType usage reserve = .ok (charged, tokens))
    (hquote : eventType = .settle → ∀ counts charged, validUsage usage = some counts →
      quoteUsage reserve counts = .ok charged → charged ≤ reserve.amount) :
    charged ≤ reserve.amount := by
  unfold charge at h
  split at h
  · cases h
    exact le_refl _
  · rename_i counts hcounts
    simp only [bind_eq_ok, pure_eq_ok, Prod.mk.injEq] at h
    obtain ⟨_, hcharged, rfl, -⟩ := h
    split at hcounts
    · rename_i hsettle
      exact hquote hsettle counts _ hcounts hcharged
    · cases hcounts

theorem close_commits {reservationId : String} {eventType : EventType} {usage : Usage}
    {now : Timestamp} {serializable : Bool} {settlement : Settlement}
    (hterminal : eventType = .settle ∨ eventType = .abandon)
    (hquote : ∀ reserve, activeReservation ledger.rows reservationId = .ok reserve →
      eventType = .settle → ∀ counts charged, validUsage usage = some counts →
        quoteUsage reserve counts = .ok charged → charged ≤ reserve.amount)
    (h : close uuid4 ledger reservationId eventType usage now serializable
      = .ok (ledger', settlement)) : Commits config uuid4 ledger ledger' := by
  simp only [close, bind_eq_ok, raiseIf_eq_ok, exists_const, pure_eq_ok, Prod.mk.injEq] at h
  obtain ⟨-, instant, -, _, -, reserve, hactive, ⟨charged, tokens⟩, hcharge, rows, hinsert, rfl, -⟩ := h
  obtain ⟨rfl, hopen⟩ := insert_eq_ok hinsert
  have hrow : (terminalRow reserve eventType (uuid4 ledger.drawn) instant charged
      tokens).isTerminal := decide_eq_true hterminal
  apply Relation.ReflTransGen.single
  apply Commit.close
  exact
    { mem := activeReservation_eq_ok hactive
      isTerminal := hrow
      reservationId := rfl
      monthKey := rfl
      stillOpen := hopen hrow
      amount_le := charge_le hcharge (hquote reserve hactive) }

/-- The loop of the reconciliation closes rows of a table that only grows. -/
theorem abandonAll_commits {instant : Datetime} {stale : List Row} {settlements : List Settlement}
    (hstale : ∀ reserve ∈ stale, reserve ∈ reserves ledger.rows)
    (h : abandonAll uuid4 instant ledger stale = .ok (ledger', settlements)) :
    Commits config uuid4 ledger ledger' := by
  induction stale generalizing ledger settlements with
  | nil =>
    cases h
    exact Relation.ReflTransGen.refl
  | cons reserve rest ih =>
    simp only [abandonAll, bind_eq_ok, pure_eq_ok, Prod.mk.injEq] at h
    obtain ⟨rows, hinsert, ⟨_, settlements'⟩, hrest, rfl, -⟩ := h
    obtain ⟨rfl, hopen⟩ := insert_eq_ok hinsert
    have hcloses : Closes ledger.rows reserve
        (terminalRow reserve .abandon (uuid4 ledger.drawn) instant reserve.amount none) :=
      { mem := hstale reserve (by simp)
        isTerminal := rfl
        reservationId := rfl
        monthKey := rfl
        stillOpen := hopen rfl
        amount_le := le_refl _ }
    refine Relation.ReflTransGen.head (Commit.close hcloses) (ih ?_ hrest)
    · intro other hother
      rw [reserves_append]
      exact List.mem_append_left _ (hstale other (List.mem_cons_of_mem _ hother))

theorem mem_staleReservations {rows : List Row} {cutoff : String} {reserve : Row}
    (h : reserve ∈ staleReservations rows cutoff) : reserve ∈ reserves rows := by
  simp only [staleReservations, List.mem_map, List.mem_filter, leftJoin, List.mem_flatMap] at h
  obtain ⟨joined, ⟨⟨other, hother, hjoined⟩, -⟩, rfl⟩ := h
  unfold joinTerminal at hjoined
  split at hjoined
  · rw [List.mem_singleton.mp hjoined]
    exact hother
  · obtain ⟨_, -, rfl⟩ := List.mem_map.mp hjoined
    exact hother

theorem map_fst_eq_ok {ε α β : Type} {x : Except ε (α × β)} {a : α} :
    Prod.fst <$> x = .ok a ↔ ∃ b, x = .ok (a, b) := by
  cases x with
  | error e => simp
  | ok pair => simp [Prod.ext_iff]

/-- What a call commits: nothing, a reservation, or terminal rows of open reservations. -/
theorem step_commits {call : Call} (hquote : QuotesWithin ledger call) :
    Commits config uuid4 ledger (step config uuid4 ledger call) := by
  unfold step
  split
  · rename_i committed h
    cases call with
    | reserve request =>
      obtain ⟨_, h⟩ := map_fst_eq_ok.mp h
      exact reserve_commits h
    | reserveForTokens request maxInput maxOutput cached =>
      obtain ⟨_, h⟩ := map_fst_eq_ok.mp h
      obtain ⟨amount, -, h⟩ := bind_eq_ok.mp h
      exact reserve_commits h
    | settle reservationId usage now serializable =>
      obtain ⟨_, h⟩ := map_fst_eq_ok.mp h
      exact close_commits (.inl rfl)
        (fun reserve hactive _ counts charged => hquote reserve counts charged hactive) h
    | abandon reservationId reason now serializable =>
      obtain ⟨_, h⟩ := map_fst_eq_ok.mp h
      obtain ⟨-, h⟩ := raiseIf_bind_eq_ok.mp h
      exact close_commits (.inr rfl) (fun _ _ h => nomatch h) h
    | reconcileAbandoned olderThan now =>
      obtain ⟨_, h⟩ := map_fst_eq_ok.mp h
      simp only [reconcileAbandoned, bind_eq_ok, raiseIf_eq_ok, exists_const] at h
      obtain ⟨-, instant, -, cutoff, -, h⟩ := h
      exact abandonAll_commits (fun reserve => mem_staleReservations) h
  · exact Relation.ReflTransGen.refl

/-! ## The invariant -/

/-- The cap of a quota window: no call without a configured quota. -/
def quotaCap (config : BudgetConfig) (key : String × String × String) : ℕ :=
  match quotaFor config key.2.1 key.2.2 with
  | .ok quota => quota
  | .error _ => 0

/-- The ledger is a sound account, within its limits. -/
structure Sound (config : BudgetConfig) (uuid4 : ℕ → String) (ledger : Ledger) : Prop where
  drawn : ∀ row ∈ ledger.rows, ∃ i < ledger.drawn, row.reservationId = uuid4 i
  reservations : ((reserves ledger.rows).map Row.reservationId).Nodup
  oneTerminal : OneTerminal ledger.rows
  requests : ((reserves ledger.rows).map Row.requestIdentity).Nodup
  closes : ∀ terminal ∈ terminals ledger.rows, ∃ reserve ∈ reserves ledger.rows,
    reserve.reservationId = terminal.reservationId ∧ terminal.monthKey = reserve.monthKey
  dated : ∀ reserve ∈ reserves ledger.rows, Dated reserve
  month : Capped Row.monthKey (effective ledger.rows) (fun _ => config.hardLimit)
    (reserves ledger.rows)
  day : ∀ limit ∈ config.dailyLimit,
    Capped Row.dayKey (effective ledger.rows) (fun _ => limit) (reserves ledger.rows)
  quota : Capped Row.quotaKey (fun _ => 1) (quotaCap config) (reserves ledger.rows)

theorem sound_empty : Sound config uuid4 Ledger.empty where
  drawn := by simp [Ledger.empty]
  reservations := List.nodup_nil
  oneTerminal := List.nodup_nil
  requests := List.nodup_nil
  closes := by simp [Ledger.empty, terminals]
  dated := by simp [Ledger.empty, reserves]
  month := Capped.nil
  day := fun _ _ => Capped.nil
  quota := Capped.nil

section Steps

variable (hsound : Sound config uuid4 ledger)

include hsound

/-- A reservation with room keeps the account sound. -/
theorem Sound.reserve {row : Row} (h : Reserves config uuid4 ledger row)
    (huuid : Set.InjOn uuid4 (Set.Iio (ledger.drawn + 2))) :
    Sound config uuid4 ⟨ledger.rows ++ [row], ledger.drawn + 2⟩ := by
  have hreserves : reserves (ledger.rows ++ [row]) = reserves ledger.rows ++ [row] := by
    rw [reserves_append, if_pos h.isReserve]
  have hterminals : terminals (ledger.rows ++ [row]) = terminals ledger.rows := by
    rw [terminals_append, Row.isTerminal_iff, h.isReserve]
    exact List.append_nil _
  -- the identifier is new: every other row has one that was drawn before
  have hfresh : ∀ other ∈ ledger.rows, other.reservationId ≠ row.reservationId := by
    intro other hother heq
    obtain ⟨i, hi, hid⟩ := hsound.drawn other hother
    rw [hid, h.reservationId] at heq
    have := huuid (Set.mem_Iio.mpr (by omega)) (Set.mem_Iio.mpr (by omega)) heq
    omega
  have hweight : effective (ledger.rows ++ [row]) row = row.amount := by
    rw [effective_append_reserve h.isReserve, effective, terminalOf, List.find?_eq_none.mpr]
    · rfl
    · intro terminal hterminal
      simpa using hfresh terminal (List.mem_of_mem_filter hterminal)
  refine ⟨?drawn, ?reservations, ?oneTerminal, ?requests, ?closes, ?dated, ?month, ?day, ?quota⟩
  case drawn =>
    intro other hother
    rcases List.mem_append.mp hother with hother | hother
    · obtain ⟨i, hi, hid⟩ := hsound.drawn other hother
      exact ⟨i, by simp only; omega, hid⟩
    · rw [List.mem_singleton.mp hother]
      exact ⟨ledger.drawn, by simp, h.reservationId⟩
  case reservations =>
    simp only [hreserves]
    exact Dict.nodup_map_append_singleton hsound.reservations
      fun other hother => hfresh other (List.mem_of_mem_filter hother)
  case oneTerminal =>
    simp only [OneTerminal, hterminals]
    exact hsound.oneTerminal
  case requests =>
    simp only [hreserves]
    exact Dict.nodup_map_append_singleton hsound.requests h.newRequest
  case closes =>
    simp only [hterminals, hreserves]
    intro terminal hterminal
    obtain ⟨reserve, hreserve, hclose⟩ := hsound.closes terminal hterminal
    exact ⟨reserve, List.mem_append_left _ hreserve, hclose⟩
  case dated =>
    simp only [hreserves]
    intro other hother
    rcases List.mem_append.mp hother with hother | hother
    · exact hsound.dated other hother
    · rw [List.mem_singleton.mp hother]
      exact h.dated
  case month =>
    obtain ⟨charged, activeReserved, hspend, hroom⟩ := h.month
    simp only [hreserves]
    rw [spendParts_eq_ok hsound.oneTerminal hspend] at hroom
    rw [effective_append_reserve h.isReserve] at hweight ⊢
    exact hsound.month.append_singleton (by rw [hweight]; exact hroom)
  case day =>
    intro limit hlimit
    obtain ⟨daySpend, hspend, hroom⟩ := h.day limit hlimit
    simp only [hreserves]
    rw [dayEffectiveSpend_eq_ok hsound.oneTerminal hspend] at hroom
    rw [effective_append_reserve h.isReserve] at hweight ⊢
    exact (hsound.day limit hlimit).append_singleton (by rw [hweight]; exact hroom)
  case quota =>
    obtain ⟨quota, hquota, hroom⟩ := h.quota
    simp only [hreserves]
    apply hsound.quota.append_singleton
    rw [callCount_eq] at hroom
    simpa only [Row.quotaKey, quotaCap, hquota] using Nat.succ_le_of_lt hroom

/-- The terminal row of an open reservation keeps the account sound. -/
theorem Sound.close {reserve terminal : Row} (h : Closes ledger.rows reserve terminal) :
    Sound config uuid4 ⟨ledger.rows ++ [terminal], ledger.drawn + 1⟩ := by
  have hreserves : reserves (ledger.rows ++ [terminal]) = reserves ledger.rows := by
    have hnot := h.isTerminal
    rw [Row.isTerminal_iff, Bool.not_eq_true'] at hnot
    rw [reserves_append, hnot]
    exact List.append_nil _
  have hterminals : terminals (ledger.rows ++ [terminal])
      = terminals ledger.rows ++ [terminal] := by
    rw [terminals_append, if_pos h.isTerminal]
  -- no other reservation has the identifier, so no weight is raised
  have hweight : ∀ other ∈ reserves ledger.rows,
      effective (ledger.rows ++ [terminal]) other ≤ effective ledger.rows other := by
    intro other hother
    apply effective_append_terminal_le h.isTerminal
    intro hid
    have hsame : other = reserve := List.inj_on_of_nodup_map hsound.reservations hother h.mem
      (hid.symm.trans h.reservationId)
    rw [hsame]
    exact h.amount_le
  refine ⟨?drawn, ?reservations, ?oneTerminal, ?requests, ?closes, ?dated, ?month, ?day, ?quota⟩
  case drawn =>
    intro other hother
    have hold : ∃ old ∈ ledger.rows, old.reservationId = other.reservationId := by
      rcases List.mem_append.mp hother with hother | hother
      · exact ⟨other, hother, rfl⟩
      · rw [List.mem_singleton.mp hother]
        exact ⟨reserve, List.mem_of_mem_filter h.mem, h.reservationId.symm⟩
    obtain ⟨old, hold, hid⟩ := hold
    obtain ⟨i, hi, hdrawn⟩ := hsound.drawn old hold
    exact ⟨i, by simp only; omega, hid.symm.trans hdrawn⟩
  case reservations => simpa only [hreserves] using hsound.reservations
  case oneTerminal =>
    simp only [OneTerminal, hterminals]
    exact Dict.nodup_map_append_singleton hsound.oneTerminal h.stillOpen
  case requests => simpa only [hreserves] using hsound.requests
  case closes =>
    simp only [hterminals, hreserves]
    intro other hother
    rcases List.mem_append.mp hother with hother | hother
    · exact hsound.closes other hother
    · rw [List.mem_singleton.mp hother]
      exact ⟨reserve, h.mem, h.reservationId.symm, h.monthKey⟩
  case dated => simpa only [hreserves] using hsound.dated
  case month =>
    simp only [hreserves]
    exact hsound.month.of_weight_le hweight
  case day =>
    intro limit hlimit
    simp only [hreserves]
    exact (hsound.day limit hlimit).of_weight_le hweight
  case quota => simpa only [hreserves] using hsound.quota

end Steps

/-! ## Runs -/

theorem Commit.drawn_le (h : Commit config uuid4 ledger ledger') :
    ledger.drawn ≤ ledger'.drawn := by
  cases h with
  | reserve h => simp
  | close h => simp

/-- One commit keeps a sound account sound, as long as the identifiers drawn so far differ. -/
theorem Commit.sound (h : Commit config uuid4 ledger ledger')
    (hsound : Set.InjOn uuid4 (Set.Iio ledger.drawn) → Sound config uuid4 ledger)
    (huuid : Set.InjOn uuid4 (Set.Iio ledger'.drawn)) : Sound config uuid4 ledger' := by
  have hbefore := hsound (huuid.mono (Set.Iio_subset_Iio h.drawn_le))
  cases h with
  | reserve h => exact hbefore.reserve h huuid
  | close h => exact hbefore.close h

/-- The ledgers of all runs of calls, from the empty ledger. -/
abbrev ReachableLedger (config : BudgetConfig) (uuid4 : ℕ → String) : Ledger → Prop :=
  Reachable Ledger.empty QuotesWithin (step config uuid4)

/-- The account is sound after every run. -/
theorem sound_of_reachable (h : ReachableLedger config uuid4 ledger)
    (huuid : Set.InjOn uuid4 (Set.Iio ledger.drawn)) : Sound config uuid4 ledger := by
  have hrun : Set.InjOn uuid4 (Set.Iio ledger.drawn) → Sound config uuid4 ledger := by
    apply h.invariant (fun _ => sound_empty)
    intro ledger call hsound hquote
    exact reflTransGen_preserves (fun _ _ hcommit => hcommit.sound) (step_commits hquote) hsound
  exact hrun huuid

/-- After every run of calls, in any order, the spend of every month and of every day is within
its limit, every model has no more calls than its quota, no request is reserved twice, and every
reservation has at most one terminal row, in its own month. -/
theorem ledger_within_limits (h : ReachableLedger config uuid4 ledger)
    (huuid : Set.InjOn uuid4 (Set.Iio ledger.drawn)) :
    (∀ month, monthSpend ledger.rows month ≤ config.hardLimit)
      ∧ (∀ limit ∈ config.dailyLimit, ∀ day, daySpend ledger.rows day ≤ limit)
      ∧ (∀ month provider model quota, quotaFor config provider model = .ok quota →
          callCount ledger.rows month provider model ≤ quota)
      ∧ ((reserves ledger.rows).map Row.requestIdentity).Nodup
      ∧ ∀ reserve ∈ reserves ledger.rows, Dated reserve
        ∧ ((terminals ledger.rows).filter
            fun terminal => terminal.reservationId = reserve.reservationId).length ≤ 1
        ∧ ∀ terminal ∈ terminals ledger.rows,
            terminal.reservationId = reserve.reservationId →
              terminal.monthKey = reserve.monthKey := by
  have hsound := sound_of_reachable h huuid
  refine ⟨hsound.month, hsound.day, ?_, hsound.requests, ?_⟩
  · intro month provider model quota hquota
    have hcap := hsound.quota (month, provider, model)
    rw [callCount_eq]
    simpa only [quotaCap, hquota] using hcap
  · intro reserve hreserve
    refine ⟨hsound.dated reserve hreserve, ?_, ?_⟩
    · rw [Dict.filter_eq_toList_find? hsound.oneTerminal]
      exact Option.length_toList_le
    · intro terminal hterminal hid
      obtain ⟨other, hother, hotherId, hmonth⟩ := hsound.closes terminal hterminal
      have hsame : other = reserve := List.inj_on_of_nodup_map hsound.reservations hother hreserve
        (hotherId.trans hid)
      rw [hmonth, hsame]

/-! ## A run over the end of a month -/

def sampleUuid4 (n : ℕ) : String := String.ofList (List.replicate 31 '0' ++ [Nat.digitChar n])

def sampleConfig : BudgetConfig where
  hardLimit := 7500000
  warningThresholds := [5500000, 6750000]
  dailyLimit := some 1000000
  monthlyCallQuotas := [(("openai", "planner"), 2)]
  hardLimit_pos := by decide
  thresholds_increasing := by decide
  thresholds_lt := by decide
  dailyLimit_pos := by simp
  quotas_nonblank := by decide

def samplePolicy : PricingPolicy where
  provider := "openai"
  model := "planner"
  version := "2026-01"
  effectiveFrom := ⟨2026, 1, 1, by decide, by decide, by decide⟩
  effectiveUntil := none
  inputRate := 250000
  outputRate := 2000000
  cachedInputRate := none
  names_nonblank := by decide
  interval := by simp

/-- The last second of January. -/
def sampleInstant : Datetime := ⟨63905500799000000, by decide⟩

def sampleRequest : ReserveRequest where
  provider := "openai"
  model := "planner"
  requestKey := "request-1"
  worstCase := 5000
  policy := samplePolicy
  now := .aware sampleInstant
  detailsSerializable := true
  killSwitch := .absent
  killSwitchUnderLock := .absent

/-- A settlement in February. -/
def sampleSettle : Call :=
  .settle (sampleUuid4 0) ⟨.int 1000, .int 500, .int 0⟩ (.aware ⟨63905688306000007, by decide⟩) true

def sampleLedger : Ledger :=
  step sampleConfig sampleUuid4
    (step sampleConfig sampleUuid4 Ledger.empty (.reserve sampleRequest)) sampleSettle

/-- The settlement costs 1250 microdollars of the 5000 reserved. -/
theorem quotesWithin_sampleSettle : QuotesWithin
    (step sampleConfig sampleUuid4 Ledger.empty (.reserve sampleRequest)) sampleSettle := by
  have hrows : (step sampleConfig sampleUuid4 Ledger.empty (.reserve sampleRequest)).rows
      = [reserveRow sampleRequest sampleInstant 5000 (sampleUuid4 0) (sampleUuid4 1)] := by
    decide +kernel
  intro reserve counts charged hactive hcounts hquote
  rw [hrows] at hactive
  have hmem := List.mem_of_mem_filter (activeReservation_eq_ok hactive)
  obtain rfl := List.mem_singleton.mp hmem
  obtain rfl : counts = ⟨1000, 500, 0⟩ := (Option.some.inj hcounts).symm
  have hprice : (quoteUsage (reserveRow sampleRequest sampleInstant 5000 (sampleUuid4 0)
      (sampleUuid4 1)) ⟨1000, 500, 0⟩).toOption = some 1250 := by decide +kernel
  rw [hquote] at hprice
  cases hprice
  decide

theorem ledger_within_limits_sample :
    sampleLedger.rows.map Row.monthKey = ["2026-01", "2026-01"]
      ∧ sampleLedger.rows.map Row.amount = [5000, 1250]
      ∧ monthSpend sampleLedger.rows "2026-01" ≤ sampleConfig.hardLimit := by
  have hreachable : ReachableLedger sampleConfig sampleUuid4 sampleLedger :=
    .step (.step .init trivial) quotesWithin_sampleSettle
  have huuid : Set.InjOn sampleUuid4 (Set.Iio sampleLedger.drawn) := by
    have hdrawn : sampleLedger.drawn = 3 := by decide +kernel
    have hdistinct : ∀ a < 3, ∀ b < 3, sampleUuid4 a = sampleUuid4 b → a = b := by decide
    rw [hdrawn]
    exact fun a ha b hb => hdistinct a ha b hb
  exact ⟨by decide +kernel, by decide +kernel, (ledger_within_limits hreachable huuid).1 _⟩

end IouAi.Budget
