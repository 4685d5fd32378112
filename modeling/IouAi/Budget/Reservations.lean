import IouAi.Budget.Limits

/-!
# What a reservation is worth at its settlement

The table only grows, and the identifier of a new reservation is new (`Grows`). So a settlement
finds the row that its reservation inserted, after whatever calls (`activeReservation_later`). The
price of a usage and the reserved price are compared part by part: a price rounded in two parts is
a microdollar more when both parts leave a fraction and the fractions fit in one microdollar.
-/

namespace IouAi.Budget

open Calendar Checks Runs

variable {config : BudgetConfig} {uuid4 : ℕ → String} {ledger ledger' ledger'' : Ledger}

/-! ## The table only grows -/

/-- A later ledger. -/
structure Grows (uuid4 : ℕ → String) (ledger ledger' : Ledger) : Prop where
  drawn : ledger.drawn ≤ ledger'.drawn
  rows : ∃ added, ledger'.rows = ledger.rows ++ added ∧ ∀ row ∈ reserves added,
    ∃ i, ledger.drawn ≤ i ∧ i < ledger'.drawn ∧ row.reservationId = uuid4 i

theorem reserves_append_list (rows added : List Row) :
    reserves (rows ++ added) = reserves rows ++ reserves added := List.filter_append ..

theorem terminals_append_list (rows added : List Row) :
    terminals (rows ++ added) = terminals rows ++ terminals added := List.filter_append ..

namespace Grows

theorem refl (ledger : Ledger) : Grows uuid4 ledger ledger :=
  ⟨le_refl _, [], (List.append_nil _).symm, by simp [reserves]⟩

theorem trans (h : Grows uuid4 ledger ledger') (h' : Grows uuid4 ledger' ledger'') :
    Grows uuid4 ledger ledger'' := by
  obtain ⟨added, hadded, hids⟩ := h.rows
  obtain ⟨added', hadded', hids'⟩ := h'.rows
  refine ⟨h.drawn.trans h'.drawn, added ++ added', ?_, ?_⟩
  · rw [hadded', hadded, List.append_assoc]
  · intro row hrow
    rw [reserves_append_list, List.mem_append] at hrow
    rcases hrow with hrow | hrow
    · obtain ⟨i, hle, hlt, hid⟩ := hids row hrow
      exact ⟨i, hle, hlt.trans_le h'.drawn, hid⟩
    · obtain ⟨i, hle, hlt, hid⟩ := hids' row hrow
      exact ⟨i, h.drawn.trans hle, hlt, hid⟩

/-- A row that is no reservation. -/
theorem append_terminal {row : Row} (h : row.isReserve = false) :
    Grows uuid4 ledger ⟨ledger.rows ++ [row], ledger.drawn + 1⟩ :=
  ⟨Nat.le_succ _, [row], rfl, by simp [reserves, h]⟩

end Grows

theorem Commit.grows (h : Commit config uuid4 ledger ledger') : Grows uuid4 ledger ledger' := by
  cases h with
  | @reserve row h =>
    refine ⟨by simp, [row], rfl, ?_⟩
    intro other hother
    obtain rfl := List.mem_singleton.mp (List.mem_of_mem_filter hother)
    exact ⟨ledger.drawn, le_refl _, by simp, h.reservationId⟩
  | @close _ terminal h =>
    apply Grows.append_terminal
    have hterminal := h.isTerminal
    rwa [Row.isTerminal_iff, Bool.not_eq_true'] at hterminal

theorem reserve_grows {request : ReserveRequest} {reservation : Reservation}
    (h : reserve config uuid4 ledger request = .ok (ledger', reservation)) :
    Grows uuid4 ledger ledger' :=
  reflTransGen_preserves (fun _ _ hcommit hgrows => hgrows.trans hcommit.grows) (reserve_commits h)
    (Grows.refl ledger)

/-- What a closing call commits: the terminal row of the reservation that it finds open. -/
theorem close_eq_ok {reservationId : String} {eventType : EventType} {usage : Usage}
    {now : Timestamp} {serializable : Bool} {settlement : Settlement}
    (h : close uuid4 ledger reservationId eventType usage now serializable
      = .ok (ledger', settlement)) :
    ∃ (instant : Datetime) (reserve : Row) (charged : ℕ) (tokens : Option TokenCounts),
      activeReservation ledger.rows reservationId = .ok reserve
        ∧ charge eventType usage reserve = .ok (charged, tokens)
        ∧ ledger' = ⟨ledger.rows ++ [terminalRow reserve eventType (uuid4 ledger.drawn) instant
            charged tokens], ledger.drawn + 1⟩
        ∧ settlement = settlementOf reserve (terminalRow reserve eventType (uuid4 ledger.drawn)
            instant charged tokens) instant := by
  simp only [close, bind_eq_ok, raiseIf_eq_ok, exists_const, pure_eq_ok, Prod.mk.injEq] at h
  obtain ⟨-, instant, -, _, -, reserve, hactive, ⟨charged, tokens⟩, hcharge, rows, hinsert, rfl,
    rfl⟩ := h
  obtain ⟨rfl, -⟩ := insert_eq_ok hinsert
  exact ⟨instant, reserve, charged, tokens, hactive, hcharge, rfl, rfl⟩

theorem close_grows {reservationId : String} {eventType : EventType} {usage : Usage}
    {now : Timestamp} {serializable : Bool} {settlement : Settlement}
    (hterminal : eventType ≠ .reserve)
    (h : close uuid4 ledger reservationId eventType usage now serializable
      = .ok (ledger', settlement)) : Grows uuid4 ledger ledger' := by
  obtain ⟨instant, reserve, charged, tokens, -, -, rfl, -⟩ := close_eq_ok h
  exact Grows.append_terminal (decide_eq_false hterminal)

theorem abandonAll_grows {instant : Datetime} {stale : List Row} {settlements : List Settlement}
    (h : abandonAll uuid4 instant ledger stale = .ok (ledger', settlements)) :
    Grows uuid4 ledger ledger' := by
  induction stale generalizing ledger settlements with
  | nil =>
    cases h
    exact Grows.refl _
  | cons reserve rest ih =>
    simp only [abandonAll, bind_eq_ok, pure_eq_ok, Prod.mk.injEq] at h
    obtain ⟨rows, hinsert, ⟨_, _⟩, hrest, rfl, -⟩ := h
    obtain ⟨rfl, -⟩ := insert_eq_ok hinsert
    exact (Grows.append_terminal rfl).trans (ih hrest)

/-- Every call leaves a later ledger. -/
theorem step_grows (call : Call) : Grows uuid4 ledger (step config uuid4 ledger call) := by
  unfold step
  split
  · rename_i committed h
    cases call with
    | reserve request =>
      obtain ⟨_, h⟩ := map_fst_eq_ok.mp h
      exact reserve_grows h
    | reserveForTokens request maxInput maxOutput cached =>
      obtain ⟨_, h⟩ := map_fst_eq_ok.mp h
      obtain ⟨_, -, h⟩ := bind_eq_ok.mp h
      exact reserve_grows h
    | settle reservationId usage now serializable =>
      obtain ⟨_, h⟩ := map_fst_eq_ok.mp h
      have hsettle : EventType.settle ≠ .reserve := by decide
      exact close_grows hsettle h
    | abandon reservationId reason now serializable =>
      obtain ⟨_, h⟩ := map_fst_eq_ok.mp h
      have habandon : EventType.abandon ≠ .reserve := by decide
      exact close_grows habandon (raiseIf_bind_eq_ok.mp h).2
    | reconcileAbandoned olderThan now =>
      obtain ⟨_, h⟩ := map_fst_eq_ok.mp h
      simp only [reconcileAbandoned, bind_eq_ok, raiseIf_eq_ok, exists_const] at h
      obtain ⟨-, instant, -, cutoff, -, h⟩ := h
      exact abandonAll_grows h
  · exact Grows.refl ledger

/-- The ledger after some calls, one after another. -/
def runCalls (config : BudgetConfig) (uuid4 : ℕ → String) (ledger : Ledger) (calls : List Call) :
    Ledger := calls.foldl (step config uuid4) ledger

theorem runCalls_grows (calls : List Call) :
    Grows uuid4 ledger (runCalls config uuid4 ledger calls) := by
  induction calls generalizing ledger with
  | nil => exact Grows.refl ledger
  | cons call calls ih => exact (step_grows call).trans ih

/-- In a ledger that began empty, every reservation has one of the identifiers drawn so far. -/
theorem Grows.exists_drawn (h : Grows uuid4 Ledger.empty ledger) {row : Row}
    (hrow : row ∈ reserves ledger.rows) : ∃ i < ledger.drawn, row.reservationId = uuid4 i := by
  obtain ⟨added, hadded, hids⟩ := h.rows
  rw [hadded] at hrow
  obtain ⟨i, -, hlt, hid⟩ := hids row hrow
  exact ⟨i, hlt, hid⟩

/-! ## The row of a reservation -/

/-- The row that a reservation inserts, with what the call returns of it. -/
theorem reserve_eq_ok {request : ReserveRequest} {reservation : Reservation}
    (h : reserve config uuid4 ledger request = .ok (ledger', reservation)) :
    ∃ (instant : Datetime) (amount : ℕ), request.worstCase = amount
      ∧ request.policy.provider = request.provider ∧ request.policy.model = request.model
      ∧ ledger' = ⟨ledger.rows ++ [reserveRow request instant amount (uuid4 ledger.drawn)
          (uuid4 (ledger.drawn + 1))], ledger.drawn + 2⟩
      ∧ reservation.reservationId = uuid4 ledger.drawn ∧ reservation.reserved = amount := by
  simp only [reserve, bind_eq_ok, raiseIf_eq_ok, exists_const, pure_eq_ok, Prod.mk.injEq,
    requireNonnegativeInt_eq_ok, not_or, not_not] at h
  obtain ⟨_, -, amount, hamount, ⟨hprovider, hmodel⟩, instant, -, -, _, -, quota, -, _, -, _, -, _,
    -, -, _, -, _, -, rows, hinsert, rfl, rfl⟩ := h
  obtain ⟨rfl, -⟩ := insert_eq_ok hinsert
  exact ⟨instant, amount, hamount, hprovider, hmodel, rfl, rfl, rfl⟩

/-- After whatever calls, an open reservation is read back as the row that it inserted. -/
theorem activeReservation_later {row found : Row} (hrow : row.isReserve)
    (hbefore : ∀ other ∈ reserves ledger.rows, other.reservationId ≠ row.reservationId)
    (hrows : ledger'.rows = ledger.rows ++ [row]) (hlater : Grows uuid4 ledger' ledger'')
    (h : activeReservation ledger''.rows row.reservationId = .ok found) : found = row := by
  have hfind : (reserves ledger''.rows).find? (fun other => other.reservationId = row.reservationId)
      = some row := by
    obtain ⟨added, hadded, -⟩ := hlater.rows
    rw [hadded, hrows, reserves_append_list, reserves_append, if_pos hrow, List.append_assoc,
      List.find?_append, List.find?_eq_none.mpr]
    · simp
    · intro other hother
      simpa using hbefore other hother
  unfold activeReservation at h
  rw [hfind] at h
  simp only at h
  split at h
  · cases h
  · cases h
    rfl

/-- In a run from the empty ledger, with identifiers that differ, a reservation that is closed is
the one that was made: what closes it reads its row. -/
theorem activeReservation_of_reserve {request : ReserveRequest} {reservation : Reservation}
    {found : Row} (hbefore : Grows uuid4 Ledger.empty ledger)
    (h : reserve config uuid4 ledger request = .ok (ledger', reservation))
    (hlater : Grows uuid4 ledger' ledger'')
    (huuid : Set.InjOn uuid4 (Set.Iio ledger''.drawn))
    (hactive : activeReservation ledger''.rows reservation.reservationId = .ok found) :
    ∃ (instant : Datetime) (amount : ℕ), request.worstCase = amount
      ∧ request.policy.provider = request.provider ∧ request.policy.model = request.model
      ∧ reservation.reserved = amount
      ∧ found = reserveRow request instant amount (uuid4 ledger.drawn)
          (uuid4 (ledger.drawn + 1)) := by
  obtain ⟨instant, amount, hamount, hprovider, hmodel, rfl, hid, hreserved⟩ := reserve_eq_ok h
  refine ⟨instant, amount, hamount, hprovider, hmodel, hreserved, ?_⟩
  have hdrawn : ledger.drawn + 2 ≤ ledger''.drawn := hlater.drawn
  rw [hid] at hactive
  refine activeReservation_later rfl ?_ rfl hlater hactive
  intro other hother heq
  obtain ⟨i, hlt, hother⟩ := hbefore.exists_drawn hother
  have hsame : i = ledger.drawn := huuid (Set.mem_Iio.mpr (by omega)) (Set.mem_Iio.mpr (by omega))
    (hother.symm.trans heq)
  omega

/-! ## The price of a part -/

/-- Rounding the prices of two parts apart costs a microdollar more than rounding their sum: both
leave a fraction of a microdollar, and the fractions fit in one. -/
def SplitCostsMore (rate tokens cached : ℕ) : Prop :=
  (tokens - cached) * rate % tokensPerMillion ≠ 0 ∧ cached * rate % tokensPerMillion ≠ 0
    ∧ (tokens - cached) * rate % tokensPerMillion + cached * rate % tokensPerMillion
      ≤ tokensPerMillion

/-- The price of the maximum goes over a whole microdollar that the price of the tokens does not
go over. -/
def SavesMicrodollar (rate tokens maxTokens : ℕ) : Prop :=
  ∃ whole, tokens * rate ≤ whole * tokensPerMillion ∧ whole * tokensPerMillion < maxTokens * rate

instance (rate tokens cached : ℕ) : Decidable (SplitCostsMore rate tokens cached) :=
  inferInstanceAs (Decidable (_ ∧ _ ∧ _))

theorem savesMicrodollar_iff (rate tokens maxTokens : ℕ) :
    SavesMicrodollar rate tokens maxTokens ↔ ceilRate tokens rate < ceilRate maxTokens rate := by
  have hbounds := ceilRate_bounds tokens rate
  have hbounds' := ceilRate_bounds maxTokens rate
  unfold SavesMicrodollar
  unfold tokensPerMillion at *
  constructor
  · rintro ⟨whole, hle, hlt⟩
    omega
  · intro h
    exact ⟨ceilRate tokens rate, by omega, by omega⟩

/-- The two parts of a usage are rounded apart. -/
theorem ceilRate_split {rate tokens cached : ℕ} (h : cached ≤ tokens) :
    ceilRate (tokens - cached) rate + ceilRate cached rate
      = ceilRate tokens rate + if SplitCostsMore rate tokens cached then 1 else 0 := by
  have hsum : tokens * rate = (tokens - cached) * rate + cached * rate := by
    rw [← Nat.add_mul, Nat.sub_add_cancel h]
  by_cases hsplit : SplitCostsMore rate tokens cached
  · rw [if_pos hsplit, ceilRate, ceilRate, ceilRate, hsum]
    unfold SplitCostsMore at hsplit
    unfold tokensPerMillion at *
    omega
  · rw [if_neg hsplit, ceilRate, ceilRate, ceilRate, hsum]
    unfold SplitCostsMore at hsplit
    unfold tokensPerMillion at *
    omega

namespace PricingPolicy

variable {policy : PricingPolicy}

theorem price_of_no_cached_rate (hrate : policy.cachedInputRate = none) {input output cached : ℕ}
    (h : cached ≤ input) :
    policy.price input output cached
      = ceilRate input policy.inputRate + (if SplitCostsMore policy.inputRate input cached then 1
          else 0) + ceilRate output policy.outputRate := by
  have hcached : policy.cachedRate = policy.inputRate := by
    rw [cachedRate, hrate]
    rfl
  rw [price, hcached, ceilRate_split h]

/-- The usage that an overrun takes, by at most a microdollar: its two parts are rounded apart and
the maximum is not, and no whole microdollar is saved on either side. -/
theorem price_le_price_iff (hrate : policy.cachedInputRate = none)
    {input output cached maxInput maxOutput guaranteed : ℕ} (hcached : cached ≤ input)
    (hguaranteed : guaranteed ≤ maxInput) (hinput : input ≤ maxInput)
    (houtput : output ≤ maxOutput) :
    policy.price input output cached ≤ policy.price maxInput maxOutput guaranteed
      ↔ (SplitCostsMore policy.inputRate input cached →
          SplitCostsMore policy.inputRate maxInput guaranteed
            ∨ SavesMicrodollar policy.inputRate input maxInput
            ∨ SavesMicrodollar policy.outputRate output maxOutput) := by
  have hmono := ceilRate_mono policy.inputRate hinput
  have hmono' := ceilRate_mono policy.outputRate houtput
  rw [price_of_no_cached_rate hrate hcached, price_of_no_cached_rate hrate hguaranteed,
    savesMicrodollar_iff, savesMicrodollar_iff]
  by_cases hsplit : SplitCostsMore policy.inputRate input cached
  · by_cases hsplit' : SplitCostsMore policy.inputRate maxInput guaranteed
    · simp only [hsplit, hsplit', if_true, true_or, implies_true, iff_true]
      omega
    · simp only [hsplit, hsplit', if_true, if_false, false_or, true_implies]
      omega
  · simp only [hsplit, if_false, false_implies, iff_true]
    omega

end PricingPolicy

/-- The price that a settlement finds in the row of a reservation. -/
theorem quoteUsage_reserveRow {request : ReserveRequest} {instant : Datetime} {amount charged : ℕ}
    {reservationId eventId : String} {counts : TokenCounts}
    (hprovider : request.policy.provider = request.provider)
    (hmodel : request.policy.model = request.model)
    (h : quoteUsage (reserveRow request instant amount reservationId eventId) counts
      = .ok charged) :
    charged = request.policy.price counts.inputTokens counts.outputTokens
      counts.cachedInputTokens := by
  obtain ⟨policy, hpolicy, hquote⟩ := bind_eq_ok.mp h
  obtain ⟨hblank, hblank', hblank''⟩ := request.policy.names_nonblank
  simp only [policyFromRow, reserveRow, ← hprovider, ← hmodel, PricingPolicy.make, dif_neg hblank,
    dif_neg hblank', dif_neg hblank'', dif_pos request.policy.interval, Except.ok.injEq] at hpolicy
  obtain ⟨input, output, cached, hinput, houtput, hcached, -, rfl⟩ :=
    (PricingPolicy.quote_eq_ok policy).mp hquote
  obtain rfl := Int.ofNat_inj.mp hinput
  obtain rfl := Int.ofNat_inj.mp houtput
  obtain rfl := Int.ofNat_inj.mp hcached
  subst hpolicy
  rfl

/-! ## The settlement against the reservation -/

/-- In every run, the settlement of a reservation priced from maximum token counts charges at most
the reserved amount, unless rounding the cached part apart costs a microdollar that the usage does
not save against the maximum. -/
theorem charged_le_reserved_iff {before calls : List Call} {request : ReserveRequest}
    {maxInput maxOutput guaranteed input output cached : ℕ} {reservation : Reservation}
    {settlement : Settlement} {now : Timestamp} {serializable : Bool}
    (hrate : request.policy.cachedInputRate = none)
    (hreserve : reserveForTokens config uuid4 (runCalls config uuid4 Ledger.empty before) request
      maxInput maxOutput guaranteed = .ok (ledger, reservation))
    (hsettle : settle uuid4 (runCalls config uuid4 ledger calls) reservation.reservationId
      ⟨.int input, .int output, .int cached⟩ now serializable = .ok (ledger', settlement))
    (hinput : input ≤ maxInput) (houtput : output ≤ maxOutput) (hcached : cached ≤ input)
    (huuid : Set.InjOn uuid4 (Set.Iio ledger'.drawn)) :
    settlement.charged ≤ reservation.reserved
      ↔ (SplitCostsMore request.policy.inputRate input cached →
          SplitCostsMore request.policy.inputRate maxInput guaranteed
            ∨ SavesMicrodollar request.policy.inputRate input maxInput
            ∨ SavesMicrodollar request.policy.outputRate output maxOutput) := by
  obtain ⟨amount, hquote, hreserve⟩ := bind_eq_ok.mp hreserve
  obtain ⟨maxInput', maxOutput', guaranteed', hmaxInput, hmaxOutput, hguaranteed, hle, rfl⟩ :=
    (PricingPolicy.quote_eq_ok _).mp hquote
  obtain rfl := Int.ofNat_inj.mp hmaxInput
  obtain rfl := Int.ofNat_inj.mp hmaxOutput
  obtain rfl := Int.ofNat_inj.mp hguaranteed
  obtain ⟨instant, found, charged, tokens, hactive, hcharge, rfl, rfl⟩ := close_eq_ok hsettle
  obtain ⟨instant', amount, hamount, hprovider, hmodel, hreserved, rfl⟩ :=
    activeReservation_of_reserve (runCalls_grows before) hreserve (runCalls_grows calls)
      (huuid.mono (Set.Iio_subset_Iio (Nat.le_succ _))) hactive
  have hvalid : validUsage ⟨.int input, .int output, .int cached⟩
      = some ⟨input, output, cached⟩ := by
    simp only [validUsage, Int.toNat_natCast]
    exact if_pos (by omega)
  simp only [charge, if_true, hvalid, bind_eq_ok, pure_eq_ok, Prod.mk.injEq] at hcharge
  obtain ⟨_, hquote', rfl, -⟩ := hcharge
  have hcharged := quoteUsage_reserveRow hprovider hmodel hquote'
  rw [← PricingPolicy.price_le_price_iff hrate hcached hle hinput houtput, hreserved,
    ← Int.ofNat_inj.mp hamount]
  simp only [settlementOf, terminalRow, hcharged]

/-! ## Two usages of one reservation -/

/-- A reservation for a thousand input tokens, and its settlement. -/
def sampleSettlement (input cached : ℕ) : Except BudgetError (ℕ × ℕ × ℕ) := do
  let (ledger, reservation) ←
    reserveForTokens sampleConfig sampleUuid4 Ledger.empty sampleRequest 1000 500 0
  let (ledger', settlement) ← settle sampleUuid4 ledger reservation.reservationId
    ⟨.int input, .int 500, .int cached⟩ (.aware sampleInstant) true
  return (reservation.reserved, settlement.charged, ledger'.drawn)

theorem exists_of_sampleSettlement {input cached reserved charged drawn : ℕ}
    (h : (sampleSettlement input cached).toOption = some (reserved, charged, drawn)) :
    ∃ ledger reservation ledger' settlement,
      reserveForTokens sampleConfig sampleUuid4 Ledger.empty sampleRequest 1000 500 0
          = .ok (ledger, reservation)
        ∧ settle sampleUuid4 ledger reservation.reservationId
            ⟨.int input, .int 500, .int cached⟩ (.aware sampleInstant) true
          = .ok (ledger', settlement)
        ∧ reservation.reserved = reserved ∧ settlement.charged = charged
        ∧ ledger'.drawn = drawn := by
  have hok : sampleSettlement input cached = .ok (reserved, charged, drawn) := by
    cases hrun : sampleSettlement input cached with
    | error e => simp [hrun, Except.toOption] at h
    | ok value => simpa [hrun, Except.toOption] using h
  obtain ⟨⟨ledger, reservation⟩, hreserve, hok⟩ := bind_eq_ok.mp hok
  obtain ⟨⟨ledger', settlement⟩, hsettle, hok⟩ := bind_eq_ok.mp hok
  cases pure_eq_ok.mp hok
  exact ⟨ledger, reservation, ledger', settlement, hreserve, hsettle, rfl, rfl, rfl⟩

/-- All thousand tokens with one cached: the settlement charges a microdollar too much. -/
theorem charged_gt_reserved :
    ∃ ledger reservation ledger' settlement,
      reserveForTokens sampleConfig sampleUuid4 Ledger.empty sampleRequest 1000 500 0
          = .ok (ledger, reservation)
        ∧ settle sampleUuid4 ledger reservation.reservationId
            ⟨.int 1000, .int 500, .int 1⟩ (.aware sampleInstant) true = .ok (ledger', settlement)
        ∧ sampleRequest.policy.cachedInputRate = none
        ∧ ¬ settlement.charged ≤ reservation.reserved := by
  obtain ⟨ledger, reservation, ledger', settlement, hreserve, hsettle, hreserved, hcharged, -⟩ :=
    exists_of_sampleSettlement (show (sampleSettlement 1000 1).toOption = some (1250, 1251, 3) by
      decide +kernel)
  refine ⟨ledger, reservation, ledger', settlement, hreserve, hsettle, rfl, ?_⟩
  rw [hreserved, hcharged]
  decide

/-- Two cached tokens of 996 are rounded apart too, but the usage saves a microdollar. -/
theorem charged_le_reserved_sample :
    ∃ ledger reservation ledger' settlement,
      reserveForTokens sampleConfig sampleUuid4 Ledger.empty sampleRequest 1000 500 0
          = .ok (ledger, reservation)
        ∧ settle sampleUuid4 ledger reservation.reservationId
            ⟨.int 996, .int 500, .int 2⟩ (.aware sampleInstant) true = .ok (ledger', settlement)
        ∧ settlement.charged ≤ reservation.reserved := by
  obtain ⟨ledger, reservation, ledger', settlement, hreserve, hsettle, -, -, hdrawn⟩ :=
    exists_of_sampleSettlement (show (sampleSettlement 996 2).toOption = some (1250, 1250, 3) by
      decide +kernel)
  have huuid : Set.InjOn sampleUuid4 (Set.Iio ledger'.drawn) := by
    have hdistinct : ∀ a < 3, ∀ b < 3, sampleUuid4 a = sampleUuid4 b → a = b := by decide
    rw [hdrawn]
    exact fun a ha b hb => hdistinct a ha b hb
  have hsaves : SavesMicrodollar sampleRequest.policy.inputRate 996 1000 :=
    ⟨249, by decide, by decide⟩
  have hreserve' : reserveForTokens sampleConfig sampleUuid4
      (runCalls sampleConfig sampleUuid4 Ledger.empty []) sampleRequest (1000 : ℕ) (500 : ℕ) (0 : ℕ)
      = .ok (ledger, reservation) := hreserve
  have hsettle' : settle sampleUuid4 (runCalls sampleConfig sampleUuid4 ledger [])
      reservation.reservationId ⟨.int (996 : ℕ), .int (500 : ℕ), .int (2 : ℕ)⟩
      (.aware sampleInstant) true = .ok (ledger', settlement) := hsettle
  have hiff := charged_le_reserved_iff rfl hreserve' hsettle' (show 996 ≤ 1000 by omega)
    (le_refl 500) (show 2 ≤ 996 by omega) huuid
  exact ⟨ledger, reservation, ledger', settlement, hreserve, hsettle,
    hiff.mpr fun _ => .inr (.inl hsaves)⟩

end IouAi.Budget
