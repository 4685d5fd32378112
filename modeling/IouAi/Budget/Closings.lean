import IouAi.Budget.Reservations

/-!
# The terminal event of a reservation

Calls insert rows one after another (`Inserts`), and the schema keeps a second terminal row of a
reservation out. So a reservation that has been closed keeps the one terminal row that closed it,
whatever calls follow (`Closed.later`).
-/

namespace IouAi.Budget

open Calendar Checks

variable {config : BudgetConfig} {uuid4 : ℕ → String} {ledger ledger' ledger'' : Ledger}

/-! ## Insertions -/

/-- Some insertions, one after another. -/
abbrev Inserts : List Row → List Row → Prop :=
  Relation.ReflTransGen fun rows rows' => ∃ row, insert rows row = .ok rows'

theorem inserts_of_insert {rows rows' : List Row} {row : Row} (h : insert rows row = .ok rows') :
    Inserts rows rows' := Relation.ReflTransGen.single ⟨row, h⟩

theorem reserve_inserts {request : ReserveRequest} {reservation : Reservation}
    (h : reserve config uuid4 ledger request = .ok (ledger', reservation)) :
    Inserts ledger.rows ledger'.rows := by
  simp only [reserve, bind_eq_ok, raiseIf_eq_ok, exists_const, pure_eq_ok, Prod.mk.injEq] at h
  obtain ⟨_, -, _, -, -, _, -, -, _, -, _, -, _, -, _, -, _, -, -, _, -, _, -, rows, hinsert, rfl,
    -⟩ := h
  exact inserts_of_insert hinsert

theorem close_inserts {reservationId : String} {eventType : EventType} {usage : Usage}
    {now : Timestamp} {serializable : Bool} {settlement : Settlement}
    (h : close uuid4 ledger reservationId eventType usage now serializable
      = .ok (ledger', settlement)) : Inserts ledger.rows ledger'.rows := by
  simp only [close, bind_eq_ok, raiseIf_eq_ok, exists_const, pure_eq_ok, Prod.mk.injEq] at h
  obtain ⟨-, _, -, _, -, _, -, _, -, rows, hinsert, rfl, -⟩ := h
  exact inserts_of_insert hinsert

theorem abandonAll_inserts {instant : Datetime} {stale : List Row} {settlements : List Settlement}
    (h : abandonAll uuid4 instant ledger stale = .ok (ledger', settlements)) :
    Inserts ledger.rows ledger'.rows := by
  induction stale generalizing ledger settlements with
  | nil =>
    cases h
    exact Relation.ReflTransGen.refl
  | cons reserve rest ih =>
    simp only [abandonAll, bind_eq_ok, pure_eq_ok, Prod.mk.injEq] at h
    obtain ⟨rows, hinsert, ⟨_, _⟩, hrest, rfl, -⟩ := h
    exact (inserts_of_insert hinsert).trans (ih hrest)

theorem step_inserts (call : Call) : Inserts ledger.rows (step config uuid4 ledger call).rows := by
  unfold step
  split
  · rename_i committed h
    cases call with
    | reserve request =>
      obtain ⟨_, h⟩ := map_fst_eq_ok.mp h
      exact reserve_inserts h
    | reserveForTokens request maxInput maxOutput cached =>
      obtain ⟨_, h⟩ := map_fst_eq_ok.mp h
      obtain ⟨_, -, h⟩ := bind_eq_ok.mp h
      exact reserve_inserts h
    | settle reservationId usage now serializable =>
      obtain ⟨_, h⟩ := map_fst_eq_ok.mp h
      exact close_inserts h
    | abandon reservationId reason now serializable =>
      obtain ⟨_, h⟩ := map_fst_eq_ok.mp h
      exact close_inserts (raiseIf_bind_eq_ok.mp h).2
    | reconcileAbandoned olderThan now =>
      obtain ⟨_, h⟩ := map_fst_eq_ok.mp h
      simp only [reconcileAbandoned, bind_eq_ok, raiseIf_eq_ok, exists_const] at h
      obtain ⟨-, instant, -, cutoff, -, h⟩ := h
      exact abandonAll_inserts h
  · exact Relation.ReflTransGen.refl

theorem runCalls_inserts (calls : List Call) :
    Inserts ledger.rows (runCalls config uuid4 ledger calls).rows := by
  induction calls generalizing ledger with
  | nil => exact Relation.ReflTransGen.refl
  | cons call calls ih => exact (step_inserts call).trans ih

/-! ## One terminal row -/

/-- The terminal rows of a reservation. -/
def terminalsOf (rows : List Row) (reservationId : String) : List Row :=
  (terminals rows).filter fun row => row.reservationId = reservationId

/-- A row that is inserted is no second terminal row. -/
theorem terminalsOf_insert {rows rows' : List Row} {row terminal : Row} {reservationId : String}
    (h : insert rows row = .ok rows') (hclosed : terminalsOf rows reservationId = [terminal]) :
    terminalsOf rows' reservationId = [terminal] := by
  obtain ⟨rfl, hnew⟩ := insert_eq_ok h
  have hmem : terminal ∈ terminalsOf rows reservationId := by simp [hclosed]
  obtain ⟨hterminal, hid⟩ := List.mem_filter.mp hmem
  have hnone : terminalsOf [row] reservationId = [] := by
    rw [terminalsOf, List.filter_eq_nil_iff]
    intro other hother hsame
    obtain ⟨hother, hrow⟩ := List.mem_filter.mp hother
    obtain rfl := List.mem_singleton.mp hother
    exact hnew hrow terminal hterminal
      ((of_decide_eq_true hid).trans (of_decide_eq_true hsame).symm)
  rw [terminalsOf, terminals_append_list, List.filter_append]
  exact (congrArg₂ _ hclosed hnone).trans (List.append_nil _)

theorem Inserts.terminalsOf {rows rows' : List Row} {terminal : Row} {reservationId : String}
    (h : Inserts rows rows') (hclosed : terminalsOf rows reservationId = [terminal]) :
    terminalsOf rows' reservationId = [terminal] := by
  induction h with
  | refl => exact hclosed
  | tail _ hinsert ih =>
    obtain ⟨_, hinsert⟩ := hinsert
    exact terminalsOf_insert hinsert ih

/-- What is found open has no terminal row. -/
theorem terminalsOf_eq_nil {rows : List Row} {reservationId : String} {found : Row}
    (h : activeReservation rows reservationId = .ok found) :
    found.reservationId = reservationId ∧ terminalsOf rows reservationId = [] := by
  unfold activeReservation at h
  split at h
  · cases h
  · rename_i reserve hreserve
    split at h
    · cases h
    · rename_i hterminal
      cases h
      refine ⟨by simpa using List.find?_some hreserve, ?_⟩
      rw [terminalsOf, List.filter_eq_nil_iff]
      exact List.find?_eq_none.mp hterminal

/-- A closing call leaves the one terminal row of its reservation. -/
theorem terminalsOf_close {reservationId : String} {eventType : EventType} {usage : Usage}
    {now : Timestamp} {serializable : Bool} {settlement : Settlement}
    (htype : eventType ≠ .reserve)
    (h : close uuid4 ledger reservationId eventType usage now serializable
      = .ok (ledger', settlement)) :
    ∃ (found terminal : Row) (tokens : Option TokenCounts),
      activeReservation ledger.rows reservationId = .ok found
        ∧ charge eventType usage found = .ok (terminal.amount, tokens)
        ∧ terminalsOf ledger'.rows reservationId = [terminal]
        ∧ settlement.charged = terminal.amount := by
  obtain ⟨instant, found, charged, tokens, hactive, hcharge, rfl, rfl⟩ := close_eq_ok h
  obtain ⟨hid, hnil⟩ := terminalsOf_eq_nil hactive
  refine ⟨found, terminalRow found eventType (uuid4 ledger.drawn) instant charged tokens, tokens,
    hactive, hcharge, ?_, rfl⟩
  have hterminal : (terminalRow found eventType (uuid4 ledger.drawn) instant charged
      tokens).isTerminal = true := by
    rw [Row.isTerminal_iff, Row.isReserve, Bool.not_eq_true']
    exact decide_eq_false htype
  rw [terminalsOf, terminals_append, if_pos hterminal, List.filter_append]
  refine (congrArg (· ++ _) hnil).trans ?_
  simp [terminalRow, hid]

end IouAi.Budget
