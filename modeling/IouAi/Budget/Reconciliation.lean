import IouAi.Budget.Closings
import IouAi.Foundations.IsoOrder

/-!
# Reconciling abandoned reservations

The cutoff is compared with the times of the table as texts, which are in the order of the instants.
So a reconciliation closes the open reservations that are old enough, each at its full amount in its
own month, and no other (`reconcileAbandoned_closes`).
-/

namespace IouAi.Budget

open Calendar Checks Runs

variable {config : BudgetConfig} {uuid4 : ℕ → String} {ledger ledger' : Ledger}

/-! ## What is stored -/

/-- A row that a call inserts, with the identifiers that it draws. -/
inductive Enters (uuid4 : ℕ → String) (ledger : Ledger) : Ledger → Prop
  | reserve {row : Row} (isReserve : row.isReserve)
      (reservationId : row.reservationId = uuid4 ledger.drawn)
      (eventId : row.eventId = uuid4 (ledger.drawn + 1)) (dated : Dated row)
      (h : insert ledger.rows row = .ok (ledger.rows ++ [row])) :
      Enters uuid4 ledger ⟨ledger.rows ++ [row], ledger.drawn + 2⟩
  | close {row : Row} (isTerminal : row.isReserve = false)
      (eventId : row.eventId = uuid4 ledger.drawn)
      (h : insert ledger.rows row = .ok (ledger.rows ++ [row])) :
      Enters uuid4 ledger ⟨ledger.rows ++ [row], ledger.drawn + 1⟩

abbrev EntersAll (uuid4 : ℕ → String) : Ledger → Ledger → Prop :=
  Relation.ReflTransGen (Enters uuid4)

theorem insert_eq_append {rows rows' : List Row} {row : Row} (h : insert rows row = .ok rows') :
    rows' = rows ++ [row] ∧ insert rows row = .ok (rows ++ [row]) := by
  obtain ⟨rfl, -⟩ := insert_eq_ok h
  exact ⟨rfl, h⟩

theorem reserve_enters {request : ReserveRequest} {reservation : Reservation}
    (h : reserve config uuid4 ledger request = .ok (ledger', reservation)) :
    EntersAll uuid4 ledger ledger' := by
  simp only [reserve, bind_eq_ok, raiseIf_eq_ok, exists_const, pure_eq_ok, Prod.mk.injEq] at h
  obtain ⟨_, -, amount, -, -, instant, -, -, _, -, _, -, _, -, _, -, _, -, -, _, -, _, -, rows,
    hinsert, rfl, -⟩ := h
  obtain ⟨rfl, hinsert⟩ := insert_eq_append hinsert
  exact Relation.ReflTransGen.single
    (.reserve rfl rfl rfl ⟨instant, rfl, rfl, dayKey_eq_of_isoformat rfl⟩ hinsert)

theorem close_enters {reservationId : String} {eventType : EventType} {usage : Usage}
    {now : Timestamp} {serializable : Bool} {settlement : Settlement} (htype : eventType ≠ .reserve)
    (h : close uuid4 ledger reservationId eventType usage now serializable
      = .ok (ledger', settlement)) : EntersAll uuid4 ledger ledger' := by
  simp only [close, bind_eq_ok, raiseIf_eq_ok, exists_const, pure_eq_ok, Prod.mk.injEq] at h
  obtain ⟨-, _, -, _, -, _, -, _, -, rows, hinsert, rfl, -⟩ := h
  obtain ⟨rfl, hinsert⟩ := insert_eq_append hinsert
  exact Relation.ReflTransGen.single (.close (decide_eq_false htype) rfl hinsert)

theorem abandonAll_enters {instant : Datetime} {stale : List Row} {settlements : List Settlement}
    (h : abandonAll uuid4 instant ledger stale = .ok (ledger', settlements)) :
    EntersAll uuid4 ledger ledger' := by
  induction stale generalizing ledger settlements with
  | nil =>
    cases h
    exact Relation.ReflTransGen.refl
  | cons reserve rest ih =>
    simp only [abandonAll, bind_eq_ok, pure_eq_ok, Prod.mk.injEq] at h
    obtain ⟨rows, hinsert, ⟨_, _⟩, hrest, rfl, -⟩ := h
    obtain ⟨rfl, hinsert⟩ := insert_eq_append hinsert
    exact Relation.ReflTransGen.head (.close rfl rfl hinsert) (ih hrest)

theorem step_enters (call : Call) : EntersAll uuid4 ledger (step config uuid4 ledger call) := by
  have hsettle : EventType.settle ≠ .reserve := by decide
  have habandon : EventType.abandon ≠ .reserve := by decide
  unfold step
  split
  · rename_i committed h
    cases call with
    | reserve request =>
      obtain ⟨_, h⟩ := map_fst_eq_ok.mp h
      exact reserve_enters h
    | reserveForTokens request maxInput maxOutput cached =>
      obtain ⟨_, h⟩ := map_fst_eq_ok.mp h
      obtain ⟨_, -, h⟩ := bind_eq_ok.mp h
      exact reserve_enters h
    | settle reservationId usage now serializable =>
      obtain ⟨_, h⟩ := map_fst_eq_ok.mp h
      exact close_enters hsettle h
    | abandon reservationId reason now serializable =>
      obtain ⟨_, h⟩ := map_fst_eq_ok.mp h
      exact close_enters habandon (raiseIf_bind_eq_ok.mp h).2
    | reconcileAbandoned olderThan now =>
      obtain ⟨_, h⟩ := map_fst_eq_ok.mp h
      simp only [reconcileAbandoned, bind_eq_ok, raiseIf_eq_ok, exists_const] at h
      obtain ⟨-, instant, -, cutoff, -, h⟩ := h
      exact abandonAll_enters h
  · exact Relation.ReflTransGen.refl

/-- The rows of a table that calls have written from the empty one. -/
structure Stored (uuid4 : ℕ → String) (ledger : Ledger) : Prop where
  eventId : ∀ row ∈ ledger.rows, ∃ i < ledger.drawn, row.eventId = uuid4 i
  integers : ∀ row ∈ ledger.rows, ∀ n ∈ row.integers, n ≤ sqliteMax
  reservationId : ∀ row ∈ reserves ledger.rows, ∃ i < ledger.drawn, row.reservationId = uuid4 i
  distinct : ((reserves ledger.rows).map Row.reservationId).Nodup
  dated : ∀ row ∈ reserves ledger.rows, Dated row

theorem stored_empty : Stored uuid4 Ledger.empty where
  eventId := by simp [Ledger.empty]
  integers := by simp [Ledger.empty]
  reservationId := by simp [Ledger.empty, reserves]
  distinct := List.nodup_nil
  dated := by simp [Ledger.empty, reserves]

theorem insert_integers {rows rows' : List Row} {row : Row} (h : insert rows row = .ok rows') :
    ∀ n ∈ row.integers, n ≤ sqliteMax := by
  simp only [insert, raiseIf_bind_eq_ok, not_exists, not_and, not_lt] at h
  exact h.1

/-- What a row needs of the identifiers that have been drawn. -/
theorem exists_lt_of_append {f : Row → String} {rows : List Row} {row : Row} {drawn drawn' i : ℕ}
    (h : ∀ other ∈ rows, ∃ i < drawn, f other = uuid4 i) (hle : drawn ≤ drawn') (hi : i < drawn')
    (hrow : f row = uuid4 i) : ∀ other ∈ rows ++ [row], ∃ i < drawn', f other = uuid4 i := by
  intro other hother
  rcases List.mem_append.mp hother with hother | hother
  · obtain ⟨j, hj, hid⟩ := h other hother
    exact ⟨j, hj.trans_le hle, hid⟩
  · rw [List.mem_singleton.mp hother]
    exact ⟨i, hi, hrow⟩

theorem Stored.enters (hstored : Stored uuid4 ledger) (huuid : Function.Injective uuid4)
    (h : Enters uuid4 ledger ledger') : Stored uuid4 ledger' := by
  have hintegers : ∀ row, insert ledger.rows row = .ok (ledger.rows ++ [row]) →
      ∀ other ∈ ledger.rows ++ [row], ∀ n ∈ other.integers, n ≤ sqliteMax := by
    intro row hinsert other hother
    rcases List.mem_append.mp hother with hother | hother
    · exact hstored.integers other hother
    · rw [List.mem_singleton.mp hother]
      exact insert_integers hinsert
  cases h with
  | @reserve row isReserve reservationId eventId dated hinsert =>
    have hreserves : reserves (ledger.rows ++ [row]) = reserves ledger.rows ++ [row] := by
      rw [reserves_append, if_pos isReserve]
    have hnew : ∀ other ∈ reserves ledger.rows, other.reservationId ≠ row.reservationId := by
      intro other hother heq
      obtain ⟨i, hi, hid⟩ := hstored.reservationId other hother
      rw [hid, reservationId] at heq
      exact absurd (huuid heq) hi.ne
    constructor
    · exact exists_lt_of_append hstored.eventId (Nat.le_add_right _ 2) (Nat.lt_succ_self _) eventId
    · exact hintegers row hinsert
    · simp only [hreserves]
      exact exists_lt_of_append hstored.reservationId (by omega) (by omega) reservationId
    · simp only [hreserves]
      exact Dict.nodup_map_append_singleton hstored.distinct hnew
    · simp only [hreserves]
      intro other hother
      rcases List.mem_append.mp hother with hother | hother
      · exact hstored.dated other hother
      · rw [List.mem_singleton.mp hother]
        exact dated
  | @close row isTerminal eventId hinsert =>
    have hreserves : reserves (ledger.rows ++ [row]) = reserves ledger.rows := by
      rw [reserves_append, isTerminal]
      exact List.append_nil _
    constructor
    · exact exists_lt_of_append hstored.eventId (Nat.le_succ _) (Nat.lt_succ_self _) eventId
    · exact hintegers row hinsert
    · simp only [hreserves]
      intro other hother
      obtain ⟨i, hi, hid⟩ := hstored.reservationId other hother
      exact ⟨i, by omega, hid⟩
    · simp only [hreserves]
      exact hstored.distinct
    · simp only [hreserves]
      exact hstored.dated

theorem stored_runCalls (huuid : Function.Injective uuid4) (calls : List Call) :
    Stored uuid4 (runCalls config uuid4 Ledger.empty calls) := by
  have hsteps : ∀ ledger, Stored uuid4 ledger → Stored uuid4 (runCalls config uuid4 ledger calls) := by
    induction calls with
    | nil => exact fun ledger hstored => hstored
    | cons call calls ih =>
      intro ledger hstored
      have hstep : Stored uuid4 (step config uuid4 ledger call) := reflTransGen_preserves
        (fun _ _ henters hbefore => hbefore.enters huuid henters) (step_enters call) hstored
      exact ih _ hstep
  exact hsteps _ stored_empty

/-! ## What is open and old -/

theorem joinTerminal_of_closed {rows : List Row} {reserve : Row}
    (h : terminalsOf rows reserve.reservationId ≠ []) :
    ∀ joined ∈ joinTerminal rows reserve, joined.2.isNone = false := by
  intro joined hjoined
  unfold joinTerminal at hjoined
  split at hjoined
  · rename_i hnil
    exact absurd hnil h
  · obtain ⟨_, -, rfl⟩ := List.mem_map.mp hjoined
    rfl

/-- The query finds the reservations without a terminal row whose text is not after the cutoff. -/
theorem staleReservations_eq (rows : List Row) (cutoff : String) :
    staleReservations rows cutoff = (reserves rows).filter fun reserve =>
      terminalsOf rows reserve.reservationId = [] ∧ reserve.occurredAtUtc ≤ cutoff := by
  have hall : ∀ found : List Row, ((leftJoin rows found).filter fun joined =>
      joined.2.isNone ∧ joined.1.occurredAtUtc ≤ cutoff).map Prod.fst
        = found.filter fun reserve =>
          terminalsOf rows reserve.reservationId = [] ∧ reserve.occurredAtUtc ≤ cutoff := by
    intro found
    induction found with
    | nil => rfl
    | cons reserve found ih =>
      have hcons : leftJoin rows (reserve :: found)
          = joinTerminal rows reserve ++ leftJoin rows found := rfl
      rw [hcons, List.filter_append, List.map_append, ih]
      by_cases hopen : terminalsOf rows reserve.reservationId = []
      · have hjoin : joinTerminal rows reserve = [(reserve, none)] := by
          rw [joinTerminal]
          rw [terminalsOf] at hopen
          rw [hopen]
        rw [hjoin]
        by_cases hold : reserve.occurredAtUtc ≤ cutoff
        · simp [hopen, hold]
        · simp [hold]
      · have hnil : (joinTerminal rows reserve).filter (fun joined =>
            joined.2.isNone ∧ joined.1.occurredAtUtc ≤ cutoff) = [] := by
          rw [List.filter_eq_nil_iff]
          intro joined hjoined
          simp [joinTerminal_of_closed hopen joined hjoined]
        rw [hnil, List.filter_cons_of_neg (by simp [hopen])]
        rfl
  exact hall _

/-! ## The loop -/

/-- Reservations that can be closed one after the other. -/
structure Closable (uuid4 : ℕ → String) (ledger : Ledger) (stale : List Row) : Prop where
  mem : ∀ reserve ∈ stale, reserve ∈ reserves ledger.rows
  distinct : (stale.map Row.reservationId).Nodup
  stillOpen : ∀ reserve ∈ stale, terminalsOf ledger.rows reserve.reservationId = []

/-- The row that closes a reservation at its full amount, in its month. -/
structure ClosesFully (instant : Datetime) (reserve closing : Row) : Prop where
  eventType : closing.eventType = .abandon
  reservationId : closing.reservationId = reserve.reservationId
  amount : closing.amount = reserve.amount
  monthKey : closing.monthKey = reserve.monthKey
  occurredAtUtc : closing.occurredAtUtc = instant.isoformat

theorem insert_terminalRow (huuid : Function.Injective uuid4) (hstored : Stored uuid4 ledger)
    {reserve : Row} (hmem : reserve ∈ reserves ledger.rows)
    (hopen : terminalsOf ledger.rows reserve.reservationId = []) (instant : Datetime) :
    insert ledger.rows
        (terminalRow reserve .abandon (uuid4 ledger.drawn) instant reserve.amount none)
      = .ok (ledger.rows
        ++ [terminalRow reserve .abandon (uuid4 ledger.drawn) instant reserve.amount none]) := by
  have hintegers := hstored.integers reserve (List.mem_of_mem_filter hmem)
  rw [insert, raiseIf_bind_of_not, raiseIf_bind_of_not, raiseIf_bind_of_not, raiseIf_bind_of_not]
  · rfl
  · rintro ⟨-, other, hother, hid⟩
    have hother' : other ∈ terminalsOf ledger.rows reserve.reservationId :=
      List.mem_filter.mpr ⟨hother, by simpa [terminalRow] using hid⟩
    rw [hopen] at hother'
    cases hother'
  · rintro ⟨hreserve, -⟩
    cases hreserve
  · rintro ⟨other, hother, heq⟩
    obtain ⟨i, hi, hid⟩ := hstored.eventId other hother
    rw [hid] at heq
    exact absurd (huuid heq) hi.ne
  · rintro ⟨n, hn, hlt⟩
    refine absurd (hintegers n ?_) (not_le.mpr hlt)
    simp only [Row.integers, terminalRow, List.append_nil] at hn ⊢
    exact List.mem_append_left _ hn

theorem terminalsOf_append_row (rows : List Row) (row : Row) (reservationId : String) :
    terminalsOf (rows ++ [row]) reservationId = terminalsOf rows reservationId
      ++ if row.isTerminal ∧ row.reservationId = reservationId then [row] else [] := by
  rw [terminalsOf, terminals_append, List.filter_append]
  by_cases hterminal : row.isTerminal = true
  · by_cases hid : row.reservationId = reservationId
    · simp [hterminal, hid, terminalsOf]
    · simp [hterminal, hid, terminalsOf]
  · simp [hterminal, terminalsOf]

/-- The loop closes every reservation of its list and leaves the rest as it is. -/
theorem abandonAll_closes (huuid : Function.Injective uuid4) (hstored : Stored uuid4 ledger)
    (instant : Datetime) {stale : List Row} (h : Closable uuid4 ledger stale) :
    ∃ ledger' settlements, abandonAll uuid4 instant ledger stale = .ok (ledger', settlements)
      ∧ reserves ledger'.rows = reserves ledger.rows
      ∧ (∀ reserve ∈ stale, ∃ closing, ClosesFully instant reserve closing
        ∧ terminalsOf ledger'.rows reserve.reservationId = [closing])
      ∧ ∀ reservationId ∉ stale.map Row.reservationId,
        terminalsOf ledger'.rows reservationId = terminalsOf ledger.rows reservationId := by
  induction stale generalizing ledger with
  | nil => exact ⟨ledger, [], rfl, rfl, nofun, fun _ _ => rfl⟩
  | cons reserve rest ih =>
    have hinsert := insert_terminalRow huuid hstored (h.mem reserve List.mem_cons_self)
      (h.stillOpen reserve List.mem_cons_self) instant
    obtain ⟨hfirst, hdistinct⟩ := List.nodup_cons.mp h.distinct
    set row := terminalRow reserve .abandon (uuid4 ledger.drawn) instant reserve.amount none
      with hrow
    have hreserves : reserves (ledger.rows ++ [row]) = reserves ledger.rows := by
      rw [reserves_append, hrow]
      exact List.append_nil _
    have hrest : ∀ reservationId, reservationId ≠ reserve.reservationId →
        terminalsOf (ledger.rows ++ [row]) reservationId
          = terminalsOf ledger.rows reservationId := by
      intro reservationId hne
      rw [terminalsOf_append_row, if_neg (fun h => hne h.2.symm), List.append_nil]
    have hstored' : Stored uuid4 ⟨ledger.rows ++ [row], ledger.drawn + 1⟩ :=
      hstored.enters huuid (.close rfl rfl hinsert)
    have hclosable : Closable uuid4 ⟨ledger.rows ++ [row], ledger.drawn + 1⟩ rest := by
      refine ⟨fun other hother => ?_, hdistinct, fun other hother => ?_⟩
      · rw [hreserves]
        exact h.mem other (List.mem_cons_of_mem _ hother)
      · have hne : other.reservationId ≠ reserve.reservationId := by
          intro heq
          exact hfirst (heq ▸ List.mem_map_of_mem hother)
        rw [hrest _ hne]
        exact h.stillOpen other (List.mem_cons_of_mem _ hother)
    obtain ⟨ledger', settlements, habandon, hsame, hclosed, hothers⟩ := ih hstored' hclosable
    have hloop : abandonAll uuid4 instant ledger (reserve :: rest)
        = .ok (ledger', settlementOf reserve row instant :: settlements) := by
      rw [abandonAll, ← hrow, hinsert]
      simp only [bind, Except.bind, habandon, pure, Except.pure]
    refine ⟨ledger', _, hloop, hsame.trans hreserves, ?_, ?_⟩
    · intro other hother
      rcases List.mem_cons.mp hother with rfl | hother
      · refine ⟨row, ⟨rfl, rfl, rfl, rfl, rfl⟩, ?_⟩
        rw [hothers _ hfirst, terminalsOf_append_row,
          h.stillOpen other List.mem_cons_self, if_pos ⟨rfl, rfl⟩, List.nil_append]
      · exact hclosed other hother
    · intro reservationId hnot
      rw [List.map_cons, List.mem_cons, not_or] at hnot
      rw [hothers _ hnot.2, hrest _ hnot.1]

/-! ## The reconciliation -/

/-- The reservation is open, and was made at least `olderThan` microseconds before `instant`. -/
def IsStale (rows : List Row) (reserve : Row) (created : Datetime) (olderThan : ℤ)
    (instant : Datetime) : Prop :=
  terminalsOf rows reserve.reservationId = [] ∧ (created.micros : ℤ) ≤ instant.micros - olderThan

/-- The reservations stay, each made at the instant that its row tells. A stale one is closed at its
full amount in its month, and every other has the terminal rows that it had. -/
structure Reconciles (olderThan : ℤ) (instant : Datetime) (rows rows' : List Row) : Prop where
  reserves : reserves rows' = reserves rows
  terminals : ∀ reserve ∈ Budget.reserves rows, ∃ created : Datetime,
    reserve.occurredAtUtc = created.isoformat
      ∧ (IsStale rows reserve created olderThan instant → ∃ closing,
        ClosesFully instant reserve closing
          ∧ terminalsOf rows' reserve.reservationId = [closing])
      ∧ (¬ IsStale rows reserve created olderThan instant →
        terminalsOf rows' reserve.reservationId = terminalsOf rows reserve.reservationId)

theorem cutoffOf_cases (instant : Datetime) {olderThan : ℤ} (hnonneg : 0 ≤ olderThan) :
    (∃ cutoff, cutoffOf instant olderThan.toNat = .ok cutoff
      ∧ (cutoff.micros : ℤ) = instant.micros - olderThan)
    ∨ (∃ error, cutoffOf instant olderThan.toNat = .error error)
      ∧ (instant.micros : ℤ) - olderThan < 0 := by
  unfold cutoffOf Datetime.sub?
  by_cases hle : olderThan.toNat ≤ instant.micros
  · rw [if_pos hle]
    refine .inl ⟨_, rfl, ?_⟩
    simp only
    omega
  · rw [if_neg hle]
    exact .inr ⟨⟨_, rfl⟩, by omega⟩

theorem Stored.reconciles (hstored : Stored uuid4 ledger) (huuid : Function.Injective uuid4)
    {olderThan : ℤ} (hnonneg : 0 ≤ olderThan) (instant : Datetime) :
    Reconciles olderThan instant ledger.rows (step config uuid4 ledger
      (.reconcileAbandoned olderThan (.aware instant))).rows := by
  have hperform : perform config uuid4 ledger (.reconcileAbandoned olderThan (.aware instant))
      = Prod.fst <$> (do
        let cutoff ← cutoffOf instant olderThan.toNat
        abandonAll uuid4 instant ledger (staleReservations ledger.rows cutoff.isoformat)) := by
    rw [perform, reconcileAbandoned, raiseIf_bind_of_not (not_lt.mpr hnonneg)]
    rfl
  rw [step, hperform]
  rcases cutoffOf_cases instant hnonneg with ⟨cutoff, hcutoff, hmicros⟩ | ⟨⟨error, herror⟩, hneg⟩
  · have hstale := staleReservations_eq ledger.rows cutoff.isoformat
    have hclosable : Closable uuid4 ledger (staleReservations ledger.rows cutoff.isoformat) := by
      rw [hstale]
      refine ⟨fun reserve => List.mem_of_mem_filter, ?_, fun reserve hreserve => ?_⟩
      · exact hstored.distinct.sublist (List.filter_sublist.map _)
      · exact (of_decide_eq_true (List.mem_filter.mp hreserve).2).1
    obtain ⟨ledger', settlements, habandon, hreserves, hclosed, hothers⟩ :=
      abandonAll_closes huuid hstored instant hclosable
    rw [hcutoff]
    simp only [bind, Except.bind, habandon]
    refine ⟨hreserves, fun reserve hreserve => ?_⟩
    obtain ⟨created, hcreated, -⟩ := hstored.dated reserve hreserve
    have hold : reserve.occurredAtUtc ≤ cutoff.isoformat
        ↔ (created.micros : ℤ) ≤ instant.micros - olderThan := by
      rw [hcreated, isoformat_le_iff, ← hmicros, Nat.cast_le]
      rfl
    refine ⟨created, hcreated, fun h => hclosed reserve ?_, fun h => hothers _ ?_⟩
    · rw [hstale, List.mem_filter]
      exact ⟨hreserve, decide_eq_true ⟨h.1, hold.mpr h.2⟩⟩
    · -- identifiers differ, so the list has no other reservation of this one's
      intro hmem
      obtain ⟨other, hother, hid⟩ := List.mem_map.mp hmem
      rw [hstale, List.mem_filter, decide_eq_true_eq] at hother
      obtain rfl := List.inj_on_of_nodup_map hstored.distinct hother.1 hreserve hid
      exact h ⟨hother.2.1, hold.mp hother.2.2⟩
  · rw [herror]
    refine ⟨rfl, fun reserve hreserve => ?_⟩
    obtain ⟨created, hcreated, -⟩ := hstored.dated reserve hreserve
    refine ⟨created, hcreated, fun h => absurd h.2 ?_, fun _ => rfl⟩
    omega

/-- In every ledger that calls have left, a reconciliation closes exactly the open reservations that
are old enough; and the comparison of texts that it makes is the one of the instants. -/
theorem reconcileAbandoned_closes (huuid : Function.Injective uuid4) (calls : List Call)
    {olderThan : ℤ} (hnonneg : 0 ≤ olderThan) (instant : Datetime) :
    Reconciles olderThan instant (runCalls config uuid4 Ledger.empty calls).rows
        (step config uuid4 (runCalls config uuid4 Ledger.empty calls)
          (.reconcileAbandoned olderThan (.aware instant))).rows
      ∧ ∀ created cutoff : Datetime, created.isoformat ≤ cutoff.isoformat ↔ created ≤ cutoff :=
  ⟨(stored_runCalls huuid calls).reconciles huuid hnonneg instant, fun _ _ => isoformat_le_iff⟩

/-- Identifiers of different lengths. -/
def unaryUuid4 (n : ℕ) : String := String.ofList (List.replicate n 'a')

theorem unaryUuid4_injective : Function.Injective unaryUuid4 := by
  intro m n h
  have hlength := congrArg (fun text : String => text.toList.length) h
  simpa [unaryUuid4] using hlength

/-- A reservation is closed at the instant at which it was made when no age is asked for. -/
theorem reconcileAbandoned_closes_sample :
    Reconciles 0 sampleInstant
      (runCalls sampleConfig unaryUuid4 Ledger.empty [.reserve sampleRequest]).rows
      (step sampleConfig unaryUuid4
        (runCalls sampleConfig unaryUuid4 Ledger.empty [.reserve sampleRequest])
          (.reconcileAbandoned 0 (.aware sampleInstant))).rows :=
  (reconcileAbandoned_closes unaryUuid4_injective [.reserve sampleRequest] le_rfl sampleInstant).1

end IouAi.Budget
