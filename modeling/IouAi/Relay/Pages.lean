import IouAi.Relay.Decisions
import IouAi.Storage.Crashes
import Mathlib.Data.List.Sort

/-!
# The pages of the relay

The relay lists its decisions page by page (`listDecisions`). However its handlers interleave, the
decisions are numbered from one on without a gap (`Database.Numbered`) and none is ever dropped, so
that the page after a cursor is the next hundred decisions of one growing log
(`decisionsAfter_eq`, `completes_listDecisions`).
-/

namespace IouAi.Relay

open Calendar Json Storage Threads Wire

variable {sha256 : Sha256} {hmac : Hmac} {env : Env} {database database' : Database}
  {s s' : RelayState}

/-! ## The log -/

/-- The decisions are numbered from one on, in the order of their insertion. -/
def Database.Numbered (database : Database) : Prop :=
  database.decisions.map DecisionRow.sequence = List.range' 1 database.decisions.length

theorem foldr_max_range' (n : ℕ) : (List.range' 1 n).foldr max 0 = n := by
  induction n with
  | zero => rfl
  | succ n ih =>
    have hfold : ∀ (values : List ℕ) (base : ℕ),
        values.foldr max base = max (values.foldr max 0) base := by
      intro values base
      induction values with
      | nil => simp
      | cons value values ih => simp [ih, max_assoc]
    rw [List.range'_concat, List.foldr_append, hfold, ih]
    simp
    omega

theorem Database.Numbered.nextSequence (h : database.Numbered) :
    database.nextSequence = database.decisions.length + 1 := by
  rw [Database.nextSequence, h, foldr_max_range']

/-- A move of the relay leaves the decisions or adds one. -/
theorem decisions_of_move (h : System.Move semantics s s') :
    s'.database.decisions = s.database.decisions ∨
      ∃ new, s'.database.decisions = s.database.decisions ++ [s.database.decisionRow new] := by
  rcases h with ⟨op, outcome, hexec⟩ | hmove
  · by_cases hcommitted : ∃ s₀ new changes,
      (⟨s, op, outcome⟩ : RelayEntry) = committed s₀ new changes
    · obtain ⟨s₀, new, changes, heq⟩ := hcommitted
      cases heq
      cases hexec with
      | commit hrun =>
        obtain ⟨_, _, _, _, rfl⟩ := Database.insertDecision_eq_some hrun
        exact .inr ⟨new, rfl⟩
    · refine .inl (decisions_of_ne_committed hexec fun s₀ new changes heq => ?_)
      exact hcommitted ⟨s₀, new, changes, heq⟩
  · cases hmove <;> exact .inl rfl

theorem Database.Numbered.move (h : s.database.Numbered) (hmove : System.Move semantics s s') :
    s'.database.Numbered := by
  rcases decisions_of_move hmove with hsame | ⟨new, hnew⟩
  · rwa [Database.Numbered, hsame]
  · have hsequence : (s.database.decisionRow new).sequence = 1 + s.database.decisions.length := by
      rw [Database.decisionRow, h.nextSequence, Nat.add_comm]
    rw [Database.Numbered, hnew, List.map_append, List.length_append, List.length_singleton, h,
      List.map_singleton, hsequence, List.range'_concat, Nat.one_mul]

theorem Database.Numbered.moves (h : s.database.Numbered)
    (hmoves : Relation.ReflTransGen (System.Move semantics) s s') : s'.database.Numbered := by
  induction hmoves with
  | refl => exact h
  | tail _ hmove ih => exact ih.move hmove

/-- The log of decisions only grows. -/
theorem decisions_isPrefix (hmoves : Relation.ReflTransGen (System.Move semantics) s s') :
    s.database.decisions <+: s'.database.decisions := by
  induction hmoves with
  | refl => exact List.prefix_rfl
  | tail _ hmove ih =>
    refine ih.trans ?_
    rcases decisions_of_move hmove with hsame | ⟨new, hnew⟩
    · exact hsame ▸ List.prefix_rfl
    · rw [hnew]
      exact List.prefix_append _ _

theorem RelayReachable.numbered {sys : RelaySystem} (h : RelayReachable sha256 hmac env sys) :
    sys.state.database.Numbered := by
  obtain ⟨clock, h⟩ := h
  have hempty : (⟨Database.empty, clock⟩ : RelayState).database.Numbered := rfl
  exact hempty.moves (System.moves h)

/-! ## Pages -/

theorem filter_sequence {rows : List DecisionRow} {start after : ℕ}
    (h : rows.map DecisionRow.sequence = List.range' start rows.length) (hstart : start ≤ after + 1) :
    (rows.filter fun row => after < row.sequence) = rows.drop (after + 1 - start) := by
  induction rows generalizing start with
  | nil => simp
  | cons row rows ih =>
    rw [List.map_cons, List.length_cons, List.range'_succ, List.cons.injEq] at h
    obtain ⟨hrow, hrows⟩ := h
    rcases Nat.eq_or_lt_of_le hstart with rfl | hlt
    · -- every row from here on comes after the cursor
      rw [Nat.sub_self, List.drop_zero, List.filter_eq_self]
      intro other hother
      have hmem : other.sequence ∈ List.range' (after + 1) (rows.length + 1) := by
        rw [List.range'_succ, ← hrows, ← hrow, ← List.map_cons]
        exact List.mem_map_of_mem hother
      rw [List.mem_range'_1] at hmem
      exact decide_eq_true (by omega)
    · have hskip : ¬ after < row.sequence := by omega
      rw [List.filter_cons_of_neg (by simpa using hskip), ih hrows (by omega)]
      have hdrop : after + 1 - start = after + 1 - (start + 1) + 1 := by omega
      rw [hdrop, List.drop_succ_cons]

/-- The rows after a cursor are the next hundred of the log. -/
theorem decisionsAfter_eq (h : database.Numbered) (after : ℕ) :
    database.decisionsAfter after = (database.decisions.drop after).take 100 := by
  have hsorted : (database.decisions.map DecisionRow.sequence).Pairwise (· < ·) := by
    rw [h]
    exact List.pairwise_lt_range'
  rw [List.pairwise_map] at hsorted
  have hdrop : (database.decisions.drop after).Pairwise
      fun decision other => decision.sequence ≤ other.sequence :=
    (hsorted.imp le_of_lt).sublist (List.drop_sublist _ _)
  rw [Database.decisionsAfter, filter_sequence h (Nat.le_add_left 1 after), Nat.add_sub_cancel,
    hdrop.insertionSort_eq]

theorem length_decisionsAfter (h : database.Numbered) (after : ℕ) :
    (database.decisionsAfter after).length = min 100 (database.decisions.length - after) := by
  rw [decisionsAfter_eq h, List.length_take, List.length_drop]

/-- The cursor that the relay answers after a page is the number of its last row. -/
theorem next_eq (h : database.Numbered) (after : ℕ) :
    ((database.decisionsAfter after).getLast?.map DecisionRow.sequence).getD after
      = after + (database.decisionsAfter after).length := by
  have hpage : (database.decisionsAfter after).map DecisionRow.sequence
      = List.range' (1 + after) (database.decisionsAfter after).length := by
    rw [length_decisionsAfter h, decisionsAfter_eq h, List.map_take, List.map_drop, h,
      List.drop_range', Nat.mul_one]
    rcases Nat.le_total (database.decisions.length - after) 100 with hle | hge
    · rw [List.take_range'_of_length_le hle, Nat.min_eq_right hle]
    · rw [List.take_range'_of_length_ge hge, Nat.min_eq_left hge]
  rw [← List.getLast?_map, hpage, List.getLast?_range']
  split
  · rename_i hzero
    simp [hzero]
  · simp
    omega

/-! ## Replies -/

/-- What the host writes for a cursor is what the relay reads. -/
theorem eq_of_cursor? {n after : ℕ} (h : cursor? (toString n) = some after) : after = n := by
  have hne : toString n ≠ "" := by
    rw [ne_eq, ← String.toList_eq_nil_iff]
    exact Nat.toList_repr ▸ Nat.toDigits_ne_nil
  have hvalue : digitsValue (toString n).toList = n := by
    rw [show (toString n).toList = Nat.toDigits 10 n from Nat.toList_repr]
    exact Nat.ofDigitChars_ten_toDigits
  simp only [cursor?, if_neg hne, hvalue] at h
  split at h
  · exact (Option.some.inj h).symm
  · cases h

/-- The body of a page. -/
def pageBody (rows : List DecisionRow) (next : ℕ) : Json :=
  .obj [("schema_version", .str "relay-decisions.v1"),
    ("data", .arr (rows.map DecisionRow.signed)), ("next_cursor", .str (toString next))]

/-- When the relay answers the host with a page, it holds the next decisions of the log. -/
theorem completes_listDecisions {authorization : String} {after : ℕ} {value : Json}
    (hnumbered : s.database.Numbered)
    (h : Completes semantics (listDecisions sha256 env authorization (toString after)) s
      (.response 200 value) s') :
    value = pageBody ((s.database.decisions.drop after).take 100)
      (after + ((s.database.decisions.drop after).take 100).length) := by
  unfold listDecisions at h
  split at h
  · cases (completes_done.mp h).1
  · obtain ⟨ready, s₁, hready, h⟩ := completes_bind.mp h
    have hdecisions : s₁.database.decisions = s.database.decisions := by
      refine hready.leaves.preserves (P := fun s' => s'.database.decisions = s.database.decisions)
        ?_ (Quiet.plain quiet_deliveryReady) rfl
      intro op outcome s₂ s₃ hplain hexec hsame
      rw [decisions_of_ne_committed hexec fun s₀ => ne_committed_of_isPlain hplain s₀, hsame]
    have hnumbered' : s₁.database.Numbered := by
      rwa [Database.Numbered, hdecisions]
    cases ready with
    | false => cases (completes_done.mp h).1
    | true =>
      rw [Bool.not_true, if_neg Bool.false_ne_true] at h
      split at h
      · cases (completes_done.mp h).1
      · rename_i cursor hcursor
        obtain ⟨rows, s₂, hexec, h⟩ := completes_call.mp h
        cases hexec with
        | abort => cases (completes_done.mp h).1
        | commit hrun =>
          cases hrun
          obtain ⟨hreply, -⟩ := completes_done.mp h
          cases hreply
          rw [next_eq hnumbered', decisionsAfter_eq hnumbered', eq_of_cursor? hcursor, hdecisions]
          rfl

end IouAi.Relay
