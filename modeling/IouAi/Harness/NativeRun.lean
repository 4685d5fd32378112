import IouAi.Harness.Native
import IouAi.Harness.Repro
import Mathlib.Tactic.IntervalCases

/-!
# Runs of the harness loop

What one iteration does on a complete and on a truncated operation (`execute_item`,
`execute_nops`), and from it what the loop does on a whole input: it queues the complete operations,
at most `MAX_OPS` of them, and then a truncated one as if it were complete. `run_complete` is the
input of complete operations, `run_truncated` and `run_maxOps` are the inputs that break off inside
an operation, and `exists_run` is what holds of every input.
-/

namespace IouAi.HarnessNative

open HeadCode HarnessCodec Repro

variable {L : Liburing} {order : ReadOrder} {PL : Bytes}

/-- Every case reads as many operands as the codec's tables say. -/
theorem length_switch (order : ReadOrder) {k : ℕ} (hk : k < NOPS) :
    (switch order k).1.length = operandCount k := by
  rw [NOPS] at hk
  interval_cases k
  all_goals first
    | rfl
    | exact order.timeout_perm.length_eq
    | exact order.pollUpdate_perm.length_eq
    | exact order.filesUpdate_perm.length_eq
    | exact order.msgRing_perm.length_eq

/-! ## Reading -/

@[simp] theorem Regs.set_c_c (regs : Regs) (v : ℕ) : (regs.set .c v).c = v := rfl

theorem drop_succ_of_drop_eq_cons {pos : ℕ} {b : UInt8} {bs : Bytes} (h : PL.drop pos = b :: bs) :
    pos < PL.length ∧ PL.getD pos 0 = b ∧ PL.drop (pos + 1) = bs := by
  have hlt : pos < PL.length := by
    by_contra hle
    rw [List.drop_eq_nil_of_le (by omega)] at h
    simp at h
  rw [List.drop_eq_getElem_cons hlt, List.cons.injEq] at h
  exact ⟨hlt, by rw [List.getD_eq_getElem _ _ hlt, h.1], h.2⟩

theorem rd8_of_drop_eq_cons {reader : Reader} {r : Reg} {b : UInt8} {bs : Bytes}
    (h : PL.drop reader.POS = b :: bs) :
    rd8 PL reader r =
      ⟨reader.POS + 1, reader.regs.set r b.toNat, reader.bytes ++ [b], reader.failures⟩ := by
  obtain ⟨hlt, hget, -⟩ := drop_succ_of_drop_eq_cons h
  rw [rd8, if_pos hlt, hget]

theorem rd8_of_drop_eq_nil {reader : Reader} {r : Reg} (h : PL.drop reader.POS = []) :
    rd8 PL reader r = { reader with failures := reader.failures + 1 } := by
  rw [rd8, if_neg (by simpa using h)]

/-- A sequence of reads takes what is there of the bytes it asks for; the others fail. -/
theorem foldl_rd8 (PL : Bytes) (reads : List Reg) (reader : Reader) :
    let result := reads.foldl (rd8 PL) reader
    let rest := PL.drop reader.POS
    result.POS = reader.POS + min reads.length rest.length ∧
      result.bytes = reader.bytes ++ rest.take reads.length ∧
      result.failures = reader.failures + (reads.length - rest.length) := by
  induction reads generalizing reader with
  | nil => simp
  | cons r reads ih =>
    simp only [List.foldl_cons]
    obtain ⟨hpos, hbytes, hfail⟩ := ih (rd8 PL reader r)
    cases hrest : PL.drop reader.POS with
    | nil =>
      rw [rd8_of_drop_eq_nil hrest] at hpos hbytes hfail ⊢
      simp only [hrest] at hpos hbytes hfail
      refine ⟨by simpa using hpos, by simpa using hbytes, ?_⟩
      simp only [List.length_cons, List.length_nil] at hfail ⊢
      omega
    | cons b bs =>
      obtain ⟨-, -, hdrop⟩ := drop_succ_of_drop_eq_cons hrest
      rw [rd8_of_drop_eq_cons hrest] at hpos hbytes hfail ⊢
      simp only [hdrop] at hpos hbytes hfail
      refine ⟨?_, by simpa using hbytes, ?_⟩
      · rw [hpos, List.length_cons, List.length_cons]
        omega
      · rw [hfail, List.length_cons, List.length_cons]
        omega

/-! ## One iteration -/

/-- The writes of an iteration to its SQE. -/
def Queued.Written (order : ReadOrder) (q : Queued L) : Prop :=
  (∃ regs, q.prep = (switch order (q.op % NOPS)).2 regs) ∧
    ∃ slot, q.sqe = L.setData (L.setBufGroup (L.setFlags (L.prep q.prep slot)
      (.ofNat (q.control &&& sqeFlagsMask))) (.ofNat (q.control >>> 4))) (.ofNat q.op)

theorem Queued.Written.flags {q : Queued L} (h : q.Written order) :
    L.flags q.sqe = .ofNat (q.control &&& sqeFlagsMask) := by
  obtain ⟨-, slot, hsqe⟩ := h
  rw [hsqe, L.flags_setData, L.flags_setBufGroup, L.flags_setFlags]

theorem Queued.Written.bufGroup {q : Queued L} (h : q.Written order) :
    L.bufGroup q.sqe = .ofNat (q.control >>> 4) := by
  obtain ⟨-, slot, hsqe⟩ := h
  rw [hsqe, L.bufGroup_setData, L.bufGroup_setBufGroup]

theorem Queued.Written.userData {q : Queued L} (h : q.Written order) :
    L.userData q.sqe = .ofNat q.op := by
  obtain ⟨-, slot, hsqe⟩ := h
  rw [hsqe, L.userData_setData]

/-- An iteration queues one operation and leaves the count of iterations alone. -/
theorem execute_log (order : ReadOrder) (PL : Bytes) (state : State L) (op : ℕ) (sqe : L.Sqe) :
    (execute order PL state op sqe).nops = state.nops ∧
      ∃ q, (execute order PL state op sqe).log = state.log ++ [q] ∧ q.op = op ∧
        q.Written order :=
  ⟨rfl, _, rfl, rfl, ⟨_, rfl⟩, _, rfl⟩

theorem POS_caseReads (pos op : ℕ) : (caseReads order PL pos op).POS =
    pos + min (switch order (op % NOPS)).1.length (PL.length - pos) := by
  have hreads := (foldl_rd8 PL (switch order (op % NOPS)).1 ⟨pos, .zero, [], 0⟩).1
  rw [List.length_drop] at hreads
  exact hreads

theorem le_POS_rd8 (reader : Reader) (r : Reg) : reader.POS ≤ (rd8 PL reader r).POS := by
  rw [rd8]
  split
  · exact Nat.le_succ _
  · exact le_rfl

theorem POS_rd8_le {reader : Reader} {r : Reg} (h : reader.POS ≤ PL.length) :
    (rd8 PL reader r).POS ≤ PL.length := by
  rw [rd8]
  split
  · next hlt => exact hlt
  · exact h

/-- An iteration never moves the position past the end of the input. -/
theorem POS_execute_le {state : State L} {op : ℕ} {sqe : L.Sqe} (h : state.POS ≤ PL.length) :
    (execute order PL state op sqe).POS ≤ PL.length := by
  have hle : (caseReads order PL state.POS op).POS ≤ PL.length := by
    rw [POS_caseReads]
    omega
  exact POS_rd8_le hle

/-- An iteration never moves the position back. -/
theorem le_POS_execute (state : State L) (op : ℕ) (sqe : L.Sqe) :
    state.POS ≤ (execute order PL state op sqe).POS := by
  have hreads : state.POS ≤ (caseReads order PL state.POS op).POS := by
    rw [POS_caseReads]
    omega
  exact hreads.trans (le_POS_rd8 _ _)

/-- What the harness reads of a complete operation. -/
structure Executed where
  op : ℕ
  operands : Bytes
  control : ℕ
  failures : ℕ
  deriving DecidableEq, Repr

def Queued.executed (q : Queued L) : Executed := ⟨q.op, q.operands, q.control, q.failures⟩

/-- The complete operation, read whole. -/
def itemExecuted (w : Bytes) : Executed :=
  ⟨(w.headD 0).toNat, w.tail.dropLast, (w.getLastD 0).toNat, 0⟩

theorem itemExecuted_item (selector : UInt8) (operands : Bytes) (control : UInt8) :
    itemExecuted (selector :: operands ++ [control]) =
      ⟨selector.toNat, operands, control.toNat, 0⟩ := by
  have hlast : (selector :: operands ++ [control]).getLastD 0 = control := List.getLastD_concat ..
  have hmid : (selector :: operands ++ [control]).tail.dropLast = operands := by simp
  simp only [itemExecuted, hlast, hmid]
  rfl

/-- The reads of a case on a complete operation: its operand bytes, and no failure. -/
theorem caseReads_item (order : ReadOrder) {pos op : ℕ} {operands rest : Bytes}
    (hlen : operands.length = operandCount (op % operationCount))
    (h : PL.drop pos = operands ++ rest) :
    (caseReads order PL pos op).POS = pos + operands.length ∧
      (caseReads order PL pos op).bytes = operands ∧
      (caseReads order PL pos op).failures = 0 := by
  have hswitch := length_switch order (Nat.mod_lt op (show 0 < NOPS by decide))
  have hlen' : (switch order (op % NOPS)).1.length = operands.length := hswitch.trans hlen.symm
  obtain ⟨hpos, hbytes, hfail⟩ :=
    foldl_rd8 PL (switch order (op % NOPS)).1 ⟨pos, .zero, [], 0⟩
  simp only [h, hlen', List.length_append, List.take_left, List.nil_append] at hpos hbytes hfail
  refine ⟨?_, hbytes, ?_⟩
  · rw [caseReads, hpos]
    omega
  · rw [caseReads, hfail]
    omega

/-- An iteration on a complete operation reads exactly its bytes. -/
theorem execute_item (order : ReadOrder) (state : State L) (sqe : L.Sqe)
    {selector control : UInt8} {operands rest : Bytes} (hlen : operands.length = operandCount (selector.toNat % operationCount))
    (h : PL.drop state.POS = operands ++ control :: rest) :
    (execute order PL state selector.toNat sqe).POS = state.POS + operands.length + 1 ∧
      ∃ q, (execute order PL state selector.toNat sqe).log = state.log ++ [q] ∧
        q.executed = ⟨selector.toNat, operands, control.toNat, 0⟩ ∧ q.Written order := by
  obtain ⟨hpos, hbytes, hfail⟩ := caseReads_item order hlen h
  have hcontrol : PL.drop (caseReads order PL state.POS selector.toNat).POS = control :: rest := by
    rw [hpos, ← List.drop_drop, h, List.drop_left]
  have hrd8 := rd8_of_drop_eq_cons (r := .c) hcontrol
  refine ⟨?_, _, rfl, ?_, ⟨_, rfl⟩, _, rfl⟩
  · simp only [execute, hrd8, hpos]
  · simp only [Queued.executed, hrd8, hbytes, hfail, Regs.set_c_c]

/-! ## The loop -/

/-- After a submit there is an SQE, so an iteration always gets one. -/
theorem exists_acquireSqe (state : State L) :
    ∃ sqe queue queued,
      acquireSqe state = (some sqe, { state with queue := queue, queued := queued }) := by
  rw [acquireSqe]
  split
  · exact ⟨_, _, _, rfl⟩
  · split
    · exact ⟨_, _, _, rfl⟩
    · next hnone =>
      have hsome := L.getSqe_submit state.queue
      rw [hnone] at hsome
      simp at hsome

/-- One round of the loop while there are bytes and operations left. -/
theorem loop_succ (order : ReadOrder) (fuel : ℕ) {state : State L} (hpos : state.POS < PL.length)
    (hnops : state.nops < MAX_OPS) :
    ∃ sqe queue queued, loop order PL (fuel + 1) state =
      loop order PL fuel (execute order PL
        { state with POS := state.POS + 1, nops := state.nops + 1, queue := queue, queued := queued }
        (PL.getD state.POS 0).toNat sqe) := by
  obtain ⟨sqe, queue, queued, hacquire⟩ :=
    exists_acquireSqe { state with POS := state.POS + 1, nops := state.nops + 1 }
  refine ⟨sqe, queue, queued, ?_⟩
  rw [loop, if_pos hpos]
  simp only [hacquire]
  rw [if_neg (by omega)]

theorem loop_maxOps {fuel : ℕ} {state : State L} (hpos : state.POS < PL.length)
    (hnops : state.nops = MAX_OPS) :
    loop order PL (fuel + 1) state =
      some ({ state with POS := state.POS + 1, nops := state.nops + 1 }, .maxOps) := by
  rw [loop, if_pos hpos]
  simp only
  rw [if_pos (by omega)]

theorem loop_endOfInput {fuel : ℕ} {state : State L} (hpos : PL.length ≤ state.POS) :
    loop order PL (fuel + 1) state = some (state, .endOfInput) := by
  rw [loop, if_neg (by omega)]

/-- **The loop ends**: every round reads a byte. -/
theorem loop_isSome {fuel : ℕ} {state : State L} (hle : state.POS ≤ PL.length)
    (hnops : state.nops ≤ MAX_OPS) (hfuel : PL.length < state.POS + fuel) :
    (loop order PL fuel state).isSome := by
  induction fuel generalizing state with
  | zero => omega
  | succ fuel ih =>
    by_cases hpos : state.POS < PL.length
    · rcases hnops.lt_or_eq with hlt | heq
      · obtain ⟨sqe, queue, queued, hloop⟩ := loop_succ order fuel hpos hlt
        rw [hloop]
        generalize hop : (PL.getD state.POS 0).toNat = op
        have hmono : state.POS + 1 ≤ (execute order PL
            ⟨state.POS + 1, queue, queued, state.nops + 1, state.log⟩ op sqe).POS :=
          le_POS_execute ⟨state.POS + 1, queue, queued, state.nops + 1, state.log⟩ op sqe
        exact ih (POS_execute_le hpos) hlt (by omega)
      · rw [loop_maxOps hpos heq]
        rfl
    · rw [loop_endOfInput (by omega)]
      rfl

/-- What holds of every state in the loop: one operation is queued for every round, and the SQEs
are written in the order of the source. -/
structure State.Inv (order : ReadOrder) (state : State L) : Prop where
  length_log : state.log.length = state.nops
  nops_le : state.nops ≤ MAX_OPS
  written : ∀ q ∈ state.log, q.Written order

theorem State.Inv.execute {state : State L} (h : state.Inv order) (hnops : state.nops < MAX_OPS)
    (POS : ℕ) (queue : L.Queue) (queued op : ℕ) (sqe : L.Sqe) :
    (execute order PL ⟨POS, queue, queued, state.nops + 1, state.log⟩ op sqe).Inv order := by
  obtain ⟨hn, q, hlog, -, hq⟩ :=
    execute_log order PL ⟨POS, queue, queued, state.nops + 1, state.log⟩ op sqe
  refine ⟨?_, ?_, ?_⟩
  · rw [hlog, hn, List.length_append, h.length_log]
    rfl
  · rw [hn]
    exact hnops
  · intro q' hq'
    rw [hlog, List.mem_append, List.mem_singleton] at hq'
    rcases hq' with hq' | rfl
    · exact h.written q' hq'
    · exact hq

/-- **Every run of the loop** queues at most `MAX_OPS` operations, each written as the source
writes it. -/
theorem State.Inv.loop {fuel : ℕ} {state state' : State L} {exit : Exit} (h : state.Inv order)
    (hrun : loop order PL fuel state = some (state', exit)) :
    state'.log.length ≤ MAX_OPS ∧ ∀ q ∈ state'.log, q.Written order := by
  induction fuel generalizing state with
  | zero => simp [HarnessNative.loop] at hrun
  | succ fuel ih =>
    have hlen : state.log.length ≤ MAX_OPS := h.length_log.trans_le h.nops_le
    by_cases hpos : state.POS < PL.length
    · rcases h.nops_le.lt_or_eq with hlt | heq
      · obtain ⟨sqe, queue, queued, hloop⟩ := loop_succ order fuel hpos hlt
        rw [hloop] at hrun
        exact ih (h.execute hlt _ _ _ _ _) hrun
      · rw [loop_maxOps hpos heq, Option.some.injEq, Prod.mk.injEq] at hrun
        obtain ⟨rfl, -⟩ := hrun
        exact ⟨hlen, h.written⟩
    · rw [loop_endOfInput (by omega), Option.some.injEq, Prod.mk.injEq] at hrun
      obtain ⟨rfl, -⟩ := hrun
      exact ⟨hlen, h.written⟩

/-- The loop on complete operations: it reads each of them whole. -/
theorem loop_items (order : ReadOrder) (fuel : ℕ) (state : State L) {items : List Bytes}
    {rest : Bytes} (hitems : ∀ w ∈ items, IsItem lenientTailLength w)
    (hdrop : PL.drop state.POS = items.flatten ++ rest)
    (hnops : state.nops + items.length ≤ MAX_OPS) :
    ∃ state' : State L, loop order PL (fuel + items.length) state = loop order PL fuel state' ∧
      state'.POS = state.POS + items.flatten.length ∧
      state'.nops = state.nops + items.length ∧
      state'.log.map Queued.executed = state.log.map Queued.executed ++ items.map itemExecuted := by
  induction items generalizing state with
  | nil => exact ⟨state, rfl, rfl, rfl, by simp⟩
  | cons w items ih =>
    obtain ⟨selector, operands, control, rfl, hlen⟩ := isItem_iff.mp (hitems w (by simp))
    rw [List.length_cons] at hnops
    have hcons : PL.drop state.POS = selector :: (operands ++ control :: (items.flatten ++ rest)) := by
      simpa using hdrop
    obtain ⟨hlt, hget, hdrop'⟩ := drop_succ_of_drop_eq_cons hcons
    obtain ⟨sqe, queue, queued, hloop⟩ :=
      loop_succ order (fuel + items.length) hlt (by omega)
    obtain ⟨hpos, q, hlog, hq, -⟩ := execute_item order
      (⟨state.POS + 1, queue, queued, state.nops + 1, state.log⟩ : State L) sqe hlen hdrop'
    have hn := (execute_log order PL
      (⟨state.POS + 1, queue, queued, state.nops + 1, state.log⟩ : State L) selector.toNat sqe).1
    rw [hget] at hloop
    generalize execute order PL
      (⟨state.POS + 1, queue, queued, state.nops + 1, state.log⟩ : State L) selector.toNat sqe =
      next at hloop hpos hlog hn
    simp only at hpos hlog hn
    have hrest : PL.drop next.POS = items.flatten ++ rest := by
      rw [hpos, Nat.add_assoc (state.POS + 1), ← List.drop_drop, hdrop']
      simp [List.drop_append]
    obtain ⟨state', hloop', hpos', hn', hlog'⟩ :=
      ih next (fun v hv => hitems v (by simp [hv])) hrest (by omega)
    refine ⟨state', ?_, ?_, ?_, ?_⟩
    · rw [List.length_cons, ← Nat.add_assoc, hloop, hloop']
    · rw [hpos', hpos]
      simp
      omega
    · rw [hn', hn, List.length_cons]
      omega
    · rw [hlog', hlog, List.map_cons, itemExecuted_item]
      simp [hq]

/-- The loop on a truncated operation: it is queued all the same, and the input is at its end. -/
theorem loop_truncated (order : ReadOrder) (fuel : ℕ) {state : State L} (hnops : state.nops < MAX_OPS)
    (htail : IsTruncated lenientTailLength (PL.drop state.POS)) :
    ∃ state' : State L, loop order PL (fuel + 2) state = some (state', .endOfInput) ∧
      ∃ q, state'.log = state.log ++ [q] := by
  obtain ⟨selector, t, hdrop, ht⟩ := htail
  obtain ⟨hlt, hget, -⟩ := drop_succ_of_drop_eq_cons hdrop
  obtain ⟨sqe, queue, queued, hloop⟩ := loop_succ order (fuel + 1) hlt hnops
  have hlen : PL.length - state.POS = t.length + 1 := by
    rw [← List.length_drop, hdrop, List.length_cons]
  have hswitch := length_switch order (Nat.mod_lt selector.toNat (show 0 < NOPS by decide))
  have hcount : t.length ≤ (switch order (selector.toNat % NOPS)).1.length := by
    rw [hswitch]
    exact Nat.lt_succ_iff.mp ht
  have hend : PL.length ≤ (execute order PL
      (⟨state.POS + 1, queue, queued, state.nops + 1, state.log⟩ : State L)
      selector.toNat sqe).POS := by
    refine le_trans ?_ (le_POS_rd8 _ _)
    rw [POS_caseReads]
    simp only
    omega
  rw [hget, loop_endOfInput hend] at hloop
  exact ⟨_, hloop, _, rfl⟩

/-! ## Runs -/

variable (order : ReadOrder) (ringOk : ℕ → Bool) (queue : L.Queue) (ring : UInt8)

/-- **Every run ends**, with at most `MAX_OPS` operations, each written as the source writes it. -/
theorem exists_run (payload : Bytes) :
    ∃ r, run order ringOk queue payload = some r ∧ r.state.log.length ≤ MAX_OPS ∧
      ∀ q ∈ r.state.log, q.Written order := by
  have hsome : (loop order (payload.take MAX_INPUT) ((payload.take MAX_INPUT).length + 1)
      (⟨min 1 (payload.take MAX_INPUT).length, queue, 0, 0, []⟩ : State L)).isSome :=
    loop_isSome (Nat.min_le_right _ _) (Nat.zero_le _) (by omega)
  obtain ⟨⟨state, exit⟩, hloop⟩ := Option.isSome_iff_exists.mp hsome
  have hinv : State.Inv order (⟨min 1 (payload.take MAX_INPUT).length, queue, 0, 0, []⟩ : State L) :=
    ⟨rfl, Nat.zero_le _, by simp⟩
  refine ⟨_, by rw [run, hloop]; rfl, hinv.loop hloop⟩

/-- The start of a run on at most `MAX_OPS` complete operations and an empty or truncated tail: the
input is not clipped, and the loop comes to the tail with the operations queued. -/
theorem exists_run_eq {stream tail : Bytes} {items : List Bytes}
    (hsplits : Splits lenientTailLength stream items tail) (hitems : items.length ≤ MAX_OPS) :
    ∃ (k : ℕ) (state : State L),
      run order ringOk queue (ring :: stream) =
        (loop order (ring :: stream) (k + 2) state).map
          (fun (state, exit) => ⟨ring.toNat, fallback ringOk NRINGS ring.toNat % NRINGS,
            state, exit⟩) ∧
      state.POS = 1 + items.flatten.length ∧ state.nops = items.length ∧
      state.log.map Queued.executed = items.map itemExecuted := by
  have htail : tail.length < 5 := by
    rcases hsplits.tail with rfl | ⟨selector, t, rfl, ht⟩
    · simp
    · have := lenientTailLength_lt selector
      rw [List.length_cons]
      omega
  have hstream : stream.length = items.flatten.length + tail.length := by
    rw [hsplits.eq, List.length_append]
  have hflatten := length_flatten_le lenientTailLength_lt hsplits.items
  have hcount := length_le_length_flatten hsplits.items
  have hmax : items.length ≤ 96 := hitems
  have htake : (ring :: stream).take MAX_INPUT = ring :: stream := by
    rw [List.take_of_length_le]
    rw [List.length_cons, MAX_INPUT]
    omega
  have hfuel : (ring :: stream).length + 1 =
      items.flatten.length - items.length + tail.length + 2 + items.length := by
    rw [List.length_cons]
    omega
  have hdrop : (ring :: stream).drop 1 = items.flatten ++ tail := hsplits.eq
  obtain ⟨state, hloop, hpos, hnops, hlog⟩ := loop_items order
    (items.flatten.length - items.length + tail.length + 2) (⟨1, queue, 0, 0, []⟩ : State L)
    hsplits.items hdrop (by simpa using hitems)
  refine ⟨items.flatten.length - items.length + tail.length, state, ?_, hpos, by simpa using hnops,
    by simpa using hlog⟩
  rw [run, htake, hfuel, ← hloop]
  simp

/-- What is left of the input at the tail. -/
theorem drop_POS_eq {stream tail : Bytes} {items : List Bytes}
    (hsplits : Splits lenientTailLength stream items tail) {pos : ℕ}
    (hpos : pos = 1 + items.flatten.length) : (ring :: stream).drop pos = tail := by
  have hdrop : (ring :: stream).drop 1 = items.flatten ++ tail := hsplits.eq
  rw [hpos, ← List.drop_drop, hdrop, List.drop_left]

/-- **A payload of complete operations**, at most `MAX_OPS` of them, is read to its end. -/
theorem run_complete {stream : Bytes} {items : List Bytes}
    (hsplits : Splits lenientTailLength stream items []) (hitems : items.length ≤ MAX_OPS) :
    ∃ r : Run L, run order ringOk queue (ring :: stream) = some r ∧ r.ri = ring.toNat ∧
      r.exit = .endOfInput ∧ r.state.POS = stream.length + 1 ∧ r.state.nops = items.length ∧
      r.state.log.map Queued.executed = items.map itemExecuted := by
  obtain ⟨k, state, hrun, hpos, hnops, hlog⟩ := exists_run_eq order ringOk queue ring hsplits hitems
  have hend : state.POS = stream.length + 1 := by
    rw [hpos, hsplits.eq, List.append_nil, Nat.add_comm]
  rw [loop_endOfInput (by rw [hend, List.length_cons])] at hrun
  exact ⟨_, hrun, rfl, rfl, hend, hnops, hlog⟩

/-- A truncated operation after fewer than `MAX_OPS` complete ones is queued too. -/
theorem run_truncated {stream tail : Bytes} {items : List Bytes}
    (hsplits : Splits lenientTailLength stream items tail) (hitems : items.length < MAX_OPS)
    (htail : tail ≠ []) :
    ∃ r : Run L, run order ringOk queue (ring :: stream) = some r ∧
      r.state.log.length = items.length + 1 := by
  obtain ⟨k, state, hrun, hpos, hnops, hlog⟩ :=
    exists_run_eq order ringOk queue ring hsplits hitems.le
  have hdrop := drop_POS_eq ring hsplits hpos
  have htr : IsTruncated lenientTailLength ((ring :: stream).drop state.POS) :=
    hdrop.symm ▸ hsplits.tail.resolve_left htail
  obtain ⟨state', hloop, q, hlog'⟩ :=
    loop_truncated order k (hnops.trans_lt hitems) htr
  rw [hloop] at hrun
  refine ⟨_, hrun, ?_⟩
  have hlen := congrArg List.length hlog
  simp only [List.length_map] at hlen
  simp only [hlog', List.length_append, List.length_singleton, hlen]

/-- A truncated operation after `MAX_OPS` complete ones is not queued. -/
theorem run_maxOps {stream tail : Bytes} {items : List Bytes}
    (hsplits : Splits lenientTailLength stream items tail) (hitems : items.length = MAX_OPS)
    (htail : tail ≠ []) :
    ∃ r : Run L, run order ringOk queue (ring :: stream) = some r ∧ r.ri = ring.toNat ∧
      r.exit = .maxOps ∧ r.state.log.map Queued.executed = items.map itemExecuted := by
  obtain ⟨k, state, hrun, hpos, hnops, hlog⟩ :=
    exists_run_eq order ringOk queue ring hsplits hitems.le
  have hdrop := drop_POS_eq ring hsplits hpos
  have hlt : state.POS < (ring :: stream).length := by
    by_contra hle
    rw [List.drop_eq_nil_of_le (by omega)] at hdrop
    exact htail hdrop.symm
  rw [loop_maxOps hlt (hnops.trans hitems)] at hrun
  exact ⟨_, hrun, rfl, rfl, hlog⟩

end IouAi.HarnessNative
