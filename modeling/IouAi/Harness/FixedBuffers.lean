import IouAi.Harness.Lockstep

/-!
# The buffer index of fixed reads and writes

The cases 41 and 42 give the prep call the base of a registered buffer and the index of that buffer.
In the SQE the index is one field with `buf_group`, which the loop writes from the control byte
after the prep call. So at submission the index is that of the buffer exactly when the upper half
of the control byte is (`fixed_buffers_iff`).
-/

namespace IouAi.HarnessNative

open HarnessCodec (Bytes)

variable {L : Liburing} {order : ReadOrder} {PL : Bytes}

/-- The two fields of an SQE that select a registered buffer: the index, which is another name of
the buffer group, and the registered buffer that the address is the base of. -/
structure FixedFields (L : Liburing) where
  bufIndex : L.Sqe → UInt16
  addr : L.Sqe → ℕ
  bufIndex_eq_bufGroup : ∀ sqe, bufIndex sqe = L.bufGroup sqe
  bufIndex_prep_readFixed : ∀ fd bi sqe, bufIndex (L.prep (.readFixed fd bi) sqe) = .ofNat bi
  bufIndex_prep_writeFixed : ∀ fd bi sqe, bufIndex (L.prep (.writeFixed fd bi) sqe) = .ofNat bi
  addr_prep_readFixed : ∀ fd bi sqe, addr (L.prep (.readFixed fd bi) sqe) = bi
  addr_prep_writeFixed : ∀ fd bi sqe, addr (L.prep (.writeFixed fd bi) sqe) = bi
  addr_setFlags : ∀ sqe v, addr (L.setFlags sqe v) = addr sqe
  addr_setBufGroup : ∀ sqe v, addr (L.setBufGroup sqe v) = addr sqe
  addr_setData : ∀ sqe v, addr (L.setData sqe v) = addr sqe

namespace Queued

/-- An operation that the switch sends to case 41 or case 42. -/
def IsFixed (q : Queued L) : Prop := q.op % NOPS = 41 ∨ q.op % NOPS = 42

/-- `b % 2`, of the second operand byte `b`, which is zero where the input has ended. -/
def bi (q : Queued L) : ℕ := (q.operands.getD 1 0).toNat % 2

end Queued

/-! ## What an iteration queues -/

/-- The operation that `execute` adds to the log. -/
def queuedOf (order : ReadOrder) (PL : Bytes) (state : State L) (op : ℕ) (sqe : L.Sqe) :
    Queued L where
  op := op
  operands := (caseReads order PL state.POS op).bytes
  control := (rd8 PL (caseReads order PL state.POS op) .c).regs.c
  failures := (rd8 PL (caseReads order PL state.POS op) .c).failures
  prep := (switch order (op % NOPS)).2 (caseReads order PL state.POS op).regs
  sqe := L.setData (L.setBufGroup (L.setFlags
    (L.prep ((switch order (op % NOPS)).2 (caseReads order PL state.POS op).regs) sqe)
    (.ofNat ((rd8 PL (caseReads order PL state.POS op) .c).regs.c &&& sqeFlagsMask)))
    (.ofNat ((rd8 PL (caseReads order PL state.POS op) .c).regs.c >>> 4))) (.ofNat op)

theorem log_execute (state : State L) (op : ℕ) (sqe : L.Sqe) :
    (execute order PL state op sqe).log = state.log ++ [queuedOf order PL state op sqe] := rfl

/-- What a run of the loop adds to the log are operations of its iterations. -/
theorem loop_log {fuel : ℕ} {state state' : State L} {exit : Exit} (hnops : state.nops ≤ MAX_OPS)
    (h : loop order PL fuel state = some (state', exit)) :
    ∀ q ∈ state'.log, q ∈ state.log ∨ ∃ before op sqe, q = queuedOf order PL before op sqe := by
  induction fuel generalizing state with
  | zero => simp [loop] at h
  | succ fuel ih =>
    by_cases hpos : state.POS < PL.length
    · rcases hnops.lt_or_eq with hlt | heq
      · obtain ⟨sqe, queue, queued, hloop⟩ := loop_succ order fuel hpos hlt
        rw [hloop] at h
        intro q hq
        rcases ih (Nat.succ_le_of_lt hlt) h q hq with hq | hq
        · rw [log_execute, List.mem_append, List.mem_singleton] at hq
          exact hq.imp_right fun hq => ⟨_, _, _, hq⟩
        · exact .inr hq
      · rw [loop_maxOps hpos heq, Option.some.injEq, Prod.mk.injEq] at h
        obtain ⟨rfl, -⟩ := h
        exact fun q hq => .inl hq
    · rw [loop_endOfInput (by omega), Option.some.injEq, Prod.mk.injEq] at h
      obtain ⟨rfl, -⟩ := h
      exact fun q hq => .inl hq

/-- The two operands of the cases 41 and 42, each zero where the input has ended. -/
theorem caseReads_fixed {pos op : ℕ} (h : op % NOPS = 41 ∨ op % NOPS = 42) :
    (caseReads order PL pos op).regs.b = ((caseReads order PL pos op).bytes.getD 1 0).toNat ∧
      (caseReads order PL pos op).regs.c = 0 := by
  have hreads : caseReads order PL pos op = rd8 PL (rd8 PL ⟨pos, .zero, [], 0⟩ .a) .b := by
    rw [caseReads]
    rcases h with h | h
    · rw [h]
      rfl
    · rw [h]
      rfl
  rw [hreads]
  by_cases hfirst : pos < PL.length
  · by_cases hsecond : pos + 1 < PL.length
    · simp [rd8, hfirst, hsecond, Regs.set, Regs.zero]
    · simp [rd8, hfirst, hsecond, Regs.set, Regs.zero]
  · simp [rd8, hfirst, Regs.zero]

theorem control_lt {reader : Reader} (h : reader.regs.c = 0) : (rd8 PL reader .c).regs.c < 256 := by
  rw [rd8]
  split
  · exact UInt8.toNat_lt _
  · simp [h]

/-- A fixed operation: the buffer and the index that the prep call gets are the same. -/
theorem prep_queuedOf {state : State L} {op : ℕ} {sqe : L.Sqe}
    (h : (queuedOf order PL state op sqe).IsFixed) :
    ∃ fd, (queuedOf order PL state op sqe).prep
        = .readFixed fd (queuedOf order PL state op sqe).bi ∨
      (queuedOf order PL state op sqe).prep
        = .writeFixed fd (queuedOf order PL state op sqe).bi := by
  have hb : (caseReads order PL state.POS op).regs.b
      = ((caseReads order PL state.POS op).bytes.getD 1 0).toNat := (caseReads_fixed h).1
  refine ⟨FD (caseReads order PL state.POS op).regs.a, ?_⟩
  simp only [Queued.bi, queuedOf, ← hb]
  rcases h with h | h
  · left
    rw [show op % NOPS = 41 from h]
    rfl
  · right
    rw [show op % NOPS = 42 from h]
    rfl

/-- The address of a fixed operation is the base of the buffer that its operand chooses, and its
index that of the same buffer exactly when the upper half of its control byte is. -/
theorem FixedFields.queuedOf (fields : FixedFields L) {state : State L} {op : ℕ} {sqe : L.Sqe}
    (h : (HarnessNative.queuedOf order PL state op sqe).IsFixed) :
    let q := HarnessNative.queuedOf order PL state op sqe
    fields.addr q.sqe = q.bi ∧ (fields.bufIndex q.sqe = .ofNat q.bi ↔ q.control >>> 4 = q.bi) := by
  intro q
  have haddr : fields.addr q.sqe = fields.addr (L.prep q.prep sqe) := by
    change fields.addr (L.setData (L.setBufGroup (L.setFlags _ _) _) _) = _
    rw [fields.addr_setData, fields.addr_setBufGroup, fields.addr_setFlags]
    rfl
  have hindex : fields.bufIndex q.sqe = .ofNat (q.control >>> 4) := by
    change fields.bufIndex (L.setData (L.setBufGroup _ _) _) = _
    rw [fields.bufIndex_eq_bufGroup, L.bufGroup_setData, L.bufGroup_setBufGroup]
    rfl
  have hcontrol : q.control < 256 := control_lt (caseReads_fixed h).2
  have hbi : q.bi < 2 := Nat.mod_lt _ (by omega)
  constructor
  · obtain ⟨fd, hprep | hprep⟩ := prep_queuedOf h
    · rw [haddr, hprep, fields.addr_prep_readFixed]
    · rw [haddr, hprep, fields.addr_prep_writeFixed]
  · have hhalf : q.control >>> 4 < 16 := by
      rw [Nat.shiftRight_eq_div_pow]
      omega
    rw [hindex]
    constructor
    · intro heq
      have hnat := congrArg UInt16.toNat heq
      rw [UInt16.toNat_ofNat', UInt16.toNat_ofNat'] at hnat
      omega
    · intro heq
      rw [heq]

/-! ## Runs -/

/-- **Fixed operations.** In the run on every payload, the SQE of every fixed read or write has the
base of the buffer that its operand chooses, and at submission its buffer index designates that
buffer exactly when the upper half of the control byte is the number of the buffer. -/
theorem fixed_buffers_iff (fields : FixedFields L) (order : ReadOrder) (ringOk : ℕ → Bool)
    (queue : L.Queue) (payload : Bytes) :
    ∃ r, run order ringOk queue payload = some r ∧ ∀ q ∈ r.state.log, q.IsFixed →
      fields.addr q.sqe = q.bi ∧
        (fields.bufIndex q.sqe = .ofNat q.bi ↔ q.control >>> 4 = q.bi) := by
  obtain ⟨r, hrun, -, -⟩ := exists_run order ringOk queue payload
  refine ⟨r, hrun, fun q hq hfixed => ?_⟩
  obtain ⟨⟨state, exit⟩, hloop, rfl⟩ := Option.map_eq_some_iff.mp hrun
  rcases loop_log (Nat.zero_le _) hloop q hq with hnone | ⟨before, op, sqe, rfl⟩
  · cases hnone
  · exact fields.queuedOf hfixed

/-! ## A read from the wrong buffer -/

/-- The value that a prep call stores in the field. -/
def prepBufIndex : Prep → ℕ
  | .readFixed _ bi => bi
  | .writeFixed _ bi => bi
  | prep => prepBufGroup prep

/-- The buffer that the address of a prep call is the base of. -/
def prepAddr : Prep → ℕ
  | .readFixed _ bi => bi
  | .writeFixed _ bi => bi
  | _ => 0

def fixedLiburing : Liburing :=
  { plainLiburing with
    prep := fun p _ => (⟨some p, 0, .ofNat (prepBufIndex p), 0⟩ : PlainSqe)
    bufGroup_prep_provideBuffers := fun _ _ _ _ _ => rfl
    bufGroup_prep_removeBuffers := fun _ _ _ => rfl }

def fixedFields : FixedFields fixedLiburing where
  bufIndex := PlainSqe.bufGroup
  addr sqe := (sqe.prep.map prepAddr).getD 0
  bufIndex_eq_bufGroup _ := rfl
  bufIndex_prep_readFixed _ _ _ := rfl
  bufIndex_prep_writeFixed _ _ _ := rfl
  addr_prep_readFixed _ _ _ := rfl
  addr_prep_writeFixed _ _ _ := rfl
  addr_setFlags _ _ := rfl
  addr_setBufGroup _ _ := rfl
  addr_setData _ _ := rfl

/-- The input `00 29 00 00 10`: a fixed read of buffer 0 that is submitted with buffer index 1. -/
theorem readFixed_wrong_buffer :
    ∃ r q, run .leftToRight (fun _ => true) (0 : ℕ) [0, 0x29, 0, 0, 0x10]
        = some (r : Run fixedLiburing) ∧
      q ∈ r.state.log ∧ q.IsFixed ∧ q.bi = 0 ∧ fixedFields.addr q.sqe = 0 ∧
      fixedFields.bufIndex q.sqe = 1 := by
  refine ⟨_, _, rfl, List.mem_singleton_self _, .inl rfl, rfl, rfl, rfl⟩

end IouAi.HarnessNative
