import IouAi.Harness.NativeRun

/-!
# Codec, harness and triage decoder in lockstep

On a payload that the strict decoder accepts, the harness executes the decoded program and the
triage decoder lists it (`harness_executes_decoded`). On an arbitrary input the triage decoder lists
what the harness queues exactly when the input is complete operations, at most `MAX_OPS` of them
(`traceMatchesRun_iff`): the harness also queues an operation that the input breaks off.
-/

namespace IouAi.HarnessNative

open HeadCode HarnessCodec Repro

variable {L : Liburing} {order : ReadOrder}

/-! ## A submission queue -/

/-- An SQE with the prep call that filled it and the three fields that the harness writes. -/
structure PlainSqe where
  prep : Option Prep
  flags : UInt8
  bufGroup : UInt16
  userData : UInt64

/-- The buffer group that a prep call stores. -/
def prepBufGroup : Prep → ℕ
  | .provideBuffers _ _ bgid _ => bgid
  | .removeBuffers _ bgid => bgid
  | _ => 0

/-- A queue of sixty-four entries, given by the number of those in use. -/
def plainLiburing : Liburing where
  Sqe := PlainSqe
  Queue := ℕ
  getSqe used := if used < 64 then some (⟨none, 0, 0, 0⟩, used + 1) else none
  submit _ := 0
  getSqe_submit _ := rfl
  prep p _ := ⟨some p, 0, .ofNat (prepBufGroup p), 0⟩
  setFlags sqe v := { sqe with flags := v }
  setBufGroup sqe v := { sqe with bufGroup := v }
  setData sqe v := { sqe with userData := v }
  flags := PlainSqe.flags
  bufGroup := PlainSqe.bufGroup
  userData := PlainSqe.userData
  bufGroup_prep_provideBuffers _ _ _ _ _ := rfl
  bufGroup_prep_removeBuffers _ _ _ := rfl
  flags_setFlags _ _ := rfl
  bufGroup_setFlags _ _ := rfl
  flags_setBufGroup _ _ := rfl
  bufGroup_setBufGroup _ _ := rfl
  flags_setData _ _ := rfl
  bufGroup_setData _ _ := rfl
  userData_setData _ _ := rfl

/-! ## Canonical payloads -/

/-- The operation that a queued SQE stands for: its selector after the modulus, the bytes that its
case read and its control value. -/
def Queued.operation (q : Queued L) : NativeOperation where
  selector := (q.op % NOPS : ℕ)
  operands := q.operands.map fun b => b.toNat
  sqeControl := q.control

/-- The operation that the triage decoder lists. -/
def decodedOperation (o : DecodedOp) : NativeOperation where
  selector := o.selector
  operands := o.operands.map fun operand => operand.2.toNat
  sqeControl := o.control.toNat

/-- The operation that a complete item stands for. -/
def itemOperation (w : Bytes) : NativeOperation where
  selector := ((w.headD 0).toNat % operationCount : ℕ)
  operands := w.tail.dropLast.map fun b => b.toNat
  sqeControl := (w.getLastD 0).toNat

theorem operation_of_executed {q : Queued L} {w : Bytes} (h : q.executed = itemExecuted w) :
    q.operation = itemOperation w := by
  simp only [Queued.executed, itemExecuted, Executed.mk.injEq] at h
  obtain ⟨hop, hoperands, hcontrol, -⟩ := h
  rw [Queued.operation, hop, hoperands, hcontrol]
  rfl

theorem map_operation_of_executed {log : List (Queued L)} {items : List Bytes}
    (h : log.map Queued.executed = items.map itemExecuted) :
    log.map Queued.operation = items.map itemOperation := by
  induction log generalizing items with
  | nil =>
    rw [List.map_nil, eq_comm, List.map_eq_nil_iff] at h
    simp [h]
  | cons q log ih =>
    rcases items with _ | ⟨w, items⟩
    · simp at h
    · simp only [List.map_cons, List.cons.injEq] at h ⊢
      exact ⟨operation_of_executed h.1, ih h.2⟩

theorem decodedOperation_decodedOp {w : Bytes} (hw : IsItem lenientTailLength w) (index : ℕ) :
    decodedOperation (decodedOp index w) = itemOperation w := by
  obtain ⟨selector, operands, control, rfl, hlen⟩ := isItem_iff.mp hw
  have hnames := length_getD_encoderOperandNames (selector.toNat % operationCount)
  rw [← hlen] at hnames
  have hsnd : ((encoderOperandNames.getD (selector.toNat % operationCount) []).zip operands).map
      Prod.snd = operands := List.map_snd_zip hnames.ge
  have hlast : (selector :: operands ++ [control]).getLastD 0 = control := List.getLastD_concat ..
  have hmid : (selector :: operands ++ [control]).tail.dropLast = operands := by simp
  rw [decodedOp_item, decodedOperation, itemOperation, hlast, hmid]
  have hmap := congrArg (List.map fun b : UInt8 => (b.toNat : ℤ)) hsnd
  rw [List.map_map] at hmap
  exact congrArg (NativeOperation.mk _ · _) hmap

theorem map_decodedOperation {items : List Bytes}
    (hitems : ∀ w ∈ items, IsItem lenientTailLength w) :
    (items.mapIdx decodedOp).map decodedOperation = items.map itemOperation := by
  refine List.ext_getElem (by simp) fun i h₁ h₂ => ?_
  simp only [List.getElem_map, List.getElem_mapIdx]
  exact decodedOperation_decodedOp (hitems _ (List.getElem_mem _)) i

/-- A canonical operation is complete for the lenient parsers too, which read it as it is. -/
theorem lenient_operationBytes {operation : NativeOperation} (h : operation.IsCanonical) :
    IsItem lenientTailLength (operationBytes operation) ∧
      itemOperation (operationBytes operation) = operation := by
  have hsel := h.toNat_selector
  have hlt := h.selector_lt
  have hnonneg := h.selector_nonneg
  have hmod : (byteOf operation.selector).toNat % operationCount = operation.selector.toNat := by
    rw [hsel, Nat.mod_eq_of_lt (by omega)]
  constructor
  · refine isItem_iff.mpr ⟨byteOf operation.selector, operation.operands.map byteOf,
      byteOf operation.sqeControl, rfl, ?_⟩
    rw [hmod, List.length_map, h.length_operands]
  · have hlast : (operationBytes operation).getLastD 0 = byteOf operation.sqeControl :=
      List.getLastD_concat ..
    have hmid : (operationBytes operation).tail.dropLast = operation.operands.map byteOf := by
      simp [operationBytes]
    have hhead : (operationBytes operation).headD 0 = byteOf operation.selector := rfl
    rw [itemOperation, hlast, hmid, hhead, hmod, map_toNat_byteOf h.operands,
      toNat_byteOf h.sqeControl, Int.toNat_of_nonneg hnonneg]

theorem splits_programBytes {program : NativeProgram} (h : program.IsCanonical) :
    Splits lenientTailLength (program.operations.map operationBytes).flatten
      (program.operations.map operationBytes) [] := by
  refine ⟨by simp, fun w hw => ?_, .inl rfl⟩
  obtain ⟨operation, hop, rfl⟩ := List.mem_map.mp hw
  exact (lenient_operationBytes (h.operations operation hop)).1

theorem map_itemOperation_operationBytes {operations : List NativeOperation}
    (h : ∀ operation ∈ operations, operation.IsCanonical) :
    (operations.map operationBytes).map itemOperation = operations := by
  rw [List.map_map]
  exact (List.map_congr_left fun o ho => (lenient_operationBytes (h o ho)).2).trans (List.map_id _)

/-- The ring byte of a canonical program, read back. -/
theorem toNat_ringSelector {program : NativeProgram} (h : program.IsCanonical) :
    ((byteOf program.ringSelector).toNat : ℤ) = program.ringSelector ∧
      (byteOf program.ringSelector).toNat < NRINGS := by
  have h0 := h.ringSelector_nonneg
  have hlt := h.ringSelector_lt
  simp only [ringCount] at hlt
  have hbyte : ((byteOf program.ringSelector).toNat : ℤ) = program.ringSelector :=
    toNat_byteOf ⟨h0, by omega⟩
  refine ⟨hbyte, ?_⟩
  rw [NRINGS]
  omega

/-- **The run of a canonical program**: the harness executes it, operation by operation. -/
theorem run_programBytes (order : ReadOrder) (ringOk : ℕ → Bool) (queue : L.Queue)
    {program : NativeProgram} (h : program.IsCanonical) :
    ∃ r : Run L, run order ringOk queue (programBytes program) = some r ∧
      (r.ri : ℤ) = program.ringSelector ∧ r.exit = .endOfInput ∧
      r.state.POS = (programBytes program).length ∧
      r.state.nops = program.operations.length ∧
      r.state.log.map Queued.operation = program.operations ∧
      ∀ q ∈ r.state.log, q.failures = 0 ∧ q.op < NOPS ∧ q.Written order := by
  have hmax : (program.operations.map operationBytes).length ≤ MAX_OPS := by
    rw [List.length_map]
    exact h.length_operations
  obtain ⟨r, hrun, hri, hexit, hpos, hnops, hlog⟩ :=
    run_complete order ringOk queue (byteOf program.ringSelector) (splits_programBytes h) hmax
  obtain ⟨r', hrun', -, hwritten⟩ := exists_run order ringOk queue (programBytes program)
  obtain rfl : r = r' := Option.some.inj (hrun.symm.trans hrun')
  refine ⟨r, hrun, ?_, hexit, ?_, ?_, ?_, ?_⟩
  · rw [hri, (toNat_ringSelector h).1]
  · rw [hpos]
    rfl
  · rw [hnops, List.length_map]
  · rw [map_operation_of_executed hlog, map_itemOperation_operationBytes h.operations]
  · intro q hq
    have hmem : q.executed ∈ (program.operations.map operationBytes).map itemExecuted :=
      hlog ▸ List.mem_map_of_mem hq
    rw [List.map_map] at hmem
    obtain ⟨operation, hop, hexec⟩ := List.mem_map.mp hmem
    have hcanonical := h.operations operation hop
    have hlt := hcanonical.selector_lt
    have hq' : itemExecuted (operationBytes operation) = q.executed := hexec
    rw [show itemExecuted (operationBytes operation) =
      ⟨(byteOf operation.selector).toNat, _, _, 0⟩ from rfl, hcanonical.toNat_selector] at hq'
    have hqop : q.op = operation.selector.toNat := (congrArg Executed.op hq').symm
    refine ⟨(congrArg Executed.failures hq').symm, ?_, hwritten q hq⟩
    rw [hqop, NOPS]
    simp only [operationCount] at hlt
    have := hcanonical.selector_nonneg
    omega

/-- The triage decoder on a canonical program. -/
theorem decodeExecuted_programBytes {program : NativeProgram} (h : program.IsCanonical) :
    ∃ d, decodeExecuted (programBytes program) = .ok d ∧ (d.ring : ℤ) = program.ringSelector ∧
      d.ops.map decodedOperation = program.operations ∧
      d.consumedBytes = (programBytes program).length := by
  have hsplits := splits_programBytes h
  obtain ⟨hring, hlt⟩ := toNat_ringSelector h
  refine ⟨_, decodeExecuted_eq hsplits, ?_, ?_, rfl⟩
  · rw [show ringCount = NRINGS from rfl, Nat.mod_eq_of_lt hlt, hring]
  · rw [map_decodedOperation hsplits.items, map_itemOperation_operationBytes h.operations]

/-- **The three parsers agree on what the strict decoder accepts**: the harness drives the ring that
the program names (before the fallback), makes one iteration for each decoded operation, reads
exactly its operands and its control byte, gives the SQE the flags of the control byte and the
selector as user data, and ends at the end of the payload; and the triage decoder lists the same
ring and operations. -/
theorem harness_executes_decoded (L : Liburing) (order : ReadOrder) (ringOk : ℕ → Bool)
    (queue : L.Queue) (payload : Bytes) (program : NativeProgram)
    (hdecode : decodeProgram payload auditedHarnessHash = .ok program) :
    (∃ r : Run L, run order ringOk queue payload = some r ∧
      (r.ri : ℤ) = program.ringSelector ∧ r.exit = .endOfInput ∧ r.state.POS = payload.length ∧
      r.state.nops = program.operations.length ∧
      r.state.log.map Queued.operation = program.operations ∧
      ∀ q ∈ r.state.log, q.failures = 0 ∧ (L.flags q.sqe).toNat = q.control &&& 0x3F ∧
        ((L.userData q.sqe).toNat : ℤ) = q.operation.selector) ∧
    ∃ d, decodeExecuted payload = .ok d ∧ (d.ring : ℤ) = program.ringSelector ∧
      d.ops.map decodedOperation = program.operations ∧ d.consumedBytes = payload.length := by
  obtain ⟨-, hcanonical, rfl⟩ := decodeProgram_eq_ok.mp hdecode
  refine ⟨?_, decodeExecuted_programBytes hcanonical⟩
  obtain ⟨r, hrun, hri, hexit, hpos, hnops, hlog, hq⟩ :=
    run_programBytes order ringOk queue hcanonical
  refine ⟨r, hrun, hri, hexit, hpos, hnops, hlog, fun q hmem => ?_⟩
  obtain ⟨hfail, hop, hwritten⟩ := hq q hmem
  refine ⟨hfail, ?_, ?_⟩
  · have hmask : q.control &&& sqeFlagsMask ≤ 63 := Nat.and_le_right
    rw [hwritten.flags, UInt8.toNat_ofNat', Nat.mod_eq_of_lt (by omega)]
    rfl
  · have hlt : q.op < 61 := hop
    rw [hwritten.userData, UInt64.toNat_ofNat', Nat.mod_eq_of_lt (by omega), Queued.operation,
      Nat.mod_eq_of_lt hop]

/-- The widest operation, a provider and a nop, on the sixty-four entry queue. -/
theorem harness_executes_decoded_sample :
    ∃ r : Run plainLiburing,
      run .leftToRight (fun _ => true) (0 : ℕ) [3, 39, 1, 9, 8, 4, 18, 7, 0, 0, 16] = some r ∧
      r.state.log.map Queued.operation = [⟨39, [1, 9, 8], 4⟩, ⟨18, [7], 0⟩, ⟨0, [], 16⟩] := by
  obtain ⟨⟨r, hrun, -, -, -, -, hlog, -⟩, -⟩ := harness_executes_decoded plainLiburing .leftToRight
    (fun _ => true) (0 : ℕ) [3, 39, 1, 9, 8, 4, 18, 7, 0, 0, 16]
    ⟨3, [⟨39, [1, 9, 8], 4⟩, ⟨18, [7], 0⟩, ⟨0, [], 16⟩]⟩ (by decide)
  exact ⟨r, hrun, hlog⟩

/-! ## Arbitrary inputs -/

/-- The triage decoder lists what the harness queues: the same ring after the modulus, and the same
selectors, operand bytes and control values. -/
def TraceMatchesRun (order : ReadOrder) (ringOk : ℕ → Bool) (queue : L.Queue) (payload : Bytes) :
    Prop :=
  ∃ d, decodeExecuted payload = .ok d ∧
    ∃ r : Run L, run order ringOk queue payload = some r ∧ d.ring = r.ri % NRINGS ∧
      d.ops.map decodedOperation = r.state.log.map Queued.operation

/-- The input is empty, or a ring byte and complete operations to its end, at most `MAX_OPS` of
them, or `MAX_OPS` complete operations with a truncated one after them. -/
def IsWholeInput (payload : Bytes) : Prop :=
  payload = [] ∨ ∃ ring stream items tail, payload = ring :: stream ∧
    Splits lenientTailLength stream items tail ∧
    (items.length < MAX_OPS ∧ tail = [] ∨ items.length = MAX_OPS)

theorem isWholeInput_cons {ring : UInt8} {stream tail : Bytes} {items : List Bytes}
    (hsplits : Splits lenientTailLength stream items tail) :
    IsWholeInput (ring :: stream) ↔
      (items.length < MAX_OPS ∧ tail = [] ∨ items.length = MAX_OPS) := by
  constructor
  · rintro (hnil | ⟨ring', stream', items', tail', heq, hsplits', h⟩)
    · simp at hnil
    · obtain ⟨-, rfl⟩ := List.cons.inj heq
      obtain ⟨rfl, rfl⟩ := hsplits.unique hsplits'
      exact h
  · intro h
    exact .inr ⟨ring, stream, items, tail, rfl, hsplits, h⟩

/-- The trace of an input lists its complete operations, so it matches a run exactly when the run
drives the same ring and queues those. -/
theorem traceMatchesRun_cons {ringOk : ℕ → Bool} {queue : L.Queue} {ring : UInt8}
    {stream tail : Bytes} {items : List Bytes}
    (hsplits : Splits lenientTailLength stream items tail) {r : Run L}
    (hrun : run order ringOk queue (ring :: stream) = some r) :
    TraceMatchesRun order ringOk queue (ring :: stream) ↔
      ring.toNat % ringCount = r.ri % NRINGS ∧
        items.map itemOperation = r.state.log.map Queued.operation := by
  rw [← map_decodedOperation hsplits.items]
  constructor
  · rintro ⟨d, hd, r', hrun', h⟩
    rw [decodeExecuted_eq hsplits, Except.ok.injEq] at hd
    rw [hrun, Option.some.injEq] at hrun'
    subst hd hrun'
    exact h
  · intro h
    exact ⟨_, decodeExecuted_eq hsplits, r, hrun, h⟩

/-- **When a trace shows what ran**: the triage decoder lists what the harness queues exactly on the
inputs that end with a complete operation, or that the operation maximum cuts. -/
theorem traceMatchesRun_iff (L : Liburing) (order : ReadOrder) (ringOk : ℕ → Bool)
    (queue : L.Queue) (payload : Bytes) :
    TraceMatchesRun order ringOk queue payload ↔ IsWholeInput payload := by
  rcases payload with _ | ⟨ring, stream⟩
  · exact ⟨fun _ => .inl rfl, fun _ => ⟨_, rfl, _, rfl, rfl, rfl⟩⟩
  obtain ⟨items, tail, hsplits⟩ := exists_splits lenientTailLength stream
  rw [isWholeInput_cons hsplits]
  rcases lt_trichotomy items.length MAX_OPS with hlt | heq | hgt
  · by_cases htail : tail = []
    · -- the harness reads the input to its end
      subst htail
      obtain ⟨r, hrun, hri, -, -, -, hlog⟩ :=
        run_complete order ringOk queue ring hsplits hlt.le
      rw [traceMatchesRun_cons hsplits hrun, hri, map_operation_of_executed hlog]
      exact ⟨fun _ => .inl ⟨hlt, rfl⟩, fun _ => ⟨rfl, rfl⟩⟩
    · -- the harness queues the truncated operation as well
      obtain ⟨r, hrun, hlog⟩ := run_truncated order ringOk queue ring hsplits hlt htail
      rw [traceMatchesRun_cons hsplits hrun]
      constructor
      · rintro ⟨-, hops⟩
        have hlen := congrArg List.length hops
        rw [List.length_map, List.length_map] at hlen
        omega
      · rintro (⟨-, h⟩ | h)
        · exact absurd h htail
        · omega
  · -- the operation maximum cuts what follows
    have hrun : ∃ r : Run L, run order ringOk queue (ring :: stream) = some r ∧
        r.ri = ring.toNat ∧ r.state.log.map Queued.executed = items.map itemExecuted := by
      by_cases htail : tail = []
      · subst htail
        obtain ⟨r, hrun, hri, -, -, -, hlog⟩ :=
          run_complete order ringOk queue ring hsplits heq.le
        exact ⟨r, hrun, hri, hlog⟩
      · obtain ⟨r, hrun, hri, -, hlog⟩ := run_maxOps order ringOk queue ring hsplits heq htail
        exact ⟨r, hrun, hri, hlog⟩
    obtain ⟨r, hrun, hri, hlog⟩ := hrun
    rw [traceMatchesRun_cons hsplits hrun, hri, map_operation_of_executed hlog]
    exact ⟨fun _ => .inr heq, fun _ => ⟨rfl, rfl⟩⟩
  · -- the harness never queues so many
    obtain ⟨r, hrun, hlen, -⟩ := exists_run order ringOk queue (ring :: stream)
    rw [traceMatchesRun_cons hsplits hrun]
    constructor
    · rintro ⟨-, hops⟩
      have hlen' := congrArg List.length hops
      rw [List.length_map, List.length_map] at hlen'
      omega
    · rintro (⟨h, -⟩ | h) <;> omega

/-- On the input `00 01` the harness queues a `readv` whose operand and control byte are missing;
the trace is empty. -/
theorem truncated_readv_not_traced :
    ¬ ∀ (L : Liburing) (order : ReadOrder) (ringOk : ℕ → Bool) (queue : L.Queue) (payload : Bytes),
      TraceMatchesRun order ringOk queue payload := by
  intro h
  obtain ⟨d, hd, r, hr, -, hops⟩ :=
    h plainLiburing .leftToRight (fun _ => true) (0 : ℕ) [0, 1]
  have hd' : decodeExecuted [0, 1] = .ok ⟨0, [], 2, 2⟩ := by decide
  rw [hd', Except.ok.injEq] at hd
  subst hd
  have hlog : (run .leftToRight (fun _ => true) (0 : ℕ) [0, 1] : Option (Run plainLiburing)).map
      (fun r => r.state.log.map Queued.operation) = some [⟨1, [], 0⟩] := by decide
  rw [hr, Option.map_some, ← hops] at hlog
  simp at hlog

end IouAi.HarnessNative
