import IouAi.Contract.NativeRules
import IouAi.Harness.Lockstep

/-!
# Buffer groups in the harness

The validator matches a buffer selection and a removal with an earlier provider by the
`buffer_group` operand. The harness writes `sqe->buf_group` again after the prep call, from the
control byte, so that the groups the kernel sees are other ones. `bufferGroupsResolve_iff` says for
which programs every selection and removal still finds its provider: those without a selection, in
which every removal has an earlier provider with the same upper control bits.
-/

namespace IouAi.BufferGroups

open Checks Compiler Contract HarnessCodec HarnessNative Models Validator

variable {L : Liburing}

/-- A `PROVIDE_BUFFERS` SQE. -/
def IsProvide (q : Queued L) : Prop :=
  ∃ len nr bgid bid, q.prep = .provideBuffers len nr bgid bid

/-- A `REMOVE_BUFFERS` SQE. -/
def IsRemove (q : Queued L) : Prop := ∃ nr bgid, q.prep = .removeBuffers nr bgid

/-- An SQE submitted with `IOSQE_BUFFER_SELECT`. -/
def SelectsBuffer (q : Queued L) : Prop := (L.flags q.sqe).toNat.testBit 5

/-- A provider before position `i` of the run has the group in its final `buf_group`. -/
def ProvidedBefore (r : Run L) (i : ℕ) (group : UInt16) : Prop :=
  ∃ j < i, ∃ p, r.state.log[j]? = some p ∧ IsProvide p ∧ L.bufGroup p.sqe = group

/-- Every buffer selection and every removal of a run has an earlier provider of its group. -/
def BufferGroupsResolve (r : Run L) : Prop :=
  ∀ (i : ℕ) (q : Queued L), r.state.log[i]? = some q → SelectsBuffer q ∨ IsRemove q →
    ProvidedBefore r i (L.bufGroup q.sqe)

/-- The selector that the contract gives a step. -/
def stepSelector (contract : HarnessContract) (step : SymbolicStep) : Option ℕ :=
  (Dict.get? HarnessOperation.symbol contract.operations step.operation).map
    HarnessOperation.selectorModulusValue

/-- No step selects a buffer, and every removal has an earlier provider whose control byte has the
same upper bits. -/
def ControlGroupsMatch (contract : HarnessContract) (program : PlannerProgram) : Prop :=
  (∀ step ∈ program.steps, ¬ (stepControl contract step).testBit 5) ∧
    ∀ (i : ℕ) (step : SymbolicStep), program.steps[i]? = some step →
      stepSelector contract step = some 19 →
      ∃ j < i, ∃ provider, program.steps[j]? = some provider ∧
        stepSelector contract provider = some 18 ∧
        stepControl contract provider >>> 4 = stepControl contract step >>> 4

/-! ## From a queued SQE to its step -/

theorem switch_provideBuffers (order : ReadOrder) {k : ℕ} (hk : k < NOPS) (regs : Regs) :
    (∃ len nr bgid bid, (switch order k).2 regs = .provideBuffers len nr bgid bid) ↔ k = 18 := by
  rw [NOPS] at hk
  interval_cases k
  case «18» => exact iff_of_true ⟨_, _, _, _, rfl⟩ rfl
  all_goals
    refine iff_of_false ?_ (by decide)
    rintro ⟨_, _, _, _, h⟩
    cases h

theorem switch_removeBuffers (order : ReadOrder) {k : ℕ} (hk : k < NOPS) (regs : Regs) :
    (∃ nr bgid, (switch order k).2 regs = .removeBuffers nr bgid) ↔ k = 19 := by
  rw [NOPS] at hk
  interval_cases k
  case «19» => exact iff_of_true ⟨_, _, rfl⟩ rfl
  all_goals
    refine iff_of_false ?_ (by decide)
    rintro ⟨_, _, h⟩
    cases h

/-- What the control value and the selector of an SQE say about it. -/
structure Describes (q : Queued L) (selector control : ℕ) : Prop where
  isProvide : IsProvide q ↔ selector = 18
  isRemove : IsRemove q ↔ selector = 19
  selectsBuffer : SelectsBuffer q ↔ control.testBit 5
  bufGroup : L.bufGroup q.sqe = .ofNat (control >>> 4)

theorem describes {order : ReadOrder} {q : Queued L} (hwritten : q.Written order)
    (hop : q.op < NOPS) : Describes q q.op q.control := by
  obtain ⟨regs, hprep⟩ := hwritten.1
  rw [Nat.mod_eq_of_lt hop] at hprep
  refine ⟨?_, ?_, ?_, hwritten.bufGroup⟩
  · rw [IsProvide, hprep, switch_provideBuffers order hop]
  · rw [IsRemove, hprep, switch_removeBuffers order hop]
  · have hmask : q.control &&& sqeFlagsMask ≤ 63 := Nat.and_le_right
    rw [SelectsBuffer, hwritten.flags, UInt8.toNat_ofNat', Nat.mod_eq_of_lt (by omega),
      Nat.testBit_and]
    simp [sqeFlagsMask, Nat.testBit]

/-- The SQEs of a run and the steps of a program, position by position. -/
structure Executes (contract : HarnessContract) (program : PlannerProgram) (r : Run L) : Prop where
  step_of_queued (i : ℕ) (q : Queued L) : r.state.log[i]? = some q →
    ∃ step selector, program.steps[i]? = some step ∧ stepSelector contract step = some selector ∧
      Describes q selector (stepControl contract step) ∧ stepControl contract step < 64
  queued_of_step (i : ℕ) (step : SymbolicStep) : program.steps[i]? = some step →
    ∃ q selector, r.state.log[i]? = some q ∧ stepSelector contract step = some selector ∧
      Describes q selector (stepControl contract step) ∧ stepControl contract step < 64

/-- **The run of a compiled program** executes its steps. -/
theorem exists_run_executes {compilerHash : String} {sha256 : Bytes → String}
    {contract : HarnessContract} {program : PlannerProgram} {compiled : CompiledProgram}
    (hcompile : compileProgram compilerHash sha256 program contract = .ok compiled)
    (order : ReadOrder) (ringOk : ℕ → Bool) (queue : L.Queue) :
    ∃ r : Run L, run order ringOk queue compiled.payload = some r ∧
      Executes contract program r := by
  obtain ⟨-, native, hnative, -, rfl⟩ := compileProgram_eq_ok.mp hcompile
  obtain ⟨-, -, -, -, hsteps⟩ := compileNative_eq_ok.mp hnative
  obtain ⟨r, hrun, -, -, -, -, hlog, hq⟩ :=
    run_programBytes order ringOk queue (compileNative_isCanonical hnative)
  have hdescribes : ∀ (i : ℕ) (q : Queued L) (step : SymbolicStep) (o : HarnessOperation),
      r.state.log[i]? = some q → Translates contract step o q.operation →
      stepSelector contract step = some q.op ∧ Describes q q.op (stepControl contract step) ∧
        stepControl contract step < 64 := by
    intro i q step o hget htranslates
    obtain ⟨-, hop, hwritten⟩ := hq q (List.mem_of_getElem? hget)
    have hselector : ((q.op % NOPS : ℕ) : ℤ) = o.selectorModulusValue := htranslates.selector
    rw [Nat.mod_eq_of_lt hop, Int.ofNat_inj] at hselector
    have hcontrol : q.control = stepControl contract step := Int.ofNat_inj.mp htranslates.sqeControl
    refine ⟨?_, hcontrol ▸ describes hwritten hop, stepControl_lt htranslates.flags⟩
    rw [stepSelector, htranslates.found, Option.map_some, hselector]
  refine ⟨r, hrun, ?_, ?_⟩
  · intro i q hget
    have hop : native.operations[i]? = some q.operation := by
      rw [← hlog, List.getElem?_map, hget, Option.map_some]
    obtain ⟨step, hstep, o, htranslates⟩ := exists_getElem?_of_forall₂ hsteps hop
    exact ⟨step, q.op, hstep, hdescribes i q step o hget htranslates⟩
  · intro i step hstep
    obtain ⟨op, hop, o, htranslates⟩ := exists_getElem?_of_forall₂ hsteps.flip hstep
    rw [← hlog, List.getElem?_map, Option.map_eq_some_iff] at hop
    obtain ⟨q, hget, rfl⟩ := hop
    exact ⟨q, q.op, hget, hdescribes i q step o hget htranslates⟩

/-! ## When the groups resolve -/

theorem ofNat_shiftRight_inj {x y : ℕ} (hx : x < 64) (hy : y < 64)
    (h : UInt16.ofNat (x >>> 4) = UInt16.ofNat (y >>> 4)) : x >>> 4 = y >>> 4 := by
  have hsmall : ∀ z < 64, z >>> 4 < 65536 := by decide
  have heq := congrArg UInt16.toNat h
  rwa [UInt16.toNat_ofNat', UInt16.toNat_ofNat', Nat.mod_eq_of_lt (hsmall x hx),
    Nat.mod_eq_of_lt (hsmall y hy)] at heq

section Resolve

variable {contract : HarnessContract} {program : PlannerProgram} {r : Run L}

/-- An earlier provider of the group of a step is an earlier step with selector 18 and the same upper
control bits. -/
theorem providedBefore_iff (hexec : Executes contract program r) {i : ℕ} {control : ℕ}
    (hcontrol : control < 64) : ProvidedBefore r i (.ofNat (control >>> 4)) ↔
      ∃ j < i, ∃ provider, program.steps[j]? = some provider ∧
        stepSelector contract provider = some 18 ∧
        stepControl contract provider >>> 4 = control >>> 4 := by
  constructor
  · rintro ⟨j, hj, p, hp, hprovide, hgroup⟩
    obtain ⟨provider, selector, hprovider, hselector, hdescribes, hlt⟩ :=
      hexec.step_of_queued j p hp
    rw [hdescribes.bufGroup] at hgroup
    obtain rfl := hdescribes.isProvide.mp hprovide
    exact ⟨j, hj, provider, hprovider, hselector, ofNat_shiftRight_inj hlt hcontrol hgroup⟩
  · rintro ⟨j, hj, provider, hprovider, hselector, hgroup⟩
    obtain ⟨p, selector, hp, hselector', hdescribes, -⟩ :=
      hexec.queued_of_step j provider hprovider
    obtain rfl : 18 = selector := Option.some.inj (hselector.symm.trans hselector')
    exact ⟨j, hj, p, hp, hdescribes.isProvide.mpr rfl, by rw [hdescribes.bufGroup, hgroup]⟩

/-- A selection needs an earlier provider in a group with the selection bit, which is a selection
itself; so a run in which the groups resolve has none. -/
theorem not_testBit_of_resolve (hexec : Executes contract program r)
    (hresolve : BufferGroupsResolve r) (i : ℕ) :
    ∀ step, program.steps[i]? = some step → ¬ (stepControl contract step).testBit 5 := by
  induction i using Nat.strongRecOn with
  | ind i ih =>
  intro step hstep hbit
  obtain ⟨q, selector, hget, -, hdescribes, hlt⟩ := hexec.queued_of_step i step hstep
  have hprovided := hresolve i q hget (.inl (hdescribes.selectsBuffer.mpr hbit))
  rw [hdescribes.bufGroup, providedBefore_iff hexec hlt] at hprovided
  obtain ⟨j, hj, provider, hprovider, -, hgroup⟩ := hprovided
  refine ih j hj provider hprovider ?_
  have hupper := congrArg (fun v => v.testBit 1) hgroup
  simp only [Nat.testBit_shiftRight] at hupper
  rw [hupper]
  exact hbit

/-- **Which compiled programs keep their buffer groups**: in the run of the payload every selection
and every removal finds an earlier provider of its final group exactly when no step selects a buffer
and every removal has an earlier provider with the same upper control bits. -/
theorem bufferGroupsResolve_iff (L : Liburing) (order : ReadOrder) (ringOk : ℕ → Bool)
    (queue : L.Queue) (compilerHash : String) (sha256 : Bytes → String)
    (contract : HarnessContract) (program : PlannerProgram) (compiled : CompiledProgram)
    (hcompile : compileProgram compilerHash sha256 program contract = .ok compiled) :
    (∃ r : Run L, run order ringOk queue compiled.payload = some r ∧ BufferGroupsResolve r) ↔
      ControlGroupsMatch contract program := by
  obtain ⟨r, hrun, hexec⟩ := exists_run_executes hcompile order ringOk queue
  constructor
  · rintro ⟨r', hrun', hresolve⟩
    obtain rfl : r = r' := Option.some.inj (hrun.symm.trans hrun')
    refine ⟨fun step hstep => ?_, fun i step hstep hselector => ?_⟩
    · obtain ⟨i, hget⟩ := List.mem_iff_getElem?.mp hstep
      exact not_testBit_of_resolve hexec hresolve i step hget
    · obtain ⟨q, selector, hget, hselector', hdescribes, hlt⟩ := hexec.queued_of_step i step hstep
      obtain rfl : 19 = selector := Option.some.inj (hselector.symm.trans hselector')
      have hprovided := hresolve i q hget (.inr (hdescribes.isRemove.mpr rfl))
      rwa [hdescribes.bufGroup, providedBefore_iff hexec hlt] at hprovided
  · rintro ⟨hselect, hremove⟩
    refine ⟨r, hrun, fun i q hget hcase => ?_⟩
    obtain ⟨step, selector, hstep, hselector, hdescribes, hlt⟩ := hexec.step_of_queued i q hget
    rw [hdescribes.bufGroup, providedBefore_iff hexec hlt]
    rcases hcase with hcase | hcase
    · exact absurd (hdescribes.selectsBuffer.mp hcase)
        (hselect step (List.mem_of_getElem? hstep))
    · obtain rfl := hdescribes.isRemove.mp hcase
      exact hremove i step hstep hselector

end Resolve

/-! ### A selection that the validator accepts -/

/-- A provider of group 2 and a read that selects from it, as the planner is told to write it. -/
def selectProgram : PlannerProgram :=
  .of "select_buffer" .stableCoverage "plain" [] [
    .of "provide" 0 "provide_buffers" "plain" [integerOf "buffer_group" 2] [] .none ["success"],
    .of "select" 1 "recv" "plain" [integerOf "fd" 8] ["iosqe_buffer_select"] .none ["success"]] [] 1

def selectCompiled : CompiledProgram where
  programId := "select_buffer"
  payload := [1, 18, 2, 0, 10, 8, 32]
  payloadHash := "sha256:"
  operationCount := 2
  compilerHash := "sha256:compiler"
  harnessHash := auditedHarnessHash

theorem bufferGroupsResolve_selectProgram :
    (∃ r : Run plainLiburing, run .leftToRight (fun _ => true) (0 : ℕ) selectCompiled.payload =
        some r ∧ BufferGroupsResolve r) ↔
      ControlGroupsMatch (buildContract sampleHashes) selectProgram :=
  bufferGroupsResolve_iff plainLiburing .leftToRight (fun _ => true) (0 : ℕ) "sha256:compiler"
    (fun _ => "") (buildContract sampleHashes) selectProgram selectCompiled (by decide +kernel)

/-- The harness submits the provider with group 0 and the selection with group 2. -/
theorem selectProgram_unresolved :
    ¬ ∀ (L : Liburing) (order : ReadOrder) (ringOk : ℕ → Bool) (queue : L.Queue)
        (compilerHash : String) (sha256 : Bytes → String) (telemetry : TelemetryPacket)
        (proposal : PlannerProposal) (contract : HarnessContract) (program : PlannerProgram)
        (compiled : CompiledProgram),
      (validateProposal compilerHash telemetry proposal contract "shadow").valid →
      program ∈ proposal.programs →
      compileProgram compilerHash sha256 program contract = .ok compiled →
      ∃ r : Run L, run order ringOk queue compiled.payload = some r ∧ BufferGroupsResolve r := by
  intro h
  obtain ⟨r, hrun, hresolve⟩ := h plainLiburing .leftToRight (fun _ => true) (0 : ℕ)
    "sha256:compiler" (fun _ => "") sampleTelemetry (proposalOf selectProgram)
    (buildContract sampleHashes) selectProgram selectCompiled (by decide +kernel)
    (List.mem_singleton_self _) (by decide +kernel)
  have hlog : (run .leftToRight (fun _ => true) (0 : ℕ) selectCompiled.payload :
      Option (Run plainLiburing)).map (fun r => r.state.log.map fun q =>
        (plainLiburing.flags q.sqe, plainLiburing.bufGroup q.sqe)) = some [(0, 0), (32, 2)] := by
    decide
  rw [hrun, Option.map_some, Option.some.injEq] at hlog
  obtain ⟨provide, rest, hlist, hprovide, hrest⟩ := List.map_eq_cons_iff.mp hlog
  obtain ⟨select, rest', rfl, hselect, -⟩ := List.map_eq_cons_iff.mp hrest
  obtain ⟨hflags, hgroup⟩ := Prod.mk.injEq .. ▸ hselect
  obtain ⟨j, hj, p, hp, -, hsame⟩ := hresolve 1 select (by rw [hlist]; rfl)
    (.inl (by rw [SelectsBuffer, hflags]; decide))
  obtain rfl : j = 0 := by omega
  rw [hlist] at hp
  obtain rfl : provide = p := Option.some.inj hp
  rw [hgroup, (Prod.mk.inj hprovide).2] at hsame
  exact absurd hsame (by decide)

end IouAi.BufferGroups
