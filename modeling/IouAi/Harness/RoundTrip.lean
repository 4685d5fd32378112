import IouAi.Foundations.HeadCode
import IouAi.Harness.Codec

/-!
# The codec round trip

The canonical programs and their byte streams, `programBytes`, are stated without the checks of the
codec. `encodeProgram_eq_ok` and `decodeProgram_eq_ok` say that encoder and decoder both compute
this one relation, so that each is the inverse of the other; that a stream has at most one program
is the unique splitting of head-delimited streams.
-/

namespace IouAi.HarnessCodec

open Checks HeadCode

/-- A Python integer that is a byte. -/
def IsByte (value : ℤ) : Prop := 0 ≤ value ∧ value ≤ 255

instance (value : ℤ) : Decidable (IsByte value) := inferInstanceAs (Decidable (_ ∧ _))

/-- An operation of the audited grammar. -/
structure NativeOperation.IsCanonical (operation : NativeOperation) : Prop where
  selector_nonneg : 0 ≤ operation.selector
  selector_lt : operation.selector < operationCount
  length_operands : operation.operands.length = operandCount operation.selector.toNat
  operands : ∀ value ∈ operation.operands, IsByte value
  sqeControl : IsByte operation.sqeControl

/-- A program of the audited grammar. -/
structure NativeProgram.IsCanonical (program : NativeProgram) : Prop where
  ringSelector_nonneg : 0 ≤ program.ringSelector
  ringSelector_lt : program.ringSelector < ringCount
  length_operations : program.operations.length ≤ maxOperations
  operations : ∀ operation ∈ program.operations, operation.IsCanonical

/-- The bytes of one operation: selector, operands, control. -/
def operationBytes (operation : NativeOperation) : Bytes :=
  byteOf operation.selector :: operation.operands.map byteOf ++ [byteOf operation.sqeControl]

/-- The bytes of a program: the ring selector and then its operations. -/
def programBytes (program : NativeProgram) : Bytes :=
  byteOf program.ringSelector :: (program.operations.map operationBytes).flatten

/-- How many bytes follow a selector byte: its operands and the control byte. -/
def tailLength (selector : UInt8) : ℕ := operandCount selector.toNat + 1

/-! ## Bytes and integers -/

@[simp] theorem byteOf_toNat (b : UInt8) : byteOf b.toNat = b := by
  simp [byteOf]

theorem toNat_byteOf {value : ℤ} (h : IsByte value) : ((byteOf value).toNat : ℤ) = value := by
  obtain ⟨h0, h255⟩ := h
  rw [byteOf, UInt8.toNat_ofNat', Nat.mod_eq_of_lt (by omega)]
  omega

theorem isByte_toNat (b : UInt8) : IsByte (b.toNat : ℤ) := by
  have := b.toNat_lt
  exact ⟨by omega, by omega⟩

theorem map_toNat_byteOf {values : List ℤ} (h : ∀ value ∈ values, IsByte value) :
    (values.map byteOf).map (fun b => (b.toNat : ℤ)) = values := by
  rw [List.map_map]
  exact (List.map_congr_left fun v hv => toNat_byteOf (h v hv)).trans (List.map_id _)

@[simp] theorem map_byteOf_toNat (bs : Bytes) :
    (bs.map fun b => (b.toNat : ℤ)).map byteOf = bs := by
  rw [List.map_map]
  exact (List.map_congr_left fun b _ => byteOf_toNat b).trans (List.map_id _)

theorem requireIntByte_eq_ok {value : ℤ} {label : String} {u : Unit} :
    requireIntByte value label = .ok u ↔ IsByte value := by
  simp [requireIntByte, IsByte]

/-! ## The bytes of canonical operations -/

section Operation

variable {operation : NativeOperation}

theorem NativeOperation.IsCanonical.selector_isByte (h : operation.IsCanonical) :
    IsByte operation.selector := by
  have h0 := h.selector_nonneg
  have hlt := h.selector_lt
  simp only [operationCount] at hlt
  exact ⟨h0, by omega⟩

/-- The selector byte of a canonical operation, read back. -/
theorem NativeOperation.IsCanonical.toNat_selector (h : operation.IsCanonical) :
    (byteOf operation.selector).toNat = operation.selector.toNat := by
  have := toNat_byteOf h.selector_isByte
  omega

theorem length_operationBytes (operation : NativeOperation) :
    (operationBytes operation).length = operation.operands.length + 2 := by
  simp [operationBytes]

/-- A canonical operation is a head-delimited item: its selector decides how many bytes follow. -/
theorem NativeOperation.IsCanonical.isItem (h : operation.IsCanonical) :
    IsItem tailLength (operationBytes operation) := by
  refine ⟨byteOf operation.selector,
    operation.operands.map byteOf ++ [byteOf operation.sqeControl], rfl, ?_⟩
  rw [tailLength, h.toNat_selector, ← h.length_operands]
  simp

/-- Canonical operations with the same bytes are the same. -/
theorem NativeOperation.IsCanonical.operationBytes_inj {other : NativeOperation}
    (h : operation.IsCanonical) (h' : other.IsCanonical)
    (heq : operationBytes operation = operationBytes other) : operation = other := by
  simp only [operationBytes, List.cons_append, List.cons.injEq] at heq
  obtain ⟨hsel, hrest⟩ := heq
  obtain ⟨hops, hctl⟩ := List.append_inj' hrest rfl
  have hsel : operation.selector = other.selector := by
    rw [← toNat_byteOf h.selector_isByte, hsel, toNat_byteOf h'.selector_isByte]
  have hops : operation.operands = other.operands := by
    rw [← map_toNat_byteOf h.operands, hops, map_toNat_byteOf h'.operands]
  have hctl : operation.sqeControl = other.sqeControl := by
    rw [← toNat_byteOf h.sqeControl, List.singleton_inj.mp hctl, toNat_byteOf h'.sqeControl]
  cases operation
  cases other
  simp_all

end Operation

theorem isItem_of_mem_map {operations : List NativeOperation}
    (h : ∀ operation ∈ operations, operation.IsCanonical) :
    ∀ w ∈ operations.map operationBytes, IsItem tailLength w := by
  simpa using fun operation ho => (h operation ho).isItem

theorem tailLength_lt (selector : UInt8) : tailLength selector < 5 := by
  have := operandCount_le selector.toNat
  rw [tailLength]
  omega

/-- **Unique decodability**: a concatenation of canonical operations, however many, determines
them. -/
theorem flatten_operationBytes_inj {operations operations' : List NativeOperation}
    (h : ∀ operation ∈ operations, operation.IsCanonical)
    (h' : ∀ operation ∈ operations', operation.IsCanonical)
    (heq : (operations.map operationBytes).flatten = (operations'.map operationBytes).flatten) :
    operations = operations' := by
  have hitems := flatten_inj (isItem_of_mem_map h) (isItem_of_mem_map h') heq
  clear heq
  induction operations generalizing operations' with
  | nil => simpa using hitems.symm
  | cons o os ih =>
    rcases operations' with _ | ⟨o', os'⟩
    · simp at hitems
    · simp only [List.map_cons, List.cons.injEq] at hitems
      rw [(h o (by simp)).operationBytes_inj (h' o' (by simp)) hitems.1,
        ih (fun x hx => h x (by simp [hx])) (fun x hx => h' x (by simp [hx])) hitems.2]

theorem flatten_operationBytes_eq_nil {operations : List NativeOperation}
    (h : (operations.map operationBytes).flatten = []) : operations = [] := by
  rcases operations with _ | ⟨o, os⟩
  · rfl
  · simp [operationBytes] at h

/-- The operation maximum keeps every program under the input byte maximum. -/
theorem NativeProgram.IsCanonical.length_programBytes_le {program : NativeProgram}
    (h : program.IsCanonical) : (programBytes program).length ≤ maxInputBytes := by
  have hle := length_flatten_le tailLength_lt (isItem_of_mem_map h.operations)
  have hops := h.length_operations
  simp only [List.length_map, maxOperations] at hle hops
  simp only [programBytes, List.length_cons, maxInputBytes]
  omega

/-! ## The encoder -/

theorem canonicalOperation_eq_ok {operation : NativeOperation} {w : Bytes} :
    canonicalOperation operation = .ok w ↔
      operation.IsCanonical ∧ w = operationBytes operation := by
  simp only [canonicalOperation, bind_eq_ok, requireIntByte_eq_ok, raiseIf_eq_ok, exists_const,
    forM_eq_ok, pure_eq_ok, length_getD_encoderOperandNames, not_le, not_not]
  constructor
  · rintro ⟨hsel, hlt, hlen, hops, hctl, rfl⟩
    exact ⟨⟨hsel.1, hlt, hlen, hops, hctl⟩, rfl⟩
  · rintro ⟨h, rfl⟩
    exact ⟨h.selector_isByte, h.selector_lt, h.length_operands, h.operands, h.sqeControl, rfl⟩

/-- **The encoder accepts the canonical programs** and returns their bytes. -/
theorem encodeProgram_eq_ok {program : NativeProgram} {harnessHash : String} {payload : Bytes} :
    encodeProgram program harnessHash = .ok payload ↔
      harnessHash = auditedHarnessHash ∧ program.IsCanonical ∧ payload = programBytes program := by
  simp only [encodeProgram, requireHash, bind_eq_ok, raiseIf_eq_ok, exists_const,
    requireIntByte_eq_ok, mapM_eq_ok (fun _ _ => canonicalOperation_eq_ok), pure_eq_ok, not_not,
    not_le, Nat.not_lt]
  constructor
  · rintro ⟨rfl, hring, hlt, hlen, _, ⟨hops, rfl⟩, -, rfl⟩
    exact ⟨rfl, ⟨hring.1, hlt, hlen, hops⟩, rfl⟩
  · rintro ⟨rfl, h, rfl⟩
    have hlt := h.ringSelector_lt
    simp only [ringCount] at hlt
    exact ⟨rfl, ⟨h.ringSelector_nonneg, by omega⟩, h.ringSelector_lt, h.length_operations,
      _, ⟨h.operations, rfl⟩, h.length_programBytes_le, rfl⟩

/-! ## The decoder -/

/-- The operation that the decoder reads off its three parts. -/
def readOperation (selector : UInt8) (operands : Bytes) (sqeControl : UInt8) : NativeOperation where
  selector := selector.toNat
  operands := operands.map fun b => b.toNat
  sqeControl := sqeControl.toNat

theorem readOperation_isCanonical {selector : UInt8} {operands : Bytes} {sqeControl : UInt8}
    (hsel : selector.toNat < operationCount)
    (hlen : operands.length = operandCount selector.toNat) :
    (readOperation selector operands sqeControl).IsCanonical where
  selector_nonneg := by simp [readOperation]
  selector_lt := by simpa [readOperation] using hsel
  length_operands := by simpa [readOperation] using hlen
  operands := by
    intro value hv
    obtain ⟨b, -, rfl⟩ := List.mem_map.mp hv
    exact isByte_toNat b
  sqeControl := isByte_toNat sqeControl

theorem operationBytes_readOperation (selector : UInt8) (operands : Bytes) (sqeControl : UInt8) :
    operationBytes (readOperation selector operands sqeControl) =
      selector :: operands ++ [sqeControl] := by
  simp only [operationBytes, readOperation, byteOf_toNat, map_byteOf_toNat]

/-- A canonical operation is what its bytes are read as. -/
theorem NativeOperation.IsCanonical.readOperation_bytes {operation : NativeOperation}
    (h : operation.IsCanonical) :
    readOperation (byteOf operation.selector) (operation.operands.map byteOf)
      (byteOf operation.sqeControl) = operation := by
  simp only [readOperation, toNat_byteOf h.selector_isByte, map_toNat_byteOf h.operands,
    toNat_byteOf h.sqeControl]

/-- What a stream that starts with one operation holds at the positions the decoder reads. -/
theorem reads_of_drop_eq {payload operands rest : Bytes} {cursor : ℕ} {selector sqeControl : UInt8}
    (h : payload.drop cursor = selector :: operands ++ [sqeControl] ++ rest) :
    cursor + 1 + operands.length < payload.length ∧
      payload.getD cursor 0 = selector ∧
      (payload.drop (cursor + 1)).take operands.length = operands ∧
      payload.getD (cursor + 1 + operands.length) 0 = sqeControl ∧
      payload.drop (cursor + 1 + operands.length + 1) = rest := by
  have hget : ∀ i, payload.getD (cursor + i) 0 = (payload.drop cursor).getD i 0 := fun i => by
    simp [List.getD_eq_getElem?_getD]
  have hdrop : ∀ i, payload.drop (cursor + i) = (payload.drop cursor).drop i := fun i => by
    rw [List.drop_drop]
  have hlen : (payload.drop cursor).length = operands.length + 2 + rest.length := by
    rw [h]
    simp only [List.length_append, List.length_cons, List.length_nil]
  refine ⟨?_, ?_, ?_, ?_, ?_⟩
  · rw [List.length_drop] at hlen
    omega
  · simpa [h] using hget 0
  · rw [hdrop, h]
    simp
  · rw [Nat.add_assoc, hget, h, Nat.add_comm]
    simp [List.getD_eq_getElem?_getD]
  · rw [Nat.add_assoc, Nat.add_assoc, hdrop, h, Nat.add_left_comm, Nat.add_comm 1]
    simp

/-- The stream at a position where the decoder finds a whole operation. -/
theorem drop_eq_of_lt {payload : Bytes} {cursor count : ℕ}
    (h : cursor + 1 + count < payload.length) :
    payload.drop cursor =
      payload.getD cursor 0 :: (payload.drop (cursor + 1)).take count ++
        [payload.getD (cursor + 1 + count) 0] ++ payload.drop (cursor + 1 + count + 1) := by
  have hhead : cursor < payload.length := by omega
  have hcontrol : payload.drop (cursor + 1 + count) =
      payload.getD (cursor + 1 + count) 0 :: payload.drop (cursor + 1 + count + 1) := by
    rw [List.drop_eq_getElem_cons h, List.getD_eq_getElem _ _ h]
  rw [List.drop_eq_getElem_cons hhead, List.getD_eq_getElem _ _ hhead, List.append_assoc,
    List.singleton_append, ← hcontrol, List.cons_append, ← List.drop_drop (j := cursor + 1),
    List.take_append_drop]

/-- One round of the loop at a canonical operation. -/
theorem decodeLoop_operation {payload rest : Bytes} {fuel cursor : ℕ}
    {operations : List NativeOperation} {operation : NativeOperation}
    (hop : operation.IsCanonical) (hlen : operations.length < maxOperations)
    (h : payload.drop cursor = operationBytes operation ++ rest) :
    decodeLoop payload (fuel + 1) cursor operations =
      decodeLoop payload fuel (cursor + (operationBytes operation).length)
        (operations ++ [operation]) := by
  obtain ⟨hlt, hsel, hops, hctl, -⟩ := reads_of_drop_eq h
  rw [List.length_map] at hlt hops hctl
  have hcount : decoderOperandCounts.getD operation.selector.toNat 0 = operation.operands.length :=
    hop.length_operands.symm
  have hcanonical := hop.selector_lt
  have hnonneg := hop.selector_nonneg
  rw [decodeLoop, if_pos (by omega), raiseIf_bind_of_not (by omega)]
  simp only [hsel, hop.toNat_selector, hcount, hops, hctl]
  rw [raiseIf_bind_of_not (by omega), raiseIf_bind_of_not (by omega),
    show cursor + 1 + operation.operands.length + 1 = cursor + (operationBytes operation).length by
      rw [length_operationBytes]; omega]
  congr 3
  have hread := hop.readOperation_bytes
  rw [readOperation, hop.toNat_selector] at hread
  exact hread

/-- A round of the loop that does not fail has found a canonical operation. -/
theorem decodeLoop_eq_ok_inv {payload : Bytes} {fuel cursor : ℕ}
    {operations result : List NativeOperation} (hcursor : cursor < payload.length)
    (h : decodeLoop payload (fuel + 1) cursor operations = .ok result) :
    operations.length < maxOperations ∧ ∃ operation : NativeOperation, operation.IsCanonical ∧
      ∃ rest, payload.drop cursor = operationBytes operation ++ rest := by
  rw [decodeLoop, if_pos hcursor] at h
  simp only [raiseIf_bind_eq_ok, not_le] at h
  obtain ⟨hlen, hsel, hstop, -⟩ := h
  refine ⟨hlen, readOperation (payload.getD cursor 0)
    ((payload.drop (cursor + 1)).take (operandCount (payload.getD cursor 0).toNat))
    (payload.getD (cursor + 1 + operandCount (payload.getD cursor 0).toNat) 0), ?_,
    payload.drop (cursor + 1 + operandCount (payload.getD cursor 0).toNat + 1), ?_⟩
  · refine readOperation_isCanonical hsel ?_
    rw [List.length_take, List.length_drop]
    have : cursor + 1 + operandCount (payload.getD cursor 0).toNat < payload.length := hstop
    omega
  · rw [operationBytes_readOperation]
    exact drop_eq_of_lt hstop

/-- From `cursor` on the payload is canonical operations that extend `operations` to `result`. -/
def Reads (payload : Bytes) (cursor : ℕ) (operations result : List NativeOperation) : Prop :=
  ∃ read, result = operations ++ read ∧ (∀ operation ∈ read, operation.IsCanonical) ∧
    operations.length + read.length ≤ maxOperations ∧
    payload.drop cursor = (read.map operationBytes).flatten

theorem reads_of_drop_eq_nil {payload : Bytes} {cursor : ℕ}
    {operations result : List NativeOperation} (hnil : payload.drop cursor = [])
    (hbound : operations.length ≤ maxOperations) :
    Reads payload cursor operations result ↔ operations = result := by
  constructor
  · rintro ⟨read, rfl, -, -, hread⟩
    rw [hnil] at hread
    rw [flatten_operationBytes_eq_nil hread.symm, List.append_nil]
  · rintro rfl
    exact ⟨[], by simp, by simp, hbound, by simpa using hnil⟩

theorem reads_operation {payload rest : Bytes} {cursor : ℕ}
    {operations result : List NativeOperation} {operation : NativeOperation}
    (hop : operation.IsCanonical) (h : payload.drop cursor = operationBytes operation ++ rest) :
    Reads payload cursor operations result ↔
      Reads payload (cursor + (operationBytes operation).length) (operations ++ [operation])
        result := by
  have hrest : payload.drop (cursor + (operationBytes operation).length) = rest := by
    rw [← List.drop_drop, h, List.drop_left]
  constructor
  · rintro ⟨read, rfl, hread, hlen, hdrop⟩
    rcases read with _ | ⟨o, read⟩
    · rw [h] at hdrop
      simp [operationBytes] at hdrop
    · rw [List.map_cons, List.flatten_cons, h] at hdrop
      have ho : o.IsCanonical := hread o (by simp)
      obtain ⟨hbytes, htail⟩ := hop.isItem.append_inj ho.isItem hdrop
      obtain rfl := hop.operationBytes_inj ho hbytes
      refine ⟨read, by simp, fun x hx => hread x (by simp [hx]), ?_, hrest.trans htail⟩
      simp only [List.length_cons, List.length_append, List.length_nil] at hlen ⊢
      omega
  · rintro ⟨read, rfl, hread, hlen, hdrop⟩
    refine ⟨operation :: read, by simp, by simpa using ⟨hop, hread⟩, ?_, ?_⟩
    · simp only [List.length_cons, List.length_append, List.length_nil] at hlen ⊢
      omega
    · rw [List.map_cons, List.flatten_cons, ← hdrop, hrest, h]

theorem Reads.exists_operation {payload : Bytes} {cursor : ℕ}
    {operations result : List NativeOperation} (h : Reads payload cursor operations result)
    (hcursor : cursor < payload.length) :
    operations.length < maxOperations ∧ ∃ operation : NativeOperation, operation.IsCanonical ∧
      ∃ rest, payload.drop cursor = operationBytes operation ++ rest := by
  obtain ⟨read, -, hread, hlen, hdrop⟩ := h
  rcases read with _ | ⟨o, read⟩
  · have := congrArg List.length hdrop
    rw [List.length_drop, List.map_nil, List.flatten_nil, List.length_nil] at this
    omega
  · rw [List.length_cons] at hlen
    exact ⟨by omega, o, hread o (by simp), _, hdrop⟩

/-- **What the loop computes**: it reads canonical operations to the end of the payload, and
succeeds exactly when there are such operations, few enough. -/
theorem decodeLoop_eq_ok {payload : Bytes} {fuel cursor : ℕ}
    {operations result : List NativeOperation} (hfuel : payload.length ≤ cursor + fuel)
    (hbound : operations.length ≤ maxOperations) :
    decodeLoop payload fuel cursor operations = .ok result ↔
      Reads payload cursor operations result := by
  induction fuel generalizing cursor operations with
  | zero =>
    have hnil : payload.drop cursor = [] := List.drop_eq_nil_of_le hfuel
    rw [reads_of_drop_eq_nil hnil hbound, decodeLoop, Except.ok.injEq]
  | succ fuel ih =>
    by_cases hcursor : cursor < payload.length
    · have hround : ∀ operation rest, operation.IsCanonical → operations.length < maxOperations →
          payload.drop cursor = operationBytes operation ++ rest →
          (decodeLoop payload (fuel + 1) cursor operations = .ok result ↔
            Reads payload cursor operations result) := by
        intro operation rest hop hlen hdrop
        rw [decodeLoop_operation hop hlen hdrop, reads_operation hop hdrop]
        refine ih ?_ ?_
        · rw [length_operationBytes]
          omega
        · rw [List.length_append, List.length_singleton]
          omega
      constructor
      · intro h
        obtain ⟨hlen, operation, hop, rest, hdrop⟩ := decodeLoop_eq_ok_inv hcursor h
        exact (hround operation rest hop hlen hdrop).mp h
      · intro h
        obtain ⟨hlen, operation, hop, rest, hdrop⟩ := h.exists_operation hcursor
        exact (hround operation rest hop hlen hdrop).mpr h
    · rw [decodeLoop, if_neg hcursor, pure_eq_ok,
        reads_of_drop_eq_nil (List.drop_eq_nil_of_le (by omega)) hbound]

/-- **The decoder accepts the bytes of the canonical programs** and returns the program. -/
theorem decodeProgram_eq_ok {program : NativeProgram} {harnessHash : String} {payload : Bytes} :
    decodeProgram payload harnessHash = .ok program ↔
      harnessHash = auditedHarnessHash ∧ program.IsCanonical ∧ payload = programBytes program := by
  have hloop : ∀ operations, decodeLoop payload payload.length 1 [] = .ok operations ↔
      Reads payload 1 [] operations := fun operations =>
    decodeLoop_eq_ok (by omega) (by simp)
  simp only [decodeProgram, requireHash, bind_eq_ok, raiseIf_eq_ok, exists_const, pure_eq_ok,
    hloop, not_not, not_le, not_lt]
  constructor
  · rintro ⟨rfl, hne, -, hring, operations, ⟨read, rfl, hread, hlen, hdrop⟩, rfl⟩
    obtain ⟨b, bs, rfl⟩ := List.exists_cons_of_ne_nil hne
    rw [List.getD_cons_zero] at hring
    refine ⟨rfl, ⟨by simp, by simpa using hring, by simpa using hlen, hread⟩, ?_⟩
    simpa [programBytes] using hdrop
  · rintro ⟨rfl, h, rfl⟩
    have hring : IsByte program.ringSelector := by
      have hlt := h.ringSelector_lt
      simp only [ringCount] at hlt
      exact ⟨h.ringSelector_nonneg, by omega⟩
    have hget : (((programBytes program).getD 0 0).toNat : ℤ) = program.ringSelector :=
      toNat_byteOf hring
    refine ⟨rfl, by simp [programBytes], h.length_programBytes_le, ?_, program.operations,
      ⟨program.operations, rfl, h.operations, by simpa using h.length_operations, rfl⟩, ?_⟩
    · have hlt := h.ringSelector_lt
      omega
    · rw [hget]

/-! ## Encoder and decoder -/

/-- **Encoder and decoder are inverse**, so that the decoder accepts exactly the image of the
encoder; a stream has at most one program, a concatenation of operations of any length determines
them, and the two operand tables agree. -/
theorem decodeProgram_encodeProgram :
    (∀ program payload, decodeProgram payload auditedHarnessHash = .ok program ↔
      encodeProgram program auditedHarnessHash = .ok payload) ∧
    (∀ payload, (∃ program, decodeProgram payload auditedHarnessHash = .ok program) ↔
      ∃ program, encodeProgram program auditedHarnessHash = .ok payload) ∧
    (∀ program program' payload, encodeProgram program auditedHarnessHash = .ok payload →
      encodeProgram program' auditedHarnessHash = .ok payload → program = program') ∧
    (∀ operations operations' : List NativeOperation,
      (∀ operation ∈ operations, operation.IsCanonical) →
      (∀ operation ∈ operations', operation.IsCanonical) →
      (operations.map operationBytes).flatten = (operations'.map operationBytes).flatten →
      operations = operations') ∧
    (∀ selector, (encoderOperandNames.getD selector []).length =
      decoderOperandCounts.getD selector 0) ∧
    encoderOperandNames.length = decoderOperandCounts.length := by
  have hinv : ∀ program payload, decodeProgram payload auditedHarnessHash = .ok program ↔
      encodeProgram program auditedHarnessHash = .ok payload := fun program payload => by
    rw [decodeProgram_eq_ok, encodeProgram_eq_ok]
  refine ⟨hinv, fun payload => exists_congr fun program => hinv program payload, ?_, ?_,
    length_getD_encoderOperandNames, rfl⟩
  · intro program program' payload h h'
    rw [← hinv] at h h'
    exact Except.ok.inj (h.symm.trans h')
  · intro operations operations' h h' heq
    exact flatten_operationBytes_inj h h' heq

/-- A program with the two widest operations, through encoder and decoder. -/
theorem decodeProgram_encodeProgram_sample :
    decodeProgram [3, 39, 1, 9, 8, 4, 43, 0, 255, 0] auditedHarnessHash =
      .ok ⟨3, [⟨39, [1, 9, 8], 4⟩, ⟨43, [0, 255], 0⟩]⟩ :=
  (decodeProgram_encodeProgram.1 ⟨3, [⟨39, [1, 9, 8], 4⟩, ⟨43, [0, 255], 0⟩]⟩ _).mpr (by decide)

end IouAi.HarnessCodec
