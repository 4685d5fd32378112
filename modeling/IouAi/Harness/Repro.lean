import IouAi.Harness.RoundTrip

/-!
# The triage decoder

`decodeExecuted` reads a raw fuzzer input for a crash trace: the ring modulo eight, every selector
modulo sixty-one, and operations until the input runs out. It lists the complete operations of the
input, and only those (`decodeExecuted_eq`).
-/

namespace IouAi.Repro

open Checks HeadCode HarnessCodec

/-- Coarse operation family from the harness selector layout. -/
def operationFamily (selector : ℕ) : String :=
  if selector = 0 then "nop/ring-setup"
  else if 1 ≤ selector ∧ selector ≤ 21 then "file-io"
  else if 22 ≤ selector ∧ selector ≤ 34 then "socket"
  else if 35 ≤ selector ∧ selector ≤ 40 then "cancel/link/timeout"
  else if 41 ≤ selector ∧ selector ≤ 46 then "fixed-io/registered"
  else if 47 ≤ selector ∧ selector ≤ 48 then "msg_ring"
  else if 49 ≤ selector ∧ selector ≤ 52 then "futex/waitid"
  else if 53 ≤ selector ∧ selector ≤ 58 then "path/xattr"
  else if selector = 60 then "io_uring_register"
  else "other"

structure DecodedOp where
  index : ℕ
  selector : ℕ
  family : String
  operands : List (String × UInt8)
  control : UInt8
  bufferGroup : ℕ
  flagNibble : ℕ
  deriving DecidableEq, Repr

structure DecodedInput where
  ring : ℕ
  ops : List DecodedOp
  totalBytes : ℕ
  consumedBytes : ℕ
  deriving DecidableEq, Repr

/-- The operands under their names, the cursor behind them and whether the input ran out. -/
def readOperands (payload : Bytes) :
    List String → ℕ → List (String × UInt8) → List (String × UInt8) × ℕ × Bool
  | [], cursor, operands => (operands, cursor, false)
  | name :: names, cursor, operands =>
    if payload.length ≤ cursor then
      (operands, cursor, true)
    else
      readOperands payload names (cursor + 1) (operands ++ [(name, payload.getD cursor 0)])

/-- The decoder's loop; every round moves the cursor forward. -/
def decodeExecutedLoop (payload : Bytes) :
    ℕ → ℕ → List DecodedOp → Except HarnessCodecError (List DecodedOp × ℕ)
  | 0, cursor, ops => .ok (ops, cursor)
  | fuel + 1, cursor, ops => do
    if cursor < payload.length then
      let selector := (payload.getD cursor 0).toNat % operationCount
      let names ← operandNames selector
      let (operands, cursor, truncated) := readOperands payload names (cursor + 1) []
      if truncated ∨ payload.length ≤ cursor then
        return (ops, cursor)
      else
        let control := payload.getD cursor 0
        decodeExecutedLoop payload fuel (cursor + 1) (ops ++ [{
          index := ops.length
          selector := selector
          family := operationFamily selector
          operands := operands
          control := control
          bufferGroup := control.toNat >>> 4
          flagNibble := control.toNat &&& 0x0F }])
    else
      return (ops, cursor)

/-- The harness's lenient parse: ring modulo 8, selector modulo 61, to the end of the input. -/
def decodeExecuted (payload : Bytes) : Except HarnessCodecError DecodedInput := do
  if payload = [] then
    return { ring := 0, ops := [], totalBytes := 0, consumedBytes := 0 }
  else
    let ring := (payload.getD 0 0).toNat % ringCount
    let (ops, cursor) ← decodeExecutedLoop payload payload.length 1 []
    return { ring := ring, ops := ops, totalBytes := payload.length, consumedBytes := cursor }

/-! ## The operations of an input -/

/-- How many bytes follow a selector byte when selectors are taken modulo their number. -/
def lenientTailLength (selector : UInt8) : ℕ :=
  operandCount (selector.toNat % operationCount) + 1

theorem lenientTailLength_lt (selector : UInt8) : lenientTailLength selector < 5 := by
  have := operandCount_le (selector.toNat % operationCount)
  rw [lenientTailLength]
  omega

/-- What the trace shows of a complete operation. -/
def decodedOp (index : ℕ) (w : Bytes) : DecodedOp :=
  let selector := (w.headD 0).toNat % operationCount
  let control := w.getLastD 0
  { index := index
    selector := selector
    family := operationFamily selector
    operands := (encoderOperandNames.getD selector []).zip w.tail.dropLast
    control := control
    bufferGroup := control.toNat >>> 4
    flagNibble := control.toNat &&& 0x0F }

theorem decodedOp_item (index : ℕ) (selector : UInt8) (operands : Bytes) (control : UInt8) :
    decodedOp index (selector :: operands ++ [control]) =
      { index := index
        selector := selector.toNat % operationCount
        family := operationFamily (selector.toNat % operationCount)
        operands := (encoderOperandNames.getD (selector.toNat % operationCount) []).zip operands
        control := control
        bufferGroup := control.toNat >>> 4
        flagNibble := control.toNat &&& 0x0F } := by
  have hlast : (selector :: operands ++ [control]).getLastD 0 = control := List.getLastD_concat ..
  have hmid : (selector :: operands ++ [control]).tail.dropLast = operands := by simp
  simp only [decodedOp, hlast, hmid]
  rfl

theorem isItem_iff {w : Bytes} : IsItem lenientTailLength w ↔
    ∃ selector operands control, w = selector :: operands ++ [control] ∧
      operands.length = operandCount (selector.toNat % operationCount) := by
  constructor
  · rintro ⟨selector, t, rfl, ht⟩
    have hne : t ≠ [] := by
      rintro rfl
      simp [lenientTailLength] at ht
    refine ⟨selector, t.dropLast, t.getLast hne, ?_, ?_⟩
    · rw [List.cons_append, List.dropLast_concat_getLast]
    · rw [List.length_dropLast, ht, lenientTailLength, Nat.add_sub_cancel]
  · rintro ⟨selector, operands, control, rfl, hlen⟩
    exact ⟨selector, operands ++ [control], rfl, by simp [lenientTailLength, hlen]⟩

theorem operandNames_mod (b : ℕ) :
    operandNames ((b % operationCount : ℕ) : ℤ) =
      .ok (encoderOperandNames.getD (b % operationCount) []) := by
  have hlt : b % operationCount < 61 := Nat.mod_lt _ (by decide)
  have hbyte : IsByte ((b % operationCount : ℕ) : ℤ) := ⟨by omega, by omega⟩
  rw [operandNames, bind_eq_ok]
  refine ⟨(), requireIntByte_eq_ok.mpr hbyte, ?_⟩
  rw [raiseIf_bind_of_not (by simp only [operationCount] at hlt ⊢; omega)]
  rfl

/-- The operand reader takes what it needs, and stops at the end of the input. -/
theorem readOperands_eq {payload : Bytes} {names : List String} {cursor : ℕ}
    {operands : List (String × UInt8)} (hcursor : cursor ≤ payload.length) :
    readOperands payload names cursor operands =
      (operands ++ names.zip (payload.drop cursor),
        cursor + min names.length (payload.drop cursor).length,
        decide ((payload.drop cursor).length < names.length)) := by
  induction names generalizing cursor operands with
  | nil => simp [readOperands]
  | cons name names ih =>
    by_cases hend : payload.length ≤ cursor
    · have hnil : payload.drop cursor = [] := List.drop_eq_nil_of_le hend
      simp [readOperands, hend, hnil]
    · have hlt : cursor < payload.length := by omega
      have hdrop : payload.drop cursor = payload.getD cursor 0 :: payload.drop (cursor + 1) := by
        rw [List.drop_eq_getElem_cons hlt, List.getD_eq_getElem _ _ hlt]
      have hrest : cursor + 1 ≤ payload.length := hlt
      rw [readOperands, if_neg hend, ih hrest, hdrop]
      simp only [List.zip_cons_cons, List.append_assoc, List.singleton_append, List.length_cons,
        Nat.succ_lt_succ_iff, Prod.mk.injEq, true_and, and_true]
      omega

/-- One round of the loop at a complete operation. -/
theorem decodeExecutedLoop_item {payload w rest : Bytes} {fuel cursor : ℕ} {ops : List DecodedOp}
    (hw : IsItem lenientTailLength w) (h : payload.drop cursor = w ++ rest) :
    decodeExecutedLoop payload (fuel + 1) cursor ops =
      decodeExecutedLoop payload fuel (cursor + w.length) (ops ++ [decodedOp ops.length w]) := by
  obtain ⟨selector, operands, control, rfl, hlen⟩ := isItem_iff.mp hw
  obtain ⟨hlt, hsel, -, hctl, -⟩ := reads_of_drop_eq h
  have hdrop : payload.drop (cursor + 1) = operands ++ ([control] ++ rest) := by
    rw [← List.drop_drop, h]
    simp
  have hnames := length_getD_encoderOperandNames (selector.toNat % operationCount)
  rw [← hlen] at hnames
  have hmin : min operands.length (operands ++ ([control] ++ rest)).length = operands.length := by
    rw [List.length_append]
    omega
  have hzip : (encoderOperandNames.getD (selector.toNat % operationCount) []).zip
      (operands ++ ([control] ++ rest)) =
      (encoderOperandNames.getD (selector.toNat % operationCount) []).zip operands := by
    rw [← List.append_nil (encoderOperandNames.getD _ _), List.zip_append hnames]
    simp
  rw [decodeExecutedLoop, if_pos (by omega), hsel]
  simp only [operandNames_mod, bind, Except.bind,
    readOperands_eq (show cursor + 1 ≤ payload.length by omega), hdrop,
    hnames, hmin, hctl, hzip, List.nil_append]
  rw [if_neg, decodedOp_item]
  · simp only [List.length_append, List.length_cons, List.length_nil]
    congr 1
    omega
  · simp only [List.length_append, List.length_cons, decide_eq_true_eq, not_or]
    omega

/-- At a truncated operation the loop ends, at the end of the input. -/
theorem decodeExecutedLoop_truncated {payload : Bytes} {fuel cursor : ℕ} {ops : List DecodedOp}
    (h : IsTruncated lenientTailLength (payload.drop cursor)) :
    decodeExecutedLoop payload (fuel + 1) cursor ops = .ok (ops, payload.length) := by
  obtain ⟨selector, t, hdrop, ht⟩ := h
  have hlt : cursor < payload.length := by
    by_contra hle
    rw [List.drop_eq_nil_of_le (by omega)] at hdrop
    simp at hdrop
  have hsel : payload.getD cursor 0 = selector := by
    have := List.drop_eq_getElem_cons hlt
    rw [hdrop, List.cons.injEq] at this
    rw [List.getD_eq_getElem _ _ hlt, this.1]
  have hrest : payload.drop (cursor + 1) = t := by
    rw [← List.drop_drop, hdrop]
    simp
  have hlen : payload.length = cursor + 1 + t.length := by
    have := congrArg List.length hdrop
    rw [List.length_drop, List.length_cons] at this
    omega
  have hnames := length_getD_encoderOperandNames (selector.toNat % operationCount)
  rw [lenientTailLength] at ht
  have hmin : min (operandCount (selector.toNat % operationCount)) t.length = t.length := by
    omega
  rw [decodeExecutedLoop, if_pos hlt, hsel]
  simp only [operandNames_mod, bind, Except.bind,
    readOperands_eq (show cursor + 1 ≤ payload.length by omega), hrest,
    hnames, hmin]
  rw [if_pos (.inr (by omega)), hlen]
  rfl

/-- The loop lists the complete operations that are left, and ends at the end of the input. -/
theorem decodeExecutedLoop_eq {payload tail : Bytes} {items : List Bytes} {fuel cursor : ℕ}
    {ops : List DecodedOp} (hsplits : Splits lenientTailLength (payload.drop cursor) items tail)
    (hcursor : cursor ≤ payload.length) (hfuel : payload.length ≤ cursor + fuel) :
    decodeExecutedLoop payload fuel cursor ops =
      .ok (ops ++ items.mapIdx (fun i w => decodedOp (ops.length + i) w), payload.length) := by
  induction items generalizing fuel cursor ops with
  | nil =>
    have hdrop : payload.drop cursor = tail := by simpa using hsplits.eq
    rw [List.mapIdx_nil, List.append_nil]
    rcases hsplits.tail with htail | htail
    · rw [htail, List.drop_eq_nil_iff] at hdrop
      obtain rfl : cursor = payload.length := by omega
      cases fuel <;> simp [decodeExecutedLoop, pure, Except.pure]
    · obtain ⟨fuel, rfl⟩ : ∃ k, fuel = k + 1 := by
        refine ⟨fuel - 1, ?_⟩
        have := List.length_pos_of_ne_nil (hdrop ▸ htail.ne_nil)
        rw [List.length_drop] at this
        omega
      exact decodeExecutedLoop_truncated (hdrop ▸ htail)
  | cons w items ih =>
    have hw : IsItem lenientTailLength w := hsplits.items w (by simp)
    have hdrop : payload.drop cursor = w ++ (items.flatten ++ tail) := by
      simpa using hsplits.eq
    have hrest : payload.drop (cursor + w.length) = items.flatten ++ tail := by
      rw [← List.drop_drop, hdrop, List.drop_left]
    have hpos : 0 < w.length := List.length_pos_of_ne_nil hw.ne_nil
    have hlen := congrArg List.length hdrop
    rw [List.length_drop, List.length_append] at hlen
    obtain ⟨fuel, rfl⟩ : ∃ k, fuel = k + 1 := ⟨fuel - 1, by omega⟩
    have hsplits' : Splits lenientTailLength (payload.drop (cursor + w.length)) items tail :=
      ⟨hrest, fun v hv => hsplits.items v (by simp [hv]), hsplits.tail⟩
    rw [decodeExecutedLoop_item hw hdrop, ih hsplits' (by omega) (by omega), List.mapIdx_cons]
    simp [Nat.add_assoc, Nat.add_comm 1]

/-- **The triage decoder lists the complete operations of its input.** -/
theorem decodeExecuted_eq {ring : UInt8} {stream tail : Bytes} {items : List Bytes}
    (hsplits : Splits lenientTailLength stream items tail) :
    decodeExecuted (ring :: stream) = .ok
      { ring := ring.toNat % ringCount
        ops := items.mapIdx decodedOp
        totalBytes := stream.length + 1
        consumedBytes := stream.length + 1 } := by
  have hloop : decodeExecutedLoop (ring :: stream) (stream.length + 1) 1 [] = .ok _ :=
    decodeExecutedLoop_eq (by simpa using hsplits) (by simp) (by simp)
  rw [decodeExecuted, if_neg (by simp)]
  simp only [List.length_cons, hloop]
  simp [bind, Except.bind, pure, Except.pure]

end IouAi.Repro
