import IouAi.Foundations.Checks
import Mathlib.Data.Int.Order.Basic
import Mathlib.Data.List.GetD
import Mathlib.Data.Nat.Basic

/-!
# The codec of the audited harness

`encodeProgram` and `decodeProgram` translate between a native program and the byte stream that one
exact harness ELF consumes: a ring selector, then for every operation its selector, its operands in
the parser's read order and one SQE control byte. The encoder counts operands in the table of their
names, the decoder in a table of its own. `verifyAuditedCodec` is the self-test that the compiler
runs: one golden program for each selector.

A program holds Python integers, of any sign and size: that they are bytes is what the encoder
checks.
-/

namespace IouAi.HarnessCodec

open Checks

/-- A `bytes` value. -/
abbrev Bytes := List UInt8

def auditedHarnessHash : String :=
  "sha256:cbdebc2ae149cde0f9b0482a980d539031c7ea493c3ec8c7ff46832a5c09c180"

def ringCount : ℕ := 8
def operationCount : ℕ := 61
def maxOperations : ℕ := 96
def maxInputBytes : ℕ := 2048

/-- The requested program is not canonical for the audited harness. -/
structure HarnessCodecError where
  message : String
  deriving DecidableEq, Repr

/-- One harness operation, its operands in parser read order. -/
structure NativeOperation where
  selector : ℤ
  operands : List ℤ
  sqeControl : ℤ
  deriving DecidableEq, Repr

structure NativeProgram where
  ringSelector : ℤ
  operations : List NativeOperation
  deriving DecidableEq, Repr

/-- Encoder authority: the operand names of every selector, in read order. -/
def encoderOperandNames : List (List String) := [
  [],
  ["fd"],
  ["fd"],
  ["fd", "length"],
  ["fd"],
  ["fd", "datasync"],
  ["fd"],
  ["user_data"],
  ["flags", "count"],
  ["user_data"],
  ["fd"],
  ["fd"],
  ["fd"],
  ["fd"],
  [],
  ["input_fd", "output_fd"],
  ["input_fd", "output_fd"],
  ["fd"],
  ["buffer_group"],
  ["buffer_group"],
  ["fd"],
  ["fd"],
  ["accept_flags"],
  [],
  ["fd"],
  ["fd"],
  ["fd", "backlog"],
  ["socket_type"],
  ["fd", "how"],
  ["fd"],
  ["fd"],
  ["fd"],
  ["fd"],
  ["fd", "zc_flags"],
  ["fd"],
  ["user_data"],
  ["fd", "cancel_flags"],
  ["timeout_flags"],
  ["user_data"],
  ["flags", "new_user_data", "old_user_data"],
  ["fd"],
  ["fd", "buffer_index"],
  ["fd", "buffer_index"],
  ["offset", "count"],
  ["fd"],
  ["file_index"],
  ["fd"],
  ["data", "length"],
  ["fd", "file_index"],
  [],
  ["expected_value"],
  [],
  [],
  [],
  ["unlink_flags"],
  [],
  [],
  ["fd"],
  ["fd", "length_units"],
  [],
  ["register_opcode", "register_count"]]

/-- Decoder authority: the operand counts, typed independently of the names. -/
def decoderOperandCounts : List ℕ := [
  0, 1, 1, 2, 1, 2, 1, 1, 2, 1,
  1, 1, 1, 1, 0, 2, 2, 1, 1, 1,
  1, 1, 1, 0, 1, 1, 2, 1, 2, 1,
  1, 1, 1, 2, 1, 1, 2, 1, 1, 3,
  1, 2, 2, 2, 1, 1, 1, 2, 2, 0,
  1, 0, 0, 0, 1, 0, 0, 1, 2, 0,
  2]

def requireHash (harnessHash : String) : Except HarnessCodecError Unit :=
  raiseIf (harnessHash ≠ auditedHarnessHash)
    ⟨"harness ELF hash is not the audited codec target"⟩

def requireIntByte (value : ℤ) (label : String) : Except HarnessCodecError Unit :=
  raiseIf (¬ (0 ≤ value ∧ value ≤ 255)) ⟨label ++ " must be an integer byte"⟩

/-- The documented operand names of a selector, in the audited parser's read order. -/
def operandNames (selector : ℤ) : Except HarnessCodecError (List String) := do
  requireIntByte selector "operation selector"
  raiseIf (operationCount ≤ selector) ⟨"operation selector is not canonical"⟩
  return encoderOperandNames.getD selector.toNat []

/-- The byte of an integer that `requireIntByte` accepted. -/
def byteOf (value : ℤ) : UInt8 := UInt8.ofNat value.toNat

def canonicalOperation (operation : NativeOperation) : Except HarnessCodecError Bytes := do
  requireIntByte operation.selector "operation selector"
  raiseIf (operationCount ≤ operation.selector) ⟨"operation selector is not canonical"⟩
  let expected := (encoderOperandNames.getD operation.selector.toNat []).length
  raiseIf (operation.operands.length ≠ expected)
    ⟨"operation operand count does not match the audited grammar"⟩
  operation.operands.forM fun value => requireIntByte value "operand"
  requireIntByte operation.sqeControl "SQE control"
  return byteOf operation.selector :: operation.operands.map byteOf ++ [byteOf operation.sqeControl]

/-- Encode a complete canonical program for the exact audited ELF. -/
def encodeProgram (program : NativeProgram) (harnessHash : String) :
    Except HarnessCodecError Bytes := do
  requireHash harnessHash
  requireIntByte program.ringSelector "ring selector"
  raiseIf (ringCount ≤ program.ringSelector) ⟨"ring selector is not canonical"⟩
  raiseIf (maxOperations < program.operations.length)
    ⟨"program exceeds the harness operation maximum"⟩
  let operations ← program.operations.mapM canonicalOperation
  let payload := byteOf program.ringSelector :: operations.flatten
  raiseIf (maxInputBytes < payload.length) ⟨"program exceeds the harness input byte maximum"⟩
  return payload

/-- The decoder's loop. Every round moves the cursor forward by at least two bytes, so the payload's
length is enough fuel. -/
def decodeLoop (payload : Bytes) :
    ℕ → ℕ → List NativeOperation → Except HarnessCodecError (List NativeOperation)
  | 0, _, operations => .ok operations
  | fuel + 1, cursor, operations => do
    if cursor < payload.length then
      raiseIf (maxOperations ≤ operations.length)
        ⟨"payload exceeds the harness operation maximum"⟩
      let selector := (payload.getD cursor 0).toNat
      let cursor := cursor + 1
      raiseIf (operationCount ≤ selector)
        ⟨"payload contains a non-canonical operation selector"⟩
      let operandCount := decoderOperandCounts.getD selector 0
      let stop := cursor + operandCount
      raiseIf (payload.length ≤ stop) ⟨"payload truncates operation operands or SQE control"⟩
      let operands := (payload.drop cursor).take operandCount
      let sqeControl := payload.getD stop 0
      decodeLoop payload fuel (stop + 1) (operations ++
        [{ selector := selector
           operands := operands.map fun b => b.toNat
           sqeControl := sqeControl.toNat }])
    else
      return operations

/-- Strictly decode one complete canonical program. -/
def decodeProgram (payload : Bytes) (harnessHash : String) :
    Except HarnessCodecError NativeProgram := do
  requireHash harnessHash
  raiseIf (payload = []) ⟨"payload omits the ring selector"⟩
  raiseIf (maxInputBytes < payload.length) ⟨"payload exceeds the harness input byte maximum"⟩
  let ringSelector := (payload.getD 0 0).toNat
  raiseIf (ringCount ≤ ringSelector) ⟨"ring selector is not canonical"⟩
  let operations ← decodeLoop payload payload.length 1 []
  return { ringSelector := ringSelector, operations := operations }

/-- Fail unless each independently decoded encoding is exactly identical. -/
def verifyRoundTrip (programs : List NativeProgram) (harnessHash : String) :
    Except HarnessCodecError Unit := do
  requireHash harnessHash
  programs.forM fun program => do
    let payload ← encodeProgram program harnessHash
    let decoded ← decodeProgram payload harnessHash
    raiseIf (decoded ≠ program) ⟨"independent decoder round trip failed"⟩

/-- The golden program of a selector. -/
def goldenProgram (selector : ℕ) : NativeProgram where
  ringSelector := (selector % ringCount : ℕ)
  operations := [{
    selector := selector
    operands := (List.range (encoderOperandNames.getD selector []).length).map fun index =>
      ((selector * 17 + index * 29) % 256 : ℕ)
    sqeControl := (selector * 7 % 256 : ℕ) }]

/-- Verify both complete grammar authorities with 61 canonical vectors. -/
def verifyAuditedCodec : Except HarnessCodecError Unit := do
  raiseIf (encoderOperandNames.length ≠ operationCount) ⟨"encoder operation table is incomplete"⟩
  raiseIf (decoderOperandCounts.length ≠ operationCount) ⟨"decoder operation table is incomplete"⟩
  verifyRoundTrip ((List.range operationCount).map goldenProgram) auditedHarnessHash

/-! ## The two operand tables -/

theorem length_encoderOperandNames : encoderOperandNames.length = operationCount := by decide

theorem length_decoderOperandCounts : decoderOperandCounts.length = operationCount := by decide

/-- The number of operands of a selector: what the decoder's table says. -/
def operandCount (selector : ℕ) : ℕ := decoderOperandCounts.getD selector 0

/-- **The two operand tables agree** on every selector, in and out of range. -/
theorem length_getD_encoderOperandNames (selector : ℕ) :
    (encoderOperandNames.getD selector []).length = operandCount selector := by
  by_cases h : selector < 61
  · have key : ∀ s < 61,
        (encoderOperandNames.getD s []).length = decoderOperandCounts.getD s 0 := by decide
    exact key selector h
  · have henc : encoderOperandNames.length ≤ selector := Nat.not_lt.mp h
    have hdec : decoderOperandCounts.length ≤ selector := Nat.not_lt.mp h
    rw [operandCount, List.getD_eq_default _ _ henc, List.getD_eq_default _ _ hdec]
    rfl

/-- No operation has more than three operands. -/
theorem operandCount_le (selector : ℕ) : operandCount selector ≤ 3 := by
  by_cases h : selector < 61
  · have key : ∀ s < 61, decoderOperandCounts.getD s 0 ≤ 3 := by decide
    exact key selector h
  · have hdec : decoderOperandCounts.length ≤ selector := Nat.not_lt.mp h
    rw [operandCount, List.getD_eq_default _ _ hdec]
    omega

end IouAi.HarnessCodec
