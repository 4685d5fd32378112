import IouAi.Contract.Models
import IouAi.Foundations.Dict
import IouAi.Harness.Codec
import Mathlib.Algebra.GroupWithZero.Nat

/-!
# The native compiler

`compileProgram` turns a planner's program into the payload of the audited harness, under a contract
that is bound to this compiler and this harness (`status`). It resolves every name in the contract's
tables, orders the arguments by the codec's operand names, and checks its own output with the
decoder.

The digest of the compiler's own file and the hash function are parameters.
-/

namespace IouAi.Compiler

open Checks HarnessCodec Models

structure CompilerStatus where
  enabled : Bool
  reason : String
  compilerHash : String
  deriving DecidableEq, Repr

structure CompiledProgram where
  programId : String
  payload : Bytes
  payloadHash : String
  operationCount : ℕ
  compilerHash : String
  harnessHash : String
  deriving DecidableEq, Repr

/-- What compilation can raise: its own refusal, or an error of the codec that it does not catch. -/
inductive CompileError
  | blocked (message : String)
  | codec (error : HarnessCodecError)
  deriving DecidableEq, Repr

/-- Run a function of the codec; its errors pass through. -/
def liftCodec {α : Type} : Except HarnessCodecError α → Except CompileError α
  | .ok a => .ok a
  | .error e => .error (.codec e)

section Compiler

variable (compilerHash : String)

/-- Whether one explicit contract authorizes deterministic emission. -/
def status : Option HarnessContract → CompilerStatus
  | none =>
    { enabled := false
      reason := "an explicit hash-bound harness contract is required"
      compilerHash := compilerHash }
  | some contract =>
    if ¬ (contract.environment = .production ∧ contract.verified ∧ ¬ contract.testOnly ∧
        contract.deterministicCompiler ∧ contract.decodeRoundTripVerified ∧
        contract.targetHashes.harnessHash = auditedHarnessHash ∧
        contract.targetHashes.compilerHash = compilerHash) then
      { enabled := false
        reason := "the contract is not a verified production contract for this " ++
          "exact compiler and audited harness ELF"
        compilerHash := compilerHash }
    else
      match verifyAuditedCodec with
      | .error _ =>
        { enabled := false
          reason := "the audited encoder/decoder proof failed"
          compilerHash := compilerHash }
      | .ok () =>
        { enabled := true
          reason := "verified production compiler and codec are hash-bound"
          compilerHash := compilerHash }

def integerArgument (value : Option SymbolicArgument) (label : String) : Except CompileError ℤ :=
  match value with
  | none => .error (.blocked (label ++ " is not a byte-valued integer"))
  | some argument => do
    raiseIf (argument.kind ≠ .integer) (.blocked (label ++ " is not a byte-valued integer"))
    raiseIf (¬ (0 ≤ argument.integerValue ∧ argument.integerValue ≤ 255))
      (.blocked (label ++ " is outside the canonical byte range"))
    return argument.integerValue

/-- The control byte so far with one more flag. A flag has bits outside the six that the harness
passes on when it is 64 or more. -/
def addFlag (contract : HarnessContract) (control : ℕ) (flag : String) : Except CompileError ℕ :=
  match Dict.get? HarnessFlagSpec.symbol contract.flags flag with
  | none => .error (.blocked "step contains a non-canonical SQE flag")
  | some spec => do
    raiseIf (64 ≤ spec.bitValue) (.blocked "step contains a non-canonical SQE flag")
    return control ||| spec.bitValue

/-- One step, as the body of the compiler's loop translates it. -/
def compileStep (program : PlannerProgram) (contract : HarnessContract) (step : SymbolicStep) :
    Except CompileError NativeOperation :=
  match Dict.get? HarnessOperation.symbol contract.operations step.operation with
  | none => .error (.blocked "program references an unknown operation")
  | some operation => do
    let selector := operation.selectorModulusValue
    raiseIf (contract.operationSelectorModulus ≤ selector)
      (.blocked "operation selector exceeds the contract modulus")
    let expectedNames ← liftCodec (operandNames selector)
    raiseIf (operation.arguments.map HarnessArgumentSpec.name ≠ expectedNames)
      (.blocked "operation arguments differ from the audited parser order")
    let provided := step.arguments.map SymbolicArgument.name
    raiseIf (¬ ((∀ name ∈ provided, name ∈ expectedNames) ∧ ∀ name ∈ expectedNames, name ∈ provided))
      (.blocked "operation arguments do not exactly match the audited grammar")
    operation.arguments.forM fun specification =>
      raiseIf (specification.kind ≠ .integer ∨ specification.byteWidth ≠ 1 ∨
          specification.minimumValue ≠ 0 ∨ specification.maximumValue ≠ 255)
        (.blocked "operation contract contains a non-canonical operand specification")
    let operands ← expectedNames.mapM fun name =>
      integerArgument (Dict.get? SymbolicArgument.name step.arguments name)
        (program.programId ++ "." ++ step.stepId ++ "." ++ name)
    let control ← step.flags.foldlM (addFlag contract) 0
    return { selector := selector, operands := operands, sqeControl := control }

def compileNative (program : PlannerProgram) (contract : HarnessContract) :
    Except CompileError NativeProgram :=
  match Dict.get? HarnessProfile.profileId contract.profiles program.ringProfileId with
  | none => .error (.blocked "program references a non-canonical ring profile")
  | some profile => do
    raiseIf (8 ≤ profile.selectorValue)
      (.blocked "program references a non-canonical ring profile")
    let operations ← program.steps.mapM (compileStep program contract)
    return { ringSelector := profile.selectorValue, operations := operations }

/-- Compile, decode independently and re-encode one validated program. -/
def compileProgram (sha256 : Bytes → String) (program : PlannerProgram)
    (contract : HarnessContract) : Except CompileError CompiledProgram := do
  let compilerStatus := status compilerHash (some contract)
  raiseIf (compilerStatus.enabled = false) (.blocked compilerStatus.reason)
  let native ← compileNative program contract
  let payload ← liftCodec (encodeProgram native contract.targetHashes.harnessHash)
  let decoded ← liftCodec (decodeProgram payload contract.targetHashes.harnessHash)
  raiseIf (decoded ≠ native) (.blocked "independent decoder changed the native program")
  let encoded ← liftCodec (encodeProgram decoded contract.targetHashes.harnessHash)
  raiseIf (encoded ≠ payload) (.blocked "encode-decode-encode byte equality failed")
  raiseIf (contract.inputMaxBytes < payload.length)
    (.blocked "compiled payload exceeds the contract byte limit")
  return {
    programId := program.programId
    payload := payload
    payloadHash := "sha256:" ++ sha256 payload
    operationCount := native.operations.length
    compilerHash := compilerStatus.compilerHash
    harnessHash := contract.targetHashes.harnessHash }

end Compiler

end IouAi.Compiler
