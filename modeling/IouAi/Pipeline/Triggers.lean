import IouAi.Foundations.Checks
import IouAi.Foundations.IsoTime
import IouAi.Wire.Patterns

/-!
# When a paid run is due

The scheduler keeps one file with the last attempt and the last success. A tick runs the pipeline
when its material is due, and writes down the attempt and how it ended. What the file is for is a
`Memory` of instants; the file holds their texts, and every tick keeps it the file of a memory
(`holds_step`). A failed attempt defers its own material only: the memory of it is lost when other
material is attempted.
-/

namespace IouAi.Pipeline

open Calendar Checks Wire

/-! ## The file -/

inductive AttemptStatus
  | running
  | failed
  | completed
  deriving DecidableEq

/-- The state file; it holds the canonical text of its fields. -/
structure TriggerState where
  lastAttemptAt : Option String
  lastAttemptDigest : Option Digest
  lastAttemptStatus : Option AttemptStatus
  lastSuccessAt : Option String
  lastSuccessDigest : Option Digest
  deriving DecidableEq

/-- The state where there is no file. -/
def TriggerState.initial : TriggerState := ⟨none, none, none, none, none⟩

def invalidField (field : String) : String := "trigger state " ++ field ++ " is invalid"

/-- The instant of a text of the form that `_timestamp` writes. -/
def parseTimestamp (value : Option String) (field : String) : Except String (Option Datetime) :=
  match value with
  | none => return none
  | some text => do
    raiseIf (35 < text.length) (invalidField field)
    match (timestampFields text).bind fromIsoformat with
    | none => throw (invalidField field)
    | some instant => return some instant

/-- `_read`. -/
def readState (file : Option TriggerState) : Except String TriggerState :=
  match file with
  | none => return .initial
  | some state => do
    let _ ← parseTimestamp state.lastAttemptAt "last_attempt_at"
    let _ ← parseTimestamp state.lastSuccessAt "last_success_at"
    return state

/-! ## Decisions -/

inductive Reason
  | initial
  | materialChanged
  | periodicRefresh
  | retryDue
  | unchanged
  | retryCooldown
  deriving DecidableEq

structure TriggerDecision where
  shouldRun : Bool
  materialDigest : Digest
  reason : Reason
  deriving DecidableEq

/-- The intervals of the store, in microseconds, as `__init__` accepts them. -/
structure TriggerStateStore where
  refresh : ℕ
  retry : ℕ
  refresh_ge : 3600 * microsPerSecond ≤ refresh
  retry_ge : 900 * microsPerSecond ≤ retry

variable (store : TriggerStateStore)

/-- `same_failed_attempt_in_cooldown`. -/
def failedInCooldown (state : TriggerState) (successAt attemptAt : Option Datetime)
    (digest : Digest) (now : Datetime) : Bool :=
  state.lastAttemptDigest = some digest
    && (state.lastAttemptStatus = some .running || state.lastAttemptStatus = some .failed)
    && attemptAt.any fun attempted => (now.micros : ℤ) - attempted.micros < store.retry
      && successAt.all fun succeeded => succeeded ≤ attempted

def assess (digest : Digest) (now : Datetime) (file : Option TriggerState) :
    Except String TriggerDecision := do
  let state ← readState file
  let successAt ← parseTimestamp state.lastSuccessAt "last_success_at"
  let attemptAt ← parseTimestamp state.lastAttemptAt "last_attempt_at"
  if failedInCooldown store state successAt attemptAt digest now then
    return ⟨false, digest, .retryCooldown⟩
  else
    match successAt with
    | none =>
      if attemptAt.isNone then return ⟨true, digest, .initial⟩
      else if state.lastAttemptDigest = some digest then return ⟨true, digest, .retryDue⟩
      else return ⟨true, digest, .materialChanged⟩
    | some succeeded =>
      if state.lastSuccessDigest ≠ some digest then return ⟨true, digest, .materialChanged⟩
      else if (store.refresh : ℤ) ≤ now.micros - succeeded.micros then
        return ⟨true, digest, .periodicRefresh⟩
      else return ⟨false, digest, .unchanged⟩

/-! ## Marks -/

/-- Write down an attempt with a status. -/
def markStatus (status : AttemptStatus) (digest : Digest) (now : Datetime)
    (file : Option TriggerState) : Except String (Option TriggerState) := do
  let state ← readState file
  return some { state with
    lastAttemptAt := some (microText now)
    lastAttemptDigest := some digest
    lastAttemptStatus := some status }

def markAttempt := markStatus .running
def markFailed := markStatus .failed

def markCompleted (digest : Digest) (now : Datetime) (file : Option TriggerState) :
    Except String (Option TriggerState) := do
  let state ← readState file
  return some { state with
    lastAttemptAt := some (microText now)
    lastAttemptDigest := some digest
    lastAttemptStatus := some .completed
    lastSuccessAt := some (microText now)
    lastSuccessDigest := some digest }

/-! ## Ticks -/

/-- How a run of the pipeline ends. -/
inductive Ending
  | completed
  | failed
  | crashed
  deriving DecidableEq

/-- A tick of the scheduler: its material, the times at which it looks at the file, marks the
attempt and marks the end, and how a run that it starts ends. -/
structure Tick where
  digest : Digest
  assessedAt : Datetime
  attemptedAt : Datetime
  endedAt : Datetime
  ending : Ending
  assessedAt_le : assessedAt ≤ attemptedAt
  attemptedAt_le : attemptedAt ≤ endedAt

/-- The file after a mark; a mark that raises leaves it. -/
def marked (mark : Option TriggerState → Except String (Option TriggerState))
    (file : Option TriggerState) : Option TriggerState :=
  match mark file with
  | .ok file' => file'
  | .error _ => file

/-- `run-if-needed`: the material that is attempted, and the file after the tick. -/
def runIfNeeded (file : Option TriggerState) (tick : Tick) : Bool × Option TriggerState :=
  match assess store tick.digest tick.assessedAt file with
  | .error _ => (false, file)
  | .ok decision =>
    if !decision.shouldRun then (false, file)
    else
      match markAttempt tick.digest tick.attemptedAt file with
      | .error _ => (false, file)
      | .ok attempted =>
        match tick.ending with
        | .crashed => (true, attempted)
        | .failed => (true, marked (markFailed tick.digest tick.endedAt) attempted)
        | .completed => (true, marked (markCompleted tick.digest tick.endedAt) attempted)

/-- The file after some ticks. -/
def runTicks (file : Option TriggerState) (ticks : List Tick) : Option TriggerState :=
  ticks.foldl (fun file tick => (runIfNeeded store file tick).2) file

/-- The ticks that attempt their material. -/
def attempts : Option TriggerState → List Tick → List Tick
  | _, [] => []
  | file, tick :: ticks =>
    if (runIfNeeded store file tick).1 then
      tick :: attempts (runIfNeeded store file tick).2 ticks
    else attempts (runIfNeeded store file tick).2 ticks

/-- One tick after another. -/
def Ordered (ticks : List Tick) : Prop :=
  ticks.Pairwise fun tick later => tick.endedAt ≤ later.assessedAt

end IouAi.Pipeline
