import IouAi.Authority.Artifacts
import IouAi.Foundations.Checks
import IouAi.Wire.Prompts

/-!
# Canary reports

A canary runs one seed in an isolated job and reports what its runner measured. The runner is not
trusted: its output is any text, and every value of it is checked before use (`runCanary`). The
report checks its outcome against its measurements once more, in a validator of its own
(`CanaryReport`), which never rejects what `runCanary` builds (`runCanary_law`).
-/

namespace IouAi.Authority

open Calendar Checks Wire

/-! ## Reports -/

inductive CanaryOutcome
  | passed
  | rejected
  | infrastructureFailure
  deriving DecidableEq

structure CanaryReportFields where
  reportId : Identifier
  startedAt : Timestamp
  finishedAt : Timestamp
  envelopeDigest : Digest
  validationReportDigest : Digest
  artifactManifestDigest : Digest
  artifactDigest : Digest
  targetHashes : TargetHashes
  runnerHash : Digest
  runnerResultDigest : Digest
  outcome : CanaryOutcome
  exactSeedDryRuns : ℤ
  executionsTotal : ℤ
  timeoutSeconds : ℤ
  harnessAccepted : Bool
  infrastructureError : Bool
  runnerExitCode : ℤ
  timedOut : Bool
  signalNumber : ℤ
  fleetSnapshotBefore : Digest
  fleetSnapshotAfter : Digest
  liveFleetTouched : Bool

inductive CanaryReportError
  | fieldInvalid (name : String)
  | timestampsInvalid
  | intervalInvalid
  | outcomeMismatch
  | infrastructureMismatch
  | fleetChanged
  deriving DecidableEq

namespace CanaryReportFields

variable (report : CanaryReportFields)

/-- The bounds of the fields. -/
def checkFields : Except CanaryReportError Unit := do
  raiseIf (¬ (0 ≤ report.exactSeedDryRuns ∧ report.exactSeedDryRuns ≤ 4))
    (.fieldInvalid "exact_seed_dry_runs")
  raiseIf (¬ (0 ≤ report.executionsTotal ∧ report.executionsTotal ≤ 1000000))
    (.fieldInvalid "executions_total")
  raiseIf (¬ (1 ≤ report.timeoutSeconds ∧ report.timeoutSeconds ≤ 120))
    (.fieldInvalid "timeout_seconds")
  raiseIf (¬ (-255 ≤ report.runnerExitCode ∧ report.runnerExitCode ≤ 255))
    (.fieldInvalid "runner_exit_code")
  raiseIf (¬ (0 ≤ report.signalNumber ∧ report.signalNumber ≤ 128))
    (.fieldInvalid "signal_number")
  raiseIf report.liveFleetTouched (.fieldInvalid "live_fleet_touched")

def passed : Bool :=
  1 ≤ report.exactSeedDryRuns
    && report.exactSeedDryRuns ≤ report.executionsTotal
    && report.harnessAccepted
    && !report.infrastructureError
    && report.runnerExitCode = 0
    && !report.timedOut
    && report.signalNumber = 0
    && report.fleetSnapshotBefore = report.fleetSnapshotAfter

/-- The validator of the model. -/
def outcomeMatchesMeasurements : Except CanaryReportError Unit :=
  match instantOf report.startedAt, instantOf report.finishedAt with
  | some started, some finished => do
    raiseIf (finished < started) .intervalInvalid
    raiseIf (decide (report.outcome = .passed) ≠ report.passed) .outcomeMismatch
    raiseIf (decide (report.outcome = .infrastructureFailure) ≠ report.infrastructureError)
      .infrastructureMismatch
    raiseIf (report.liveFleetTouched ∨ report.fleetSnapshotBefore ≠ report.fleetSnapshotAfter)
      .fleetChanged
  | _, _ => .error .timestampsInvalid

def validate : Except CanaryReportError Unit := do
  report.checkFields
  report.outcomeMatchesMeasurements

variable {report}

theorem validate_eq_ok {started finished : Datetime}
    (hstarted : instantOf report.startedAt = some started)
    (hfinished : instantOf report.finishedAt = some finished) (hle : started ≤ finished)
    (hfields : report.checkFields = .ok ())
    (hpassed : report.outcome = .passed ↔ report.passed = true)
    (hinfrastructure :
      report.outcome = .infrastructureFailure ↔ report.infrastructureError = true)
    (htouched : report.liveFleetTouched = false)
    (hfleet : report.fleetSnapshotBefore = report.fleetSnapshotAfter) :
    report.validate = .ok () := by
  have hmatches : report.outcomeMatchesMeasurements = .ok () := by
    rw [outcomeMatchesMeasurements, hstarted, hfinished]
    simp only [bind_eq_ok, raiseIf_eq_ok, exists_const]
    refine ⟨Nat.not_lt.mpr hle, not_not.mpr ?_, not_not.mpr ?_, ?_⟩
    · rw [Bool.eq_iff_iff, decide_eq_true_iff, hpassed]
    · rw [Bool.eq_iff_iff, decide_eq_true_iff, hinfrastructure]
    · simp [htouched, hfleet]
  rw [validate, hfields]
  exact hmatches

end CanaryReportFields

/-- A report that its validator accepts. -/
abbrev CanaryReport := {report : CanaryReportFields // report.validate = .ok ()}

def CanaryReport.create (fields : CanaryReportFields) : Except CanaryReportError CanaryReport :=
  match h : fields.validate with
  | .ok () => .ok ⟨fields, h⟩
  | .error error => .error error

theorem CanaryReport.create_eq_ok {fields : CanaryReportFields} (h : fields.validate = .ok ()) :
    CanaryReport.create fields = .ok ⟨fields, h⟩ := by
  unfold CanaryReport.create
  split
  · rfl
  · rename_i error herror
    rw [h] at herror
    cases herror

theorem CanaryReport.create_eq_ok_iff {fields : CanaryReportFields} {report : CanaryReport} :
    CanaryReport.create fields = .ok report ↔ fields.validate = .ok () ∧ report.val = fields := by
  constructor
  · intro h
    unfold CanaryReport.create at h
    split at h
    · cases h
      exact ⟨‹_›, rfl⟩
    · cases h
  · rintro ⟨hvalid, rfl⟩
    exact CanaryReport.create_eq_ok hvalid

/-! ## Measurements -/

structure RunnerResult where
  stdout : Bytes
  exitCode : ℤ
  timedOut : Bool

/-- The members of an object. -/
abbrev Fields := List (String × Json)

/-- The measurement of a runner that gave none. -/
def infrastructureMeasurement (timedOut : Bool) : Fields :=
  [("executions_total", .num 0), ("harness_accepted", .bool false), ("timed_out", .bool timedOut),
    ("signal_number", .num 0), ("infrastructure_error", .bool true)]

/-- The document of the runner, or a measurement of its failure. The parser raises an error on a
text that is no document. -/
def parseMeasurement (loads : Bytes → Option Json) (result : RunnerResult) : Fields :=
  if result.timedOut then infrastructureMeasurement true
  else
    match loads result.stdout with
    | some (.obj document) => document
    | _ => infrastructureMeasurement false

/-- The value of a field that is an integer between two bounds. A truth value is none. -/
def coerceInt (value : Option Json) (low high : ℤ) : Option {n : ℤ // low ≤ n ∧ n ≤ high} :=
  match value with
  | some (.num n) => if h : low ≤ n ∧ n ≤ high then some ⟨n, h⟩ else none
  | _ => none

def asBool : Option Json → Option Bool
  | some (.bool value) => some value
  | _ => none

structure Measurement where
  executionsTotal : {n : ℤ // 0 ≤ n ∧ n ≤ 1000000}
  signalNumber : {n : ℤ // 0 ≤ n ∧ n ≤ 128}
  harnessAccepted : Bool
  timedOut : Bool
  infrastructureError : Bool

/-- The values of the fields, none when one of them is malformed. -/
def Measurement.read? (measurement : Fields) : Option Measurement := do
  let executionsTotal ← coerceInt (Json.lookup measurement "executions_total") 0 1000000
  let signalNumber ← coerceInt (Json.lookup measurement "signal_number") 0 128
  let harnessAccepted ← asBool (Json.lookup measurement "harness_accepted")
  let timedOut ← asBool (Json.lookup measurement "timed_out")
  let infrastructureError ← asBool (Json.lookup measurement "infrastructure_error")
  return ⟨executionsTotal, signalNumber, harnessAccepted, timedOut, infrastructureError⟩

/-- What stands for a malformed measurement. -/
def Measurement.malformed : Measurement :=
  ⟨⟨0, by decide⟩, ⟨0, by decide⟩, false, false, true⟩

/-! ## The run -/

structure CanaryBinding where
  envelopeDigest : Digest
  validationReportDigest : Digest
  artifactManifestDigest : Digest
  artifactDigest : Digest
  targetHashes : TargetHashes

structure CanaryConfig where
  runnerCommand : List String
  runnerPath : String
  timeoutSeconds : ℤ
  dryRuns : ℤ
  runnerCommand_ne : runnerCommand ≠ []
  timeoutSeconds_mem : 1 ≤ timeoutSeconds ∧ timeoutSeconds ≤ 120
  dryRuns_mem : 1 ≤ dryRuns ∧ dryRuns ≤ 4

/-- What one run sees: the file of the runner, the clock and the fleet before and after, and what the
runner returns for its arguments. -/
structure CanaryWorld where
  readBytes : String → Option Bytes
  started : Datetime
  snapshotBefore : Digest
  runner : List String → RunnerResult
  snapshotAfter : Digest
  finished : Datetime

/-- What the runner returns for the seed. -/
def CanaryWorld.result (world : CanaryWorld) (config : CanaryConfig) (seedPath : String) :
    RunnerResult :=
  world.runner (config.runnerCommand ++ [seedPath])

inductive CanaryRunError
  | runnerUnavailable
  | fleetDisturbed
  deriving DecidableEq

inductive CanaryError
  | canaryRun (error : CanaryRunError)
  | validation (error : CanaryReportError)
  deriving DecidableEq

section Run

variable (sha256 : Sha256)

def runnerHash (contents : Option Bytes) : Except CanaryError Digest :=
  match contents with
  | some program => .ok (contentDigest sha256 program)
  | none => .error (.canaryRun .runnerUnavailable)

/-- `json.dumps(measurement, sort_keys=True)` of an object of numbers and truth values. -/
def dumps (measurement : Fields) : String :=
  "\x7b" ++ ", ".intercalate ((Json.python.sortKeys (measurement.map Prod.fst)).map fun key =>
    Json.python.quote key ++ ": "
      ++ ((Json.lookup measurement key).map Json.python.encode).getD "") ++ "\x7d"

/-- The digest of what the runner wrote. Only an empty output, which is no document, is replaced by
the measurement. -/
def runnerResultDigest (result : RunnerResult) (measurement : Fields) : Digest :=
  contentDigest sha256 (if result.stdout = [] then utf8 (dumps measurement) else result.stdout)

theorem isIdentifierChar_hexText (bytes : Bytes) (n : ℕ) :
    ((hexText bytes).toList.take n).all isIdentifierChar = true := by
  rw [List.all_eq_true]
  intro c hc
  exact isIdentifierChar_of_isHexDigit
    (List.all_eq_true.mp (all_isHexDigit_hexText bytes) c (List.mem_of_mem_take hc))

def canaryId (resultDigest artifactDigest : Digest) : Identifier :=
  ⟨"canary-" ++ String.ofList
      ((hexText (sha256 (utf8 (resultDigest.val ++ artifactDigest.val))).toList).toList.take 24), by
    refine isIdentifier_append (by decide) ?_ ?_
    · rw [String.toList_ofList]
      exact isIdentifierChar_hexText _ _
    · have htag : "canary-".toList.length = 7 := rfl
      have htake := List.length_take_le 24
        (hexText (sha256 (utf8 (resultDigest.val ++ artifactDigest.val))).toList).toList
      rw [← String.toList_ofList (l := List.take _ _)] at htake
      exact (Nat.add_le_add htag.le htake).trans (by decide)⟩

def passedOf (config : CanaryConfig) (exitCode : ℤ) (measured : Measurement) : Bool :=
  1 ≤ config.dryRuns
    && config.dryRuns ≤ measured.executionsTotal
    && measured.harnessAccepted
    && !measured.infrastructureError
    && exitCode = 0
    && !measured.timedOut
    && measured.signalNumber.val = 0

def outcomeOf (config : CanaryConfig) (exitCode : ℤ) (measured : Measurement) : CanaryOutcome :=
  if measured.infrastructureError then .infrastructureFailure
  else if passedOf config exitCode measured then .passed
  else .rejected

/-- The fields of the report. -/
def reportFields (binding : CanaryBinding) (config : CanaryConfig) (world : CanaryWorld)
    (runnerHash resultDigest : Digest) (exitCode : ℤ) (measured : Measurement) :
    CanaryReportFields where
  reportId := canaryId sha256 resultDigest binding.artifactDigest
  startedAt := timestamp world.started
  finishedAt := timestamp world.finished
  envelopeDigest := binding.envelopeDigest
  validationReportDigest := binding.validationReportDigest
  artifactManifestDigest := binding.artifactManifestDigest
  artifactDigest := binding.artifactDigest
  targetHashes := binding.targetHashes
  runnerHash := runnerHash
  runnerResultDigest := resultDigest
  outcome := outcomeOf config exitCode measured
  exactSeedDryRuns := config.dryRuns
  executionsTotal := measured.executionsTotal
  timeoutSeconds := config.timeoutSeconds
  harnessAccepted := measured.harnessAccepted
  infrastructureError := measured.infrastructureError
  runnerExitCode := max (-255) (min 255 exitCode)
  timedOut := measured.timedOut
  signalNumber := measured.signalNumber
  fleetSnapshotBefore := world.snapshotBefore
  fleetSnapshotAfter := world.snapshotAfter
  liveFleetTouched := false

/-- Run one isolated canary and build its report. -/
def runCanary (loads : Bytes → Option Json) (binding : CanaryBinding) (config : CanaryConfig)
    (seedPath : String) (world : CanaryWorld) : Except CanaryError CanaryReport := do
  let programHash ← runnerHash sha256 (world.readBytes config.runnerPath)
  let result := world.result config seedPath
  let measurement := parseMeasurement loads result
  let resultDigest := runnerResultDigest sha256 result measurement
  let measured := (Measurement.read? measurement).getD .malformed
  raiseIf (world.snapshotBefore ≠ world.snapshotAfter) (.canaryRun .fleetDisturbed)
  (CanaryReport.create (reportFields sha256 binding config world programHash resultDigest
    result.exitCode measured)).mapError .validation

end Run

/-! ## What the outcome says -/

/-- A document gives a measurement: it is an object, and each of the five fields has its type and
its range. -/
structure Measures (document : Json) (measured : Measurement) : Prop where
  executionsTotal :
    document.field? "executions_total" = some (.num measured.executionsTotal)
  signalNumber : document.field? "signal_number" = some (.num measured.signalNumber)
  harnessAccepted : document.field? "harness_accepted" = some (.bool measured.harnessAccepted)
  timedOut : document.field? "timed_out" = some (.bool measured.timedOut)
  infrastructureError :
    document.field? "infrastructure_error" = some (.bool measured.infrastructureError)

/-- The output of the runner is a document that gives a measurement. -/
def Gives (loads : Bytes → Option Json) (result : RunnerResult) (measured : Measurement) : Prop :=
  ∃ document, loads result.stdout = some document ∧ Measures document measured

/-- The runner wrote a measurement in time. -/
def Writes (loads : Bytes → Option Json) (result : RunnerResult) (measured : Measurement) : Prop :=
  result.timedOut = false ∧ Gives loads result measured

/-- The seed ran as often as it was asked to, and nothing went wrong. -/
def Passes (loads : Bytes → Option Json) (config : CanaryConfig) (result : RunnerResult) : Prop :=
  ∃ measured, Writes loads result measured ∧ config.dryRuns ≤ measured.executionsTotal ∧
    measured.harnessAccepted = true ∧ measured.infrastructureError = false ∧
    measured.timedOut = false ∧ measured.signalNumber.val = 0 ∧ result.exitCode = 0

/-- The runner ran out of time, its output is malformed, or it reported a failure of its own. -/
def InfrastructureFails (loads : Bytes → Option Json) (result : RunnerResult) : Prop :=
  result.timedOut = true ∨ (∀ measured, ¬ Gives loads result measured) ∨
    ∃ measured, Gives loads result measured ∧ measured.infrastructureError = true

theorem coerceInt_eq_some {value : Option Json} {low high : ℤ}
    {n : {n : ℤ // low ≤ n ∧ n ≤ high}} :
    coerceInt value low high = some n ↔ value = some (.num n) := by
  constructor
  · intro h
    unfold coerceInt at h
    split at h
    · split_ifs at h
      cases h
      rfl
    · cases h
  · rintro rfl
    exact dif_pos n.2

theorem asBool_eq_some {value : Option Json} {flag : Bool} :
    asBool value = some flag ↔ value = some (.bool flag) := by
  constructor
  · intro h
    unfold asBool at h
    split at h
    · cases h
      rfl
    · cases h
  · rintro rfl
    rfl

/-- The fields are read as the measurement that the object gives. -/
theorem read?_eq_some_iff {document : Fields} {measured : Measurement} :
    Measurement.read? document = some measured ↔ Measures (.obj document) measured := by
  simp only [Measurement.read?, Option.bind_eq_bind, Option.bind_eq_some_iff, coerceInt_eq_some,
    asBool_eq_some, Option.pure_def, Option.some.injEq]
  constructor
  · rintro ⟨executionsTotal, h₁, signalNumber, h₂, harnessAccepted, h₃, timedOut, h₄,
      infrastructureError, h₅, rfl⟩
    exact ⟨h₁, h₂, h₃, h₄, h₅⟩
  · rintro ⟨h₁, h₂, h₃, h₄, h₅⟩
    exact ⟨_, h₁, _, h₂, _, h₃, _, h₄, _, h₅, rfl⟩

section Outcome

variable {sha256 : Sha256} {loads : Bytes → Option Json} {binding : CanaryBinding}
  {config : CanaryConfig} {seedPath : String} {world : CanaryWorld} {result : RunnerResult}
  {measured : Measurement} {program : Bytes}

/-- What `runCanary` goes on with. -/
def measuredOf (loads : Bytes → Option Json) (result : RunnerResult) : Measurement :=
  (Measurement.read? (parseMeasurement loads result)).getD .malformed

theorem read?_infrastructureMeasurement (timedOut : Bool) :
    Measurement.read? (infrastructureMeasurement timedOut)
      = some ⟨⟨0, by decide⟩, ⟨0, by decide⟩, false, timedOut, true⟩ := by
  rw [read?_eq_some_iff]
  exact ⟨rfl, rfl, rfl, rfl, rfl⟩

theorem Writes.read? (h : Writes loads result measured) :
    Measurement.read? (parseMeasurement loads result) = some measured := by
  obtain ⟨htimedOut, document, hloads, hmeasures⟩ := h
  cases document with
  | obj document =>
    rw [parseMeasurement, htimedOut, hloads]
    exact read?_eq_some_iff.mpr hmeasures
  | _ => cases hmeasures.executionsTotal

theorem Writes.measuredOf_eq (h : Writes loads result measured) :
    measuredOf loads result = measured := by
  rw [measuredOf, h.read?]
  rfl

theorem Writes.unique {other : Measurement} (h : Writes loads result measured)
    (h' : Writes loads result other) : measured = other :=
  h.measuredOf_eq.symm.trans h'.measuredOf_eq

/-- A measurement that nobody wrote says that the infrastructure failed. -/
theorem infrastructureError_of_not_writes (h : ∀ measured, ¬ Writes loads result measured) :
    (measuredOf loads result).infrastructureError = true := by
  unfold measuredOf
  cases hread : Measurement.read? (parseMeasurement loads result) with
  | none => rfl
  | some measured =>
    rw [Option.getD_some]
    unfold parseMeasurement at hread
    split at hread
    · rw [read?_infrastructureMeasurement, Option.some.injEq] at hread
      rw [← hread]
    · rename_i htimedOut
      split at hread
      · rename_i document hloads
        exact absurd ⟨by simpa using htimedOut, _, hloads, read?_eq_some_iff.mp hread⟩ (h measured)
      · rw [read?_infrastructureMeasurement, Option.some.injEq] at hread
        rw [← hread]

theorem infrastructureError_measuredOf :
    (measuredOf loads result).infrastructureError = true ↔ InfrastructureFails loads result := by
  cases htimedOut : result.timedOut with
  | true =>
    have hnone : ∀ measured, ¬ Writes loads result measured := fun measured hwrites => by
      rw [hwrites.1] at htimedOut
      cases htimedOut
    exact iff_of_true (infrastructureError_of_not_writes hnone) (.inl htimedOut)
  | false =>
    constructor
    · intro h
      by_cases hgives : ∃ measured, Gives loads result measured
      · obtain ⟨measured, hgives⟩ := hgives
        have hwrites : Writes loads result measured := ⟨htimedOut, hgives⟩
        exact .inr (.inr ⟨measured, hgives, hwrites.measuredOf_eq ▸ h⟩)
      · exact .inr (.inl (not_exists.mp hgives))
    · rintro (h | hnone | ⟨measured, hgives, h⟩)
      · rw [htimedOut] at h
        cases h
      · exact infrastructureError_of_not_writes fun measured hwrites => hnone measured hwrites.2
      · have hwrites : Writes loads result measured := ⟨htimedOut, hgives⟩
        rwa [hwrites.measuredOf_eq]

theorem passedOf_iff {exitCode : ℤ} : passedOf config exitCode measured = true ↔
    config.dryRuns ≤ measured.executionsTotal ∧ measured.harnessAccepted = true ∧
      measured.infrastructureError = false ∧ measured.timedOut = false ∧
      measured.signalNumber.val = 0 ∧ exitCode = 0 := by
  have hdryRuns := config.dryRuns_mem.1
  simp only [passedOf, Bool.and_eq_true, decide_eq_true_eq, Bool.not_eq_true']
  tauto

theorem passedOf_measuredOf :
    passedOf config result.exitCode (measuredOf loads result) = true ↔
      Passes loads config result := by
  rw [passedOf_iff]
  constructor
  · intro h
    by_cases hwrites : ∃ measured, Writes loads result measured
    · obtain ⟨measured, hwrites⟩ := hwrites
      rw [hwrites.measuredOf_eq] at h
      exact ⟨measured, hwrites, h⟩
    · have herror := infrastructureError_of_not_writes (not_exists.mp hwrites)
      rw [h.2.2.1] at herror
      cases herror
  · rintro ⟨measured, hwrites, h⟩
    rwa [hwrites.measuredOf_eq]

theorem outcomeOf_eq_infrastructureFailure {exitCode : ℤ} :
    outcomeOf config exitCode measured = .infrastructureFailure ↔
      measured.infrastructureError = true := by
  unfold outcomeOf
  split_ifs with herror hpassed <;> simp_all

theorem outcomeOf_eq_passed {exitCode : ℤ} :
    outcomeOf config exitCode measured = .passed ↔ passedOf config exitCode measured = true := by
  unfold outcomeOf
  split_ifs with herror hpassed
  · simp [passedOf, herror]
  · simp [hpassed]
  · simp [hpassed]

/-- The clamped exit code is zero exactly when the exit code is. -/
theorem clamp_eq_zero_iff (exitCode : ℤ) : max (-255) (min 255 exitCode) = 0 ↔ exitCode = 0 := by
  omega

/-- The validator accepts the report of a run that left the fleet alone, unless its clock went
back. -/
theorem validate_reportFields (hclock : world.started.floorSecond ≤ world.finished.floorSecond)
    (hfleet : world.snapshotBefore = world.snapshotAfter) (programHash resultDigest : Digest)
    (exitCode : ℤ) (measured : Measurement) :
    (reportFields sha256 binding config world programHash resultDigest exitCode measured).validate
      = .ok () := by
  have hdryRuns := config.dryRuns_mem
  refine CanaryReportFields.validate_eq_ok (instantOf_timestamp _) (instantOf_timestamp _) hclock ?_ ?_
    outcomeOf_eq_infrastructureFailure rfl hfleet
  · simp only [CanaryReportFields.checkFields, bind_eq_ok, raiseIf_eq_ok, exists_const]
    refine ⟨not_not.mpr ⟨zero_le_one.trans hdryRuns.1, hdryRuns.2⟩,
      not_not.mpr measured.executionsTotal.2, not_not.mpr config.timeoutSeconds_mem,
      not_not.mpr ?_, not_not.mpr measured.signalNumber.2, Bool.false_ne_true⟩
    change -255 ≤ max (-255) (min 255 exitCode) ∧ max (-255) (min 255 exitCode) ≤ 255
    omega
  · have hpassed : (reportFields sha256 binding config world programHash resultDigest exitCode
        measured).passed = passedOf config exitCode measured := by
      simp only [CanaryReportFields.passed, reportFields, passedOf, clamp_eq_zero_iff, hfleet,
        decide_true, Bool.and_true]
    rw [hpassed]
    exact outcomeOf_eq_passed

/-- A report whose interval is empty is refused. -/
theorem floorSecond_le_of_validate {programHash resultDigest : Digest} {exitCode : ℤ}
    (h : (reportFields sha256 binding config world programHash resultDigest exitCode
      measured).validate = .ok ()) : world.started.floorSecond ≤ world.finished.floorSecond := by
  obtain ⟨-, -, h⟩ := bind_eq_ok.mp h
  have hstarted : instantOf (reportFields sha256 binding config world programHash resultDigest
      exitCode measured).startedAt = some world.started.floorSecond := instantOf_timestamp _
  have hfinished : instantOf (reportFields sha256 binding config world programHash resultDigest
      exitCode measured).finishedAt = some world.finished.floorSecond := instantOf_timestamp _
  rw [CanaryReportFields.outcomeMatchesMeasurements, hstarted, hfinished] at h
  exact Nat.not_lt.mp (raiseIf_bind_eq_ok.mp h).1

theorem floorSecond_mono {instant later : Datetime} (h : instant ≤ later) :
    instant.floorSecond ≤ later.floorSecond :=
  Nat.mul_le_mul_right _ (Nat.div_le_div_right h)

theorem runCanary_unavailable (hrunner : world.readBytes config.runnerPath = none) :
    runCanary sha256 loads binding config seedPath world
      = .error (.canaryRun .runnerUnavailable) := by
  rw [runCanary, hrunner]
  rfl

section

variable (hrunner : world.readBytes config.runnerPath = some program)
include hrunner

theorem runCanary_disturbed (hfleet : world.snapshotBefore ≠ world.snapshotAfter) :
    runCanary sha256 loads binding config seedPath world = .error (.canaryRun .fleetDisturbed) := by
  rw [runCanary, hrunner]
  change (raiseIf _ _ >>= fun _ => _) = _
  rw [raiseIf, if_pos hfleet]
  rfl

variable (sha256 loads binding seedPath) in
/-- What is left of a run that left the fleet alone. -/
theorem runCanary_of_fleet (hfleet : world.snapshotBefore = world.snapshotAfter) :
    ∃ resultDigest, runCanary sha256 loads binding config seedPath world
      = (CanaryReport.create (reportFields sha256 binding config world
          (contentDigest sha256 program) resultDigest (world.result config seedPath).exitCode
          (measuredOf loads (world.result config seedPath)))).mapError .validation := by
  rw [runCanary, hrunner]
  change ∃ _, (raiseIf _ _ >>= fun _ => _) = _
  rw [raiseIf_bind_of_not (not_not.mpr hfleet)]
  exact ⟨_, rfl⟩

variable (sha256 loads binding seedPath) in
theorem runCanary_eq_ok (hclock : world.started.floorSecond ≤ world.finished.floorSecond)
    (hfleet : world.snapshotBefore = world.snapshotAfter) :
    ∃ report : CanaryReport, runCanary sha256 loads binding config seedPath world = .ok report ∧
      ∃ resultDigest, report.val = reportFields sha256 binding config world
        (contentDigest sha256 program) resultDigest (world.result config seedPath).exitCode
        (measuredOf loads (world.result config seedPath)) := by
  obtain ⟨resultDigest, hrun⟩ := runCanary_of_fleet sha256 loads binding seedPath hrunner hfleet
  rw [hrun, CanaryReport.create_eq_ok (validate_reportFields hclock hfleet _ _ _ _)]
  exact ⟨_, rfl, _, rfl⟩

end

theorem runCanary_eq_fleetDisturbed :
    runCanary sha256 loads binding config seedPath world = .error (.canaryRun .fleetDisturbed)
      ↔ (∃ program, world.readBytes config.runnerPath = some program) ∧
        world.snapshotBefore ≠ world.snapshotAfter := by
  constructor
  · intro h
    cases hrunner : world.readBytes config.runnerPath with
    | none =>
      rw [runCanary_unavailable hrunner] at h
      cases h
    | some program =>
      refine ⟨⟨program, rfl⟩, fun hfleet => ?_⟩
      obtain ⟨resultDigest, hrun⟩ :=
        runCanary_of_fleet sha256 loads binding seedPath hrunner hfleet
      rw [hrun] at h
      cases hcreate : CanaryReport.create (reportFields sha256 binding config world
        (contentDigest sha256 program) resultDigest (world.result config seedPath).exitCode
        (measuredOf loads (world.result config seedPath))) <;> rw [hcreate] at h <;> cases h
  · rintro ⟨⟨program, hrunner⟩, hfleet⟩
    exact runCanary_disturbed hrunner hfleet

section

variable (hrunner : world.readBytes config.runnerPath = some program)
include hrunner

/-- **Canary runs.** A run whose runner was found is refused exactly when the fleet changed.
Otherwise it ends with a report that the validator accepts, which is a pass exactly when the runner
wrote a clean measurement, and an infrastructure failure exactly when it wrote none in time or said
so. -/
theorem runCanary_law (hclock : world.started ≤ world.finished) :
    ((∃ error, runCanary sha256 loads binding config seedPath world = .error (.canaryRun error)) ↔
        world.snapshotBefore ≠ world.snapshotAfter) ∧
      (world.snapshotBefore = world.snapshotAfter → ∃ report : CanaryReport,
        runCanary sha256 loads binding config seedPath world = .ok report ∧
        (report.val.outcome = .passed ↔ Passes loads config (world.result config seedPath)) ∧
        (report.val.outcome = .infrastructureFailure ↔
          InfrastructureFails loads (world.result config seedPath))) := by
  refine ⟨⟨?_, fun hfleet => ⟨_, runCanary_disturbed hrunner hfleet⟩⟩, ?_⟩
  · rintro ⟨error, herror⟩ hfleet
    obtain ⟨report, hreport, -⟩ :=
      runCanary_eq_ok sha256 loads binding seedPath hrunner (floorSecond_mono hclock) hfleet
    rw [hreport] at herror
    cases herror
  · intro hfleet
    obtain ⟨report, hreport, _, hfields⟩ :=
      runCanary_eq_ok sha256 loads binding seedPath hrunner (floorSecond_mono hclock) hfleet
    refine ⟨report, hreport, ?_, ?_⟩
    · rw [hfields]
      exact outcomeOf_eq_passed.trans passedOf_measuredOf
    · rw [hfields]
      exact outcomeOf_eq_infrastructureFailure.trans infrastructureError_measuredOf

end

end Outcome

/-! ## A clean run -/

/-- A fleet of one digest, and a runner that reports four clean executions. -/
def cleanDigest : Digest := contentDigest (fun _ => Vector.replicate 32 1) []

def cleanMeasurement : Measurement := ⟨⟨4, by decide⟩, ⟨0, by decide⟩, true, false, false⟩

def cleanDocument : Fields :=
  [("executions_total", .num 4), ("harness_accepted", .bool true), ("infrastructure_error",
    .bool false), ("signal_number", .num 0), ("timed_out", .bool false)]

def cleanOutput : Bytes := utf8 (dumps cleanDocument)

def cleanLoads (text : Bytes) : Option Json :=
  if text = cleanOutput then some (.obj cleanDocument) else none

def cleanWorld : CanaryWorld where
  readBytes _ := some []
  started := ⟨0, by decide⟩
  snapshotBefore := cleanDigest
  runner _ := ⟨cleanOutput, 0, false⟩
  snapshotAfter := cleanDigest
  finished := ⟨microsPerSecond, by decide⟩

def cleanConfig : CanaryConfig where
  runnerCommand := ["nyx-canary"]
  runnerPath := "nyx-canary"
  timeoutSeconds := 30
  dryRuns := 4
  runnerCommand_ne := by decide
  timeoutSeconds_mem := by decide
  dryRuns_mem := by decide

def cleanBinding : CanaryBinding where
  envelopeDigest := cleanDigest
  validationReportDigest := cleanDigest
  artifactManifestDigest := cleanDigest
  artifactDigest := cleanDigest
  targetHashes := ⟨cleanDigest, cleanDigest, cleanDigest, cleanDigest⟩

theorem cleanOutput_passes : Passes cleanLoads cleanConfig ⟨cleanOutput, 0, false⟩ :=
  ⟨cleanMeasurement, ⟨rfl, .obj cleanDocument, if_pos rfl, ⟨rfl, rfl, rfl, rfl, rfl⟩⟩,
    by decide, rfl, rfl, rfl, rfl, rfl⟩

/-- A clean run passes. -/
theorem runCanary_clean : ∃ report : CanaryReport,
    runCanary (fun _ => Vector.replicate 32 1) cleanLoads cleanBinding cleanConfig "seed" cleanWorld
      = .ok report ∧ report.val.outcome = .passed := by
  have hclock : cleanWorld.started ≤ cleanWorld.finished := by decide
  have hrunner : cleanWorld.readBytes cleanConfig.runnerPath = some [] := rfl
  obtain ⟨report, hreport, hpassed, -⟩ := (runCanary_law hrunner hclock).2 rfl
  exact ⟨report, hreport, hpassed.mpr cleanOutput_passes⟩

end IouAi.Authority
