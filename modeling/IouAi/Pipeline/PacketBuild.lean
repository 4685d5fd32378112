import IouAi.Contract.Build
import IouAi.Contract.Validation
import IouAi.Foundations.Statistics
import IouAi.Pipeline.Packet

/-!
# Building a packet

`build_packet` aggregates the statistics of the workers and what the state file holds of the run
before it to a packet, and replaces the state file when the packet is accepted. Of inputs that are
valid each by itself, a packet with a window in order comes out exactly when no more workers run
than are expected and the run before is not in the future (`builds_iff`).
-/

namespace IouAi.Telemetry

open Calendar Checks Compiler Feedback Models Statistics Validator Wire

/-! ## Statistics of workers -/

inductive IntegerKey
  | startTime
  | lastUpdate
  | runTime
  | execsDone
  | corpusCount
  | pathsTotal
  | corpusFavored
  | pendingTotal
  | savedCrashes
  | savedHangs
  | totalTmouts
  | edgesFound
  | cyclesWoFinds
  deriving DecidableEq

inductive FloatKey
  | execsPerSec
  | stability
  | bitmapCvg
  deriving DecidableEq

/-- The numbers of a statistics file. The parser takes at most forty characters for a number, and
demands three of them. -/
structure WorkerStats where
  integers : IntegerKey → Option ℤ
  floats : FloatKey → Option ℚ
  integers_lt : ∀ key, ∀ value ∈ integers key, value < 10 ^ 40
  required : (integers .lastUpdate).isSome ∧ (integers .execsDone).isSome
    ∧ (floats .execsPerSec).isSome

/-- A worker: the number that names its directory, and its statistics. -/
structure Worker where
  number : ℕ
  stats : WorkerStats

/-- `_int`: the first number of the names, none of them below zero. -/
def intStat (worker : Worker) (names : List IntegerKey) : ℤ :=
  (names.findSome? worker.stats.integers).elim 0 fun value => max value 0

/-- `_float`. -/
def floatStat (worker : Worker) (name : FloatKey) : ℚ :=
  max ((worker.stats.floats name).getD 0) 0

/-- `max` with zero for no values. -/
def maxOf (values : List ℤ) : ℤ := values.foldr max 0

def maxStat (workers : List Worker) (names : List IntegerKey) : ℤ :=
  maxOf (workers.map fun worker => intStat worker names)

def sumStat (workers : List Worker) (name : IntegerKey) : ℤ :=
  (workers.map fun worker => intStat worker [name]).sum

/-- `round(sum(…) * 1000)` of the executions per second. -/
def executionsPerSecondMilli (workers : List Worker) : ℤ :=
  roundHalfEven ((workers.map fun worker => floatStat worker .execsPerSec).sum * 1000)

/-- `_lane_summary`, with the new paths that the builder fills in. -/
def laneSummary (lane : LaneKind) (workers : List Worker) (pathsNewInWindow : ℤ) : LaneSummary :=
  let stability := workers.map fun worker => floatStat worker .stability
  let medianStability := if stability = [] then 0 else median stability
  { lane := lane
    workersRunning := workers.length
    executionsTotal := sumStat workers .execsDone
    executionsPerSecondMilli := executionsPerSecondMilli workers
    queueEntries := maxStat workers [.corpusCount, .pathsTotal]
    pathsNewInWindow := pathsNewInWindow
    novelOutcomesInWindow := 0
    timeoutCount := maxStat workers [.savedHangs, .totalTmouts]
    instabilityPpm := roundHalfEven (max 0 (100 - medianStability) * 10000) }

/-! ## The clock -/

/-- The microseconds of the calendar before 1970. -/
def unixEpochMicros : ℤ := 62135596800 * 1000000

/-- `timestamp()` in microseconds. -/
def unixMicros (now : Datetime) : ℤ := now.micros - unixEpochMicros

/-- `int(timestamp())`. -/
def unixSeconds (now : Datetime) : ℤ := (unixMicros now).tdiv 1000000

/-- `datetime.fromtimestamp` in UTC. -/
def fromTimestamp (seconds : ℤ) : Option Datetime :=
  if h : 0 ≤ seconds * 1000000 + unixEpochMicros
      ∧ seconds * 1000000 + unixEpochMicros < (calendarDays * microsPerDay : ℕ) then
    some ⟨(seconds * 1000000 + unixEpochMicros).toNat, by omega⟩
  else none

/-- `strftime("%Y%m%dt%H%M%Sz")` after the prefix. -/
def packetIdOf (now : Datetime) : String :=
  "packet:" ++ String.ofList (fourDigits now.date.year ++ (twoDigits now.date.month
    ++ (twoDigits now.date.day ++ 't' :: (twoDigits now.hour ++ (twoDigits now.minute
      ++ (twoDigits now.second ++ ['z']))))))

/-! ## The state file -/

/-- What a run writes. -/
structure TelemetryState where
  edges : ℤ
  paths : ℤ
  generatedEpoch : ℤ
  latestWorkerUpdate : ℤ
  deriving DecidableEq

/-- What a run reads. -/
structure PreviousState where
  edges : Option ℤ
  paths : Option ℤ
  generatedEpoch : Option ℤ
  deriving DecidableEq

/-- `_read_state`: numbers below zero are passed over. -/
def readTelemetryState (file : Option TelemetryState) : PreviousState :=
  match file with
  | none => ⟨none, none, none⟩
  | some state =>
    let accepted (value : ℤ) : Option ℤ := if 0 ≤ value then some value else none
    ⟨accepted state.edges, accepted state.paths, accepted state.generatedEpoch⟩

/-! ## A packet -/

inductive TelemetryError
  | noWorkers
  | corpusProfile
  | tooMuchEvidence
  | startTime
  | feedback
  | invalidPacket
  deriving DecidableEq

/-- What `build_packet` is given, with the files that it reads: the profile of the corpus and the
outcomes of earlier proposals as they are loaded. -/
structure BuildInput where
  workers : List Worker
  contract : HarnessContract
  kernelRelease : String
  fleetId : String
  campaignId : String
  expectedWorkers : ℤ
  nativeWorkers : ℤ
  now : Datetime
  extraEvidence : List EvidenceSummary
  corpusProfile : Except TelemetryError (Option EvidenceSummary)
  feedback : Except TelemetryError (List PriorProposalOutcome)

/-- `strip()[:80]`. -/
def cutKernelRelease (text : String) : String :=
  String.ofList (((text.toList.dropWhile Budget.isSpace).reverse.dropWhile
    Budget.isSpace).reverse.take 80)

namespace BuildInput

variable (input : BuildInput)

/-- The workers with statistics that are not older than twenty minutes. -/
def running : ℤ :=
  (input.workers.countP fun worker => unixMicros input.now - intStat worker [.lastUpdate] * 1000000
    ≤ 20 * 60 * 1000000 : ℕ)

def native : List Worker :=
  input.workers.filter fun worker => (worker.number : ℤ) < input.nativeWorkers

def kasan : List Worker :=
  input.workers.filter fun worker => input.nativeWorkers ≤ worker.number

def paths : ℤ := maxStat input.workers [.corpusCount, .pathsTotal]

def edges : ℤ := maxStat input.workers [.edgesFound]

/-- What is new since the run before; nothing where it is not known. -/
def newSince (current : ℤ) (previous : Option ℤ) : ℤ := max 0 (current - previous.getD current)

def ownEvidence (previous : PreviousState) : List EvidenceSummary :=
  [{ evidenceRef := "evidence:fleet-coverage-window"
     kind := .coverageDelta
     summary := "The fleet recorded " ++ toString (newSince input.edges previous.edges)
      ++ " new aggregate edge identifiers since the previous sanitized snapshot."
     observationCount := max input.workers.length 1 },
    { evidenceRef := "evidence:fleet-stall-window"
      kind := .stallSignal
      summary := "The largest worker cycles-without-finds counter is "
        ++ toString (maxStat input.workers [.cyclesWoFinds]) ++ "."
      observationCount := max input.workers.length 1 },
    { evidenceRef := "evidence:fleet-corpus-shape"
      kind := .corpusShape
      summary := "The largest synchronized worker corpus count is " ++ toString input.paths
        ++ "; counts are not summed across synchronized workers."
      observationCount := max input.workers.length 1 }]

/-- The time of the run before, or an hour before the clock. -/
def priorEpoch (previous : PreviousState) : ℤ :=
  previous.generatedEpoch.getD (unixSeconds input.now - 3600)

/-- The values of the packet, with the hash left open. -/
def packetData (previous : PreviousState) (start : Datetime) (evidence : List EvidenceSummary)
    (outcomes : List PriorProposalOutcome) (packetHash : String) : PacketData :=
  let executions := sumStat input.workers .execsDone
  let crashes := maxStat input.workers [.savedCrashes]
  let hangs := maxStat input.workers [.savedHangs]
  let pathsNew := newSince input.paths previous.paths
  { packetId := packetIdOf input.now
    packetHash := packetHash
    generatedAt := microText input.now
    fleetId := input.fleetId
    campaignId := input.campaignId
    kernelRelease := cutKernelRelease input.kernelRelease
    targetHashes := input.contract.targetHashes
    window :=
      { startAt := microText start
        endAt := microText input.now
        durationSeconds := max 1 (unixSeconds input.now - input.priorEpoch previous) }
    fleet :=
      { workersExpected := input.expectedWorkers
        workersRunning := input.running
        workersStalled := max 0 (input.expectedWorkers - input.running)
        executionsTotal := executions
        executionsPerSecondMilli := executionsPerSecondMilli input.workers
        queueEntries := input.paths
        favoredEntries := maxStat input.workers [.corpusFavored]
        pendingEntries := maxStat input.workers [.pendingTotal] }
    coverage :=
      { pathsTotal := input.paths
        pathsNewInWindow := pathsNew
        edgesTotal := input.edges
        edgesNewInWindow := newSince input.edges previous.edges
        bitmapDensityPpm := roundHalfEven (min (median (input.workers.map fun worker =>
          floatStat worker .bitmapCvg)) 100 * 10000)
        corpusBytesTotal := 0
        corpusEntryBytesP50 := 0
        corpusEntryBytesP95 := 0 }
    laneSummaries := [laneSummary .stableCoverage input.native pathsNew,
      laneSummary .probabilisticRace input.kasan 0]
    outcomeClasses := [⟨"normal_completion", max 0 (executions - crashes - hangs), 0⟩,
      ⟨"saved_crash", crashes, 0⟩, ⟨"saved_hang", hangs, 0⟩]
    evidence := evidence
    priorProposalOutcomes := outcomes
    redactionVersion := "redaction:v1" }

/-- The values of the packet under the hash of all the rest of it. -/
def hashedData (sha256 : Sha256) (previous : PreviousState) (start : Datetime)
    (evidence : List EvidenceSummary) (outcomes : List PriorProposalOutcome) : PacketData :=
  let data := input.packetData previous start evidence outcomes
  let unhashed := data ("sha256:" ++ String.ofList (List.replicate 64 '0'))
  data (jsonDigest sha256 (.obj unhashed.hashMaterial))

end BuildInput

/-- `model_validate_json`. -/
def validatePacket (data : PacketData) : Except TelemetryError TelemetryPacket :=
  if h : data.Valid then .ok ⟨data, h⟩ else .error .invalidPacket

section Build

variable (sha256 : Sha256) (input : BuildInput)

/-- The packet that a run builds. -/
def packetOf (file : Option TelemetryState) : Except TelemetryError TelemetryPacket := do
  raiseIf (input.workers = []) .noWorkers
  let previous := readTelemetryState file
  let profile ← input.corpusProfile
  let evidence := input.ownEvidence previous ++ (profile.toList ++ input.extraEvidence)
  raiseIf (24 < evidence.length) .tooMuchEvidence
  match fromTimestamp (input.priorEpoch previous) with
  | none => throw .startTime
  | some start =>
    let outcomes ← input.feedback
    validatePacket (input.hashedData sha256 previous start evidence outcomes)

/-- `build_packet`: the result of a run and the state file after it. -/
def buildPacket (file : Option TelemetryState) :
    Except TelemetryError TelemetryPacket × Option TelemetryState :=
  match packetOf sha256 input file with
  | .error error => (.error error, file)
  | .ok packet =>
    (.ok packet, some ⟨input.edges, input.paths, unixSeconds input.now,
      maxStat input.workers [.lastUpdate]⟩)

end Build

/-! ## The preflight of a run -/

inductive PreflightError
  | value
  | overflow
  deriving DecidableEq

/-- Whether a packet is at most two hours old, and at most five minutes ahead of the clock. -/
def isFresh (generated current : Datetime) : Except PreflightError Bool :=
  match current.sub? (7200 * microsPerSecond) with
  | none => .error .overflow
  | some earliest =>
    if earliest ≤ generated then
      match current.add? (300 * microsPerSecond) with
      | none => .error .overflow
      | some latest => .ok (generated ≤ latest)
    else .ok false

section Preflight

variable (sha256 : Sha256) (compilerHash : String) (packet : TelemetryPacket)
  (contract : HarnessContract) (runtimeMode : String)

/-- The checks of the hashes of a packet. -/
def hashChecks : List Check := [
  require "preflight.packet-hash"
    (packet.val.packetHash
      = (jsonDigest sha256 (.obj (packet.val.fields.filter (·.1 ≠ "packet_hash")))).val)
    "telemetry packet hash does not match its canonical contents",
  require "preflight.target-hashes" (packet.val.targetHashes = contract.targetHashes)
    "telemetry and harness target hashes differ"]

/-- The checks of what the contract authorizes. -/
def authorityChecks : List Check := [
  require "preflight.contract-mode" (modeAuthorized runtimeMode contract)
    "harness contract is not authorized for this runtime mode",
  require "preflight.planner-view" contract.verified
    "semantic planner view has not been independently verified"] ++
  if contract.environment = .production ∧ contract.deterministicCompiler then [
    require "preflight.compiler-authority" (Compiler.status compilerHash (some contract)).enabled
      "production contract is not bound to this exact compiler and codec"]
  else []

/-- `validate_run_inputs`, at a time of the clock. -/
def validateRunInputs (current : Datetime) : Except PreflightError ValidationReport :=
  let checks := hashChecks sha256 packet contract
    ++ authorityChecks compilerHash contract runtimeMode
  if runtimeMode = "shadow" then
    match (timestampFields packet.val.generatedAt).bind fromIsoformat with
    | none => .error .value
    | some generated => do
      let fresh ← isFresh generated current
      return reportOf (checks ++ [require "preflight.telemetry-freshness" fresh
        "telemetry is stale or implausibly future-dated"])
  else .ok (reportOf checks)

end Preflight

/-! ## Numbers of a packet -/

theorem intStat_nonneg (worker : Worker) (names : List IntegerKey) : 0 ≤ intStat worker names := by
  unfold intStat
  cases names.findSome? worker.stats.integers with
  | none => exact le_rfl
  | some value => exact le_max_right _ _

theorem intStat_lt (worker : Worker) (names : List IntegerKey) :
    intStat worker names < 10 ^ 40 := by
  unfold intStat
  cases hvalue : names.findSome? worker.stats.integers with
  | none => exact pow_pos (by decide) 40
  | some value =>
    obtain ⟨key, -, hkey⟩ := List.exists_of_findSome?_eq_some hvalue
    exact max_lt (worker.stats.integers_lt key value hkey) (pow_pos (by decide) 40)

theorem maxOf_nonneg (values : List ℤ) : 0 ≤ maxOf values := by
  induction values with
  | nil => exact le_rfl
  | cons value values ih => exact ih.trans (le_max_right _ _)

theorem le_maxOf {values : List ℤ} {value : ℤ} (h : value ∈ values) : value ≤ maxOf values := by
  induction values with
  | nil => cases h
  | cons other values ih =>
    rcases List.mem_cons.mp h with rfl | h
    · exact le_max_left _ _
    · exact (ih h).trans (le_max_right _ _)

theorem maxOf_le {values : List ℤ} {bound : ℤ} (hbound : 0 ≤ bound)
    (h : ∀ value ∈ values, value ≤ bound) : maxOf values ≤ bound := by
  induction values with
  | nil => exact hbound
  | cons other values ih =>
    exact max_le (h other List.mem_cons_self) (ih fun value hvalue =>
      h value (List.mem_cons_of_mem _ hvalue))

section Numbers

variable {workers : List Worker} {names : List IntegerKey}

theorem maxStat_nonneg : 0 ≤ maxStat workers names := maxOf_nonneg _

theorem maxStat_lt : maxStat workers names < 10 ^ 40 := by
  have h : maxStat workers names ≤ 10 ^ 40 - 1 := by
    refine maxOf_le (by norm_num) fun value hvalue => ?_
    obtain ⟨worker, -, rfl⟩ := List.mem_map.mp hvalue
    exact Int.le_sub_one_of_lt (intStat_lt worker names)
  omega

/-- What is no larger for each worker is no larger for the fleet. -/
theorem maxStat_le {names' : List IntegerKey}
    (h : ∀ worker ∈ workers, intStat worker names ≤ intStat worker names') :
    maxStat workers names ≤ maxStat workers names' := by
  refine maxOf_le maxStat_nonneg fun value hvalue => ?_
  obtain ⟨worker, hworker, rfl⟩ := List.mem_map.mp hvalue
  exact (h worker hworker).trans (le_maxOf (List.mem_map_of_mem hworker))

theorem sumStat_nonneg (name : IntegerKey) : 0 ≤ sumStat workers name := by
  refine List.sum_nonneg fun value hvalue => ?_
  obtain ⟨worker, -, rfl⟩ := List.mem_map.mp hvalue
  exact intStat_nonneg worker _

theorem floatStat_nonneg (worker : Worker) (name : FloatKey) : 0 ≤ floatStat worker name :=
  le_max_right _ _

theorem executionsPerSecondMilli_nonneg : 0 ≤ executionsPerSecondMilli workers := by
  refine le_roundHalfEven ?_
  have hsum : 0 ≤ (workers.map fun worker => floatStat worker .execsPerSec).sum := by
    refine List.sum_nonneg fun value hvalue => ?_
    obtain ⟨worker, -, rfl⟩ := List.mem_map.mp hvalue
    exact floatStat_nonneg worker _
  simpa using mul_nonneg hsum (by norm_num : (0 : ℚ) ≤ 1000)

/-- A percentage of parts per million. -/
theorem isPartsPerMillion_roundHalfEven {percent : ℚ} (h : percent ∈ Set.Icc 0 100) :
    isPartsPerMillion (roundHalfEven (percent * 10000)) := by
  obtain ⟨hlow, hhigh⟩ := h
  constructor
  · refine le_roundHalfEven ?_
    simpa using hlow
  · refine roundHalfEven_le ?_
    push_cast
    linarith

theorem median_nonneg {values : List ℚ} (hne : values ≠ []) (h : ∀ value ∈ values, 0 ≤ value) :
    0 ≤ median values :=
  have hbounds : ∀ value ∈ values, value ∈ Set.Icc 0 values.sum := fun value hvalue =>
    ⟨h value hvalue, List.single_le_sum h value hvalue⟩
  (median_mem_Icc hne hbounds).1

theorem nonneg_of_mem_floatStat {name : FloatKey} :
    ∀ value ∈ workers.map fun worker => floatStat worker name, 0 ≤ value := by
  intro value hvalue
  obtain ⟨worker, -, rfl⟩ := List.mem_map.mp hvalue
  exact floatStat_nonneg worker name

theorem newSince_nonneg (current : ℤ) (previous : Option ℤ) :
    0 ≤ BuildInput.newSince current previous :=
  le_max_left _ _

theorem newSince_lt {current : ℤ} (h : current < 10 ^ 40) (hnonneg : 0 ≤ current)
    (previous : Option ℤ) (hprevious : ∀ value ∈ previous, 0 ≤ value) :
    BuildInput.newSince current previous < 10 ^ 40 := by
  unfold BuildInput.newSince
  cases previous with
  | none => simp
  | some value =>
    have hvalue := hprevious value rfl
    exact max_lt (hnonneg.trans_lt h) (by rw [Option.getD_some]; omega)

end Numbers

/-! ## Texts of a packet -/

theorem isTimestamp_microText (instant : Datetime) : isTimestamp (microText instant) = true := by
  unfold microText Datetime.fractionText
  split <;>
    simp [isTimestamp, Date.text, Date.monthText, Datetime.timeText, fourDigits, sixDigits,
      twoDigits, consume, isDecimalDigit_digit, isChar, isFractionZone, isZone, List.range']

theorem isIdentifierChar_digit (n : ℕ) : isIdentifierChar (digit n) = true := by
  have hall : ∀ k < 10, isIdentifierChar (Char.ofNat (48 + k)) = true := by decide
  exact hall (n % 10) (Nat.mod_lt _ (by decide))

theorem isIdentifier_packetIdOf (now : Datetime) : isIdentifier (packetIdOf now) = true := by
  have htext : (packetIdOf now).toList = 'p' :: ("acket:".toList ++ (fourDigits now.date.year
      ++ (twoDigits now.date.month ++ (twoDigits now.date.day ++ 't' :: (twoDigits now.hour
      ++ (twoDigits now.minute ++ (twoDigits now.second ++ ['z']))))))) := by
    simp [packetIdOf]
  have hmarks : ("acket:".toList ++ ['t', 'z']).all isIdentifierChar = true := by decide
  rw [isIdentifier, htext]
  simp only [List.all_append, List.all_cons, Bool.and_eq_true] at hmarks ⊢
  refine ⟨⟨by decide, by simp [fourDigits, twoDigits]⟩, hmarks.1, ?_⟩
  simp [fourDigits, twoDigits, isIdentifierChar_digit, hmarks.2]

/-- A summary with a number of at most forty digits. -/
theorem EvidenceSummary.valid_number {reference start stop : String} {kind : EvidenceKind}
    {value count : ℤ} (hreference : isEvidenceRef reference = true)
    (hframes : framesNumber start stop = true) (hlength : start.length + stop.length ≤ 760)
    (hnonneg : 0 ≤ value) (hlt : value < 10 ^ 40) (hcount : 1 ≤ count) :
    (⟨reference, kind, start ++ toString value ++ stop, count⟩ : EvidenceSummary).Valid := by
  obtain ⟨n, rfl⟩ := Int.eq_ofNat_of_zero_le hnonneg
  have htext : toString (n : ℤ) = toString n := rfl
  have hdigits : (toString n).length ≤ 40 := by
    have hn : n < 10 ^ 40 := by exact_mod_cast hlt
    exact (Nat.length_repr_le_iff (by decide)).mpr hn
  have hpos : 0 < (toString n).length := Nat.length_repr_pos
  refine ⟨hreference, ?_, ?_, ?_, hcount⟩
  · simp only [htext, String.length_append]
    omega
  · simp only [htext, String.length_append]
    omega
  · exact isSanitizedText_number hframes n

/-! ## What a run is given -/

/-- Arguments that are valid each by itself: at least one worker, in no worker more favored or
pending entries than entries, and evidence under different references that fits the bound. -/
structure BuildInput.Proper (input : BuildInput) : Prop where
  workers : input.workers ≠ []
  favored : ∀ worker ∈ input.workers,
    intStat worker [.corpusFavored] ≤ intStat worker [.corpusCount, .pathsTotal]
  pending : ∀ worker ∈ input.workers,
    intStat worker [.pendingTotal] ≤ intStat worker [.corpusCount, .pathsTotal]
  expected : 1 ≤ input.expectedWorkers
  fleetId : isIdentifier input.fleetId = true
  campaignId : isIdentifier input.campaignId = true
  kernelRelease : isKernelRelease (cutKernelRelease input.kernelRelease)
  targetHashes : validTargetHashes input.contract.targetHashes
  evidence : ∃ profile, input.corpusProfile = .ok profile
    ∧ (∀ item ∈ profile.toList ++ input.extraEvidence, item.Valid)
    ∧ 3 + (profile.toList ++ input.extraEvidence).length ≤ 24
    ∧ (((input.ownEvidence ⟨none, none, none⟩ ++ (profile.toList ++ input.extraEvidence)).map
      EvidenceSummary.evidenceRef).Nodup)
  feedback : ∃ outcomes, input.feedback = .ok outcomes ∧ outcomes.length ≤ 12

/-- What a packet says that a run is to build. -/
structure Sound (sha256 : Sha256) (compilerHash : String) (contract : HarnessContract)
    (packet : TelemetryPacket) : Prop where
  workers : packet.val.fleet.workersRunning + packet.val.fleet.workersStalled
    ≤ packet.val.fleet.workersExpected
  favored : packet.val.fleet.favoredEntries ≤ packet.val.fleet.queueEntries
  pending : packet.val.fleet.pendingEntries ≤ packet.val.fleet.queueEntries
  window : ∃ start stop,
    (timestampFields packet.val.window.startAt).bind fromIsoformat = some start
      ∧ (timestampFields packet.val.window.endAt).bind fromIsoformat = some stop ∧ start ≤ stop
  deltas : 0 ≤ packet.val.coverage.pathsNewInWindow ∧ 0 ≤ packet.val.coverage.edgesNewInWindow
    ∧ ∀ lane ∈ packet.val.laneSummaries, 0 ≤ lane.pathsNewInWindow
  preflight : ∀ runtimeMode current report,
    validateRunInputs sha256 compilerHash packet contract runtimeMode current = .ok report →
      ∀ checkId ∈ ["preflight.packet-hash", "preflight.target-hashes"],
        checkId ∈ report.passedCheckIds ∧ checkId ∉ report.issues.map ValidationIssue.checkId

/-- A run returns a packet as it should be; without one, the state file stays as it is. -/
def Builds (sha256 : Sha256) (compilerHash : String) (input : BuildInput)
    (file : Option TelemetryState) : Prop :=
  (∃ packet, (buildPacket sha256 input file).1 = .ok packet
      ∧ Sound sha256 compilerHash input.contract packet)
    ∧ ∀ error, (buildPacket sha256 input file).1 = .error error →
      (buildPacket sha256 input file).2 = file

/-! ## The parts of a built packet -/

theorem readTelemetryState_nonneg (file : Option TelemetryState) :
    (∀ value ∈ (readTelemetryState file).edges, 0 ≤ value)
      ∧ ∀ value ∈ (readTelemetryState file).paths, 0 ≤ value := by
  cases file with
  | none => exact ⟨nofun, nofun⟩
  | some state =>
    constructor <;> intro value hvalue <;>
      simp only [readTelemetryState, Option.mem_def, Option.ite_none_right_eq_some,
        Option.some.injEq] at hvalue <;>
      exact hvalue.2 ▸ hvalue.1

section Parts

variable {input : BuildInput} {file : Option TelemetryState}

theorem valid_ownEvidence :
    ∀ item ∈ input.ownEvidence (readTelemetryState file), item.Valid := by
  have hcount : (1 : ℤ) ≤ max (input.workers.length : ℤ) 1 := le_max_right _ _
  have hedges : BuildInput.newSince input.edges (readTelemetryState file).edges < 10 ^ 40 :=
    newSince_lt maxStat_lt maxStat_nonneg _ (readTelemetryState_nonneg file).1
  intro item hitem
  simp only [BuildInput.ownEvidence, List.mem_cons, List.not_mem_nil, or_false] at hitem
  rcases hitem with rfl | rfl | rfl
  · exact EvidenceSummary.valid_number (by decide) (by decide +kernel) (by decide)
      (newSince_nonneg _ _) hedges hcount
  · exact EvidenceSummary.valid_number (by decide) (by decide +kernel) (by decide) maxStat_nonneg
      maxStat_lt hcount
  · exact EvidenceSummary.valid_number (by decide) (by decide +kernel) (by decide) maxStat_nonneg
      maxStat_lt hcount

theorem valid_laneSummary (lane : LaneKind) (workers : List Worker) {pathsNew : ℤ}
    (h : 0 ≤ pathsNew) : (laneSummary lane workers pathsNew).Valid := by
  refine ⟨Int.natCast_nonneg _, sumStat_nonneg _, executionsPerSecondMilli_nonneg, maxStat_nonneg,
    h, le_rfl, maxStat_nonneg, isPartsPerMillion_roundHalfEven ⟨le_max_left _ _, ?_⟩⟩
  refine max_le (by norm_num) ?_
  split_ifs with hempty
  · norm_num
  · linarith [median_nonneg hempty nonneg_of_mem_floatStat]

/-- The numbers of the fleet are in their ranges when no more workers run than are expected. -/
theorem valid_fleet_iff (h : input.Proper) (start : Datetime) (evidence : List EvidenceSummary)
    (outcomes : List PriorProposalOutcome) (packetHash : String) :
    (input.packetData (readTelemetryState file) start evidence outcomes packetHash).fleet.Valid
      ↔ input.running ≤ input.expectedWorkers := by
  have hrunning : 0 ≤ input.running := Int.natCast_nonneg _
  constructor
  · intro hvalid
    have hbound : input.running + max 0 (input.expectedWorkers - input.running)
        ≤ input.expectedWorkers := hvalid.2.2.2.2.2.2.2.2.1
    omega
  · intro hle
    have hbound : input.running + max 0 (input.expectedWorkers - input.running)
        ≤ input.expectedWorkers := by omega
    exact ⟨h.expected, hrunning, le_max_left _ _, sumStat_nonneg _,
      executionsPerSecondMilli_nonneg, maxStat_nonneg, maxStat_nonneg, maxStat_nonneg, hbound,
      maxStat_le h.favored, maxStat_le h.pending⟩

theorem valid_coverage (h : input.Proper) (start : Datetime) (evidence : List EvidenceSummary)
    (outcomes : List PriorProposalOutcome) (packetHash : String) :
    (input.packetData (readTelemetryState file) start evidence outcomes
      packetHash).coverage.Valid := by
  have hne : (input.workers.map fun worker => floatStat worker .bitmapCvg) ≠ [] :=
    fun hnil => h.workers (List.map_eq_nil_iff.mp hnil)
  have hmedian : 0 ≤ median (input.workers.map fun worker => floatStat worker .bitmapCvg) :=
    median_nonneg hne nonneg_of_mem_floatStat
  exact ⟨maxStat_nonneg, newSince_nonneg _ _, maxStat_nonneg, newSince_nonneg _ _,
    isPartsPerMillion_roundHalfEven ⟨le_min hmedian (by norm_num), min_le_right _ _⟩, le_rfl,
    le_rfl, le_rfl⟩

/-- **A packet of proper arguments is valid** exactly when no more workers run than are expected. -/
theorem valid_packetData_iff (h : input.Proper) (start : Datetime)
    {profile : Option EvidenceSummary} (hprofile : input.corpusProfile = .ok profile)
    {outcomes : List PriorProposalOutcome} (houtcomes : input.feedback = .ok outcomes)
    {packetHash : String} (hhash : isDigest packetHash = true) :
    (input.packetData (readTelemetryState file) start
        (input.ownEvidence (readTelemetryState file) ++ (profile.toList ++ input.extraEvidence))
        outcomes packetHash).Valid
      ↔ input.running ≤ input.expectedWorkers := by
  obtain ⟨profile', hprofile', hitems, hlength, hrefs⟩ := h.evidence
  obtain ⟨outcomes', houtcomes', hfeedback⟩ := h.feedback
  obtain rfl := Except.ok.inj (hprofile.symm.trans hprofile')
  obtain rfl := Except.ok.inj (houtcomes.symm.trans houtcomes')
  refine ⟨fun hvalid => (valid_fleet_iff h start _ _ _).mp hvalid.2.2.1, fun hle => ?_⟩
  have hnew : 0 ≤ BuildInput.newSince input.paths (readTelemetryState file).paths :=
    newSince_nonneg _ _
  have hlanes : [LaneKind.stableCoverage, .probabilisticRace].Nodup := by decide
  have hversion : isIdentifier "redaction:v1" = true := by decide
  have hsymbols : isSymbol "normal_completion" = true ∧ isSymbol "saved_crash" = true
      ∧ isSymbol "saved_hang" = true := by decide
  refine ⟨⟨isIdentifier_packetIdOf _, hhash, isTimestamp_microText _, h.fleetId, h.campaignId,
      h.kernelRelease, h.targetHashes, hversion⟩,
    ⟨isTimestamp_microText _, isTimestamp_microText _, le_max_left _ _⟩,
    (valid_fleet_iff h start _ _ _).mpr hle, valid_coverage h start _ _ _,
    ⟨rfl, ?_, show 3 ≤ 24 by norm_num, ?_, ?_, ?_, hfeedback⟩,
    ⟨List.mem_cons_self, List.mem_cons_of_mem _ List.mem_cons_self, hlanes, hrefs⟩⟩
  · intro lane hlane
    simp only [BuildInput.packetData, List.mem_cons, List.not_mem_nil, or_false] at hlane
    rcases hlane with rfl | rfl
    · exact valid_laneSummary _ _ hnew
    · exact valid_laneSummary _ _ le_rfl
  · intro item hitem
    simp only [BuildInput.packetData, List.mem_cons, List.not_mem_nil, or_false] at hitem
    rcases hitem with rfl | rfl | rfl
    · exact ⟨hsymbols.1, le_max_left _ _, le_rfl, le_max_left _ _⟩
    · exact ⟨hsymbols.2.1, maxStat_nonneg, le_rfl, maxStat_nonneg⟩
    · exact ⟨hsymbols.2.2, maxStat_nonneg, le_rfl, maxStat_nonneg⟩
  · show (input.ownEvidence (readTelemetryState file) ++ _).length ≤ 24
    rw [List.length_append]
    exact hlength
  · intro item hitem
    rcases List.mem_append.mp hitem with hown | hother
    · exact valid_ownEvidence item hown
    · exact hitems item hother

end Parts

/-! ## When a packet is built -/

/-- The seconds of an instant of the calendar. -/
theorem fromTimestamp_eq_some_iff {seconds : ℤ} {instant : Datetime} :
    fromTimestamp seconds = some instant
      ↔ seconds * 1000000 + unixEpochMicros = (instant.micros : ℤ) := by
  have hlt := instant.micros_lt
  unfold fromTimestamp
  split_ifs with h
  · rw [Option.some.injEq, Datetime.ext_iff]
    simp only
    omega
  · simp only [false_iff]
    intro heq
    exact h ⟨by omega, by omega⟩

section Preflight

variable {sha256 : Sha256} {compilerHash : String} {packet : TelemetryPacket}
  {contract : HarnessContract} {runtimeMode : String}

/-- A packet under the hash of the rest of it and with the hashes of the contract passes the checks
of both, whatever becomes of the others. -/
theorem passed_validateRunInputs
    (hhash : packet.val.packetHash = (jsonDigest sha256 (.obj packet.val.hashMaterial)).val)
    (htarget : packet.val.targetHashes = contract.targetHashes) {current : Datetime}
    {report : ValidationReport}
    (h : validateRunInputs sha256 compilerHash packet contract runtimeMode current = .ok report)
    {checkId : String} (hid : checkId ∈ ["preflight.packet-hash", "preflight.target-hashes"]) :
    checkId ∈ report.passedCheckIds ∧ checkId ∉ report.issues.map ValidationIssue.checkId := by
  have hholds : Holds (hashChecks sha256 packet contract) := by
    rw [hashChecks, holds_cons_require, holds_cons_require]
    exact ⟨hhash, htarget, holds_nil⟩
  have hauthority : ∀ check ∈ authorityChecks compilerHash contract runtimeMode,
      check.checkId ∉ (hashChecks sha256 packet contract).map Check.checkId := by
    intro check hcheck
    simp only [authorityChecks, List.mem_append, List.mem_cons, List.not_mem_nil,
      or_false] at hcheck
    rcases hcheck with (rfl | rfl) | hcheck
    · simp [hashChecks, require]
    · simp [hashChecks, require]
    · split_ifs at hcheck
      · obtain rfl := List.mem_singleton.mp hcheck
        simp [hashChecks, require]
      · cases hcheck
  unfold validateRunInputs at h
  split_ifs at h with hmode
  · split at h
    · cases h
    · rename_i generated hgenerated
      obtain ⟨fresh, hfresh, h⟩ := bind_eq_ok.mp h
      obtain rfl := Except.ok.inj h
      rw [List.append_assoc]
      refine passed_reportOf hholds (fun check hcheck => ?_) hid
      rcases List.mem_append.mp hcheck with hcheck | hcheck
      · exact hauthority check hcheck
      · obtain rfl := List.mem_singleton.mp hcheck
        simp [hashChecks, require]
  · obtain rfl := Except.ok.inj h
    exact passed_reportOf hholds hauthority hid

end Preflight

/-- The run before is not after the clock, nor before the calendar. -/
def StartsInOrder (input : BuildInput) (file : Option TelemetryState) : Prop :=
  -62135596800 ≤ input.priorEpoch (readTelemetryState file)
    ∧ input.priorEpoch (readTelemetryState file) * 1000000 ≤ unixMicros input.now

instance (input : BuildInput) (file : Option TelemetryState) :
    Decidable (StartsInOrder input file) := by
  unfold StartsInOrder
  infer_instance

theorem startsInOrder_iff {input : BuildInput} {file : Option TelemetryState} :
    StartsInOrder input file
      ↔ ∃ start, fromTimestamp (input.priorEpoch (readTelemetryState file)) = some start
        ∧ start ≤ input.now := by
  have hlt := input.now.micros_lt
  simp only [StartsInOrder, fromTimestamp_eq_some_iff, unixMicros, unixEpochMicros]
  constructor
  · rintro ⟨hlow, hhigh⟩
    generalize input.priorEpoch (readTelemetryState file) = epoch at hlow hhigh
    have hmicros : (epoch * 1000000 + 62135596800 * 1000000).toNat ≤ input.now.micros := by omega
    exact ⟨⟨_, hmicros.trans_lt hlt⟩, by simp only; omega, hmicros⟩
  · rintro ⟨start, hstart, hle⟩
    have hle' : start.micros ≤ input.now.micros := hle
    omega

theorem validatePacket_eq_ok_iff {data : PacketData} {packet : TelemetryPacket} :
    validatePacket data = .ok packet ↔ packet.val = data := by
  unfold validatePacket
  split_ifs with hvalid
  · rw [Except.ok.injEq, ← Subtype.val_inj, eq_comm]
  · simp only [false_iff]
    rintro rfl
    exact hvalid packet.property

section Run

variable {sha256 : Sha256} {compilerHash : String} {input : BuildInput}
  {file : Option TelemetryState}

/-- What remains of a run of proper arguments: the start of the window and the model's checks. -/
theorem packetOf_eq (sha256 : Sha256) (file : Option TelemetryState) (h : input.Proper) :
    ∃ profile outcomes,
    input.corpusProfile = .ok profile ∧ input.feedback = .ok outcomes
      ∧ packetOf sha256 input file
        = match fromTimestamp (input.priorEpoch (readTelemetryState file)) with
          | none => .error .startTime
          | some start => validatePacket (input.hashedData sha256 (readTelemetryState file) start
              (input.ownEvidence (readTelemetryState file)
                ++ (profile.toList ++ input.extraEvidence)) outcomes) := by
  obtain ⟨profile, hprofile, -, hlength, -⟩ := h.evidence
  obtain ⟨outcomes, houtcomes, -⟩ := h.feedback
  have hevidence : ¬ 24 < (input.ownEvidence (readTelemetryState file)
      ++ (profile.toList ++ input.extraEvidence)).length := by
    rw [List.length_append, not_lt]
    exact hlength
  refine ⟨profile, outcomes, hprofile, houtcomes, ?_⟩
  rw [packetOf, raiseIf_bind_of_not h.workers]
  simp only [hprofile, houtcomes, ok_bind]
  rw [raiseIf_bind_of_not hevidence]
  rfl

theorem buildPacket_eq_ok_iff {packet : TelemetryPacket} :
    (buildPacket sha256 input file).1 = .ok packet ↔ packetOf sha256 input file = .ok packet := by
  unfold buildPacket
  cases packetOf sha256 input file <;> rfl

/-- The state file after a run that returns a packet. -/
theorem buildPacket_ok {packet : TelemetryPacket}
    (h : (buildPacket sha256 input file).1 = .ok packet) :
    (buildPacket sha256 input file).2 = some ⟨input.edges, input.paths, unixSeconds input.now,
      maxStat input.workers [.lastUpdate]⟩ := by
  unfold buildPacket at h ⊢
  cases hpacket : packetOf sha256 input file with
  | error _ => simp [hpacket] at h
  | ok packet => rfl

theorem buildPacket_error {error : TelemetryError}
    (h : (buildPacket sha256 input file).1 = .error error) :
    (buildPacket sha256 input file).2 = file := by
  unfold buildPacket at h ⊢
  cases hpacket : packetOf sha256 input file with
  | error _ => rfl
  | ok packet => simp [hpacket] at h

theorem running_le_of_builds (h : input.Proper) (hbuilds : Builds sha256 compilerHash input file) :
    input.running ≤ input.expectedWorkers := by
  obtain ⟨profile, outcomes, hprofile, houtcomes, hpacket⟩ :=
    packetOf_eq sha256 file h
  obtain ⟨⟨packet, hok, -⟩, -⟩ := hbuilds
  rw [buildPacket_eq_ok_iff, hpacket] at hok
  cases hstart : fromTimestamp (input.priorEpoch (readTelemetryState file)) with
  | none => simp [hstart] at hok
  | some start =>
    rw [hstart] at hok
    have hdata := validatePacket_eq_ok_iff.mp hok
    exact (valid_packetData_iff h start hprofile houtcomes (jsonDigest sha256 _).property).mp
      (hdata ▸ packet.property)

theorem startsInOrder_of_builds (h : input.Proper)
    (hbuilds : Builds sha256 compilerHash input file) : StartsInOrder input file := by
  obtain ⟨profile, outcomes, -, -, hpacket⟩ := packetOf_eq sha256 file h
  obtain ⟨⟨packet, hok, hsound⟩, -⟩ := hbuilds
  rw [buildPacket_eq_ok_iff, hpacket] at hok
  cases hstart : fromTimestamp (input.priorEpoch (readTelemetryState file)) with
  | none => simp [hstart] at hok
  | some start =>
    rw [hstart] at hok
    have hdata := validatePacket_eq_ok_iff.mp hok
    obtain ⟨start', stop, hstart', hstop, hle⟩ := hsound.window
    rw [hdata] at hstart' hstop
    obtain rfl := Option.some.inj (hstart'.symm.trans (fromIsoformat_microText start))
    obtain rfl := Option.some.inj (hstop.symm.trans (fromIsoformat_microText input.now))
    exact startsInOrder_iff.mpr ⟨start', hstart, hle⟩

theorem builds_of_startsInOrder (h : input.Proper)
    (hrunning : input.running ≤ input.expectedWorkers) (hstarts : StartsInOrder input file) : Builds sha256 compilerHash input file := by
  obtain ⟨profile, outcomes, hprofile, houtcomes, hpacket⟩ := packetOf_eq sha256 file h
  obtain ⟨start, hstart, hle⟩ := startsInOrder_iff.mp hstarts
  rw [hstart] at hpacket
  obtain ⟨packet, hdata⟩ : ∃ packet : TelemetryPacket, packet.val = input.hashedData sha256
      (readTelemetryState file) start (input.ownEvidence (readTelemetryState file)
        ++ (profile.toList ++ input.extraEvidence)) outcomes :=
    ⟨⟨_, (valid_packetData_iff h start hprofile houtcomes (jsonDigest sha256 _).property).mpr
      hrunning⟩, rfl⟩
  have hok := hpacket.trans (validatePacket_eq_ok_iff.mpr hdata)
  have hfleet := packet.property.2.2.1
  have hcoverage := packet.property.2.2.2.1
  have hlists := packet.property.2.2.2.2.1
  refine ⟨⟨packet, buildPacket_eq_ok_iff.mpr hok, ?_⟩, fun error => buildPacket_error⟩
  exact
    { workers := hfleet.2.2.2.2.2.2.2.2.1
      favored := hfleet.2.2.2.2.2.2.2.2.2.1
      pending := hfleet.2.2.2.2.2.2.2.2.2.2
      window := ⟨start, input.now, hdata ▸ fromIsoformat_microText start,
        hdata ▸ fromIsoformat_microText input.now, hle⟩
      deltas := ⟨hcoverage.2.1, hcoverage.2.2.2.1, fun lane hlane =>
        (hlists.2.1 lane hlane).2.2.2.2.1⟩
      preflight := fun runtimeMode current report hreport checkId hid =>
        passed_validateRunInputs (by rw [hdata]; rfl) (by rw [hdata]; rfl) hreport hid }

/-- **A run builds a packet as it should be** exactly when no more workers run than are expected and
the run before is not after the clock. -/
theorem builds_iff (h : input.Proper) :
    Builds sha256 compilerHash input file
      ↔ input.running ≤ input.expectedWorkers ∧ StartsInOrder input file := by
  constructor
  · exact fun hbuilds => ⟨running_le_of_builds h hbuilds, startsInOrder_of_builds h hbuilds⟩
  · rintro ⟨hrunning, hstarts⟩
    exact builds_of_startsInOrder h hrunning hstarts

end Run

/-! ### Two workers -/

/-- A worker with one execution. -/
def sampleWorker (number : ℕ) (lastUpdate : ℤ) (h : lastUpdate < 10 ^ 40 := by norm_num) :
    Worker where
  number := number
  stats :=
    { integers := fun key => if key = .lastUpdate then some lastUpdate
        else if key = .execsDone then some 1 else none
      floats := fun key => if key = .execsPerSec then some 1 else none
      integers_lt := by
        intro key value hvalue
        split_ifs at hvalue
        · exact Option.some.inj hvalue ▸ h
        · exact Option.some.inj hvalue ▸ (by norm_num)
        · cases hvalue
      required := by simp }

def sampleHash : String := "sha256:" ++ String.ofList (List.replicate 64 '0')

/-- Two workers with fresh statistics. -/
def sampleInput (expectedWorkers : ℤ) (now : Datetime) : BuildInput where
  workers := [sampleWorker 0 1767225600, sampleWorker 8 1767225600]
  contract := Contract.buildContract ⟨sampleHash, sampleHash, sampleHash, sampleHash⟩
  kernelRelease := "6.12"
  fleetId := "fleet:umich-nyx"
  campaignId := "campaign:io-uring"
  expectedWorkers := expectedWorkers
  nativeWorkers := 8
  now := now
  extraEvidence := []
  corpusProfile := .ok none
  feedback := .ok []

theorem firstClock_lt :
    (62135596800 + 1767225600 + 600) * microsPerSecond < calendarDays * microsPerDay := by
  decide

def firstClock : Datetime := ⟨(62135596800 + 1767225600 + 600) * microsPerSecond, firstClock_lt⟩

/-- Five minutes earlier. -/
def earlierClock : Datetime := ⟨(62135596800 + 1767225600 + 300) * microsPerSecond, by decide⟩

theorem proper_sampleInput {expectedWorkers : ℤ} (h : 1 ≤ expectedWorkers) (now : Datetime) :
    (sampleInput expectedWorkers now).Proper where
  workers := by simp [sampleInput]
  favored := show ∀ worker ∈ [sampleWorker 0 1767225600, sampleWorker 8 1767225600],
    intStat worker [.corpusFavored] ≤ intStat worker [.corpusCount, .pathsTotal] by decide
  pending := show ∀ worker ∈ [sampleWorker 0 1767225600, sampleWorker 8 1767225600],
    intStat worker [.pendingTotal] ≤ intStat worker [.corpusCount, .pathsTotal] by decide
  expected := h
  fleetId := show isIdentifier "fleet:umich-nyx" = true by decide
  campaignId := show isIdentifier "campaign:io-uring" = true by decide
  kernelRelease := show isKernelRelease (cutKernelRelease "6.12") by decide +kernel
  targetHashes := show validTargetHashes ⟨sampleHash, sampleHash, sampleHash, sampleHash⟩ by
    decide +kernel
  evidence := ⟨none, rfl, by simp [sampleInput], by simp [sampleInput],
    by simp [sampleInput, BuildInput.ownEvidence]⟩
  feedback := ⟨[], rfl, by decide⟩

theorem builds_iff_firstClock :
    Builds (fun _ => Vector.replicate 32 0) sampleHash (sampleInput 2 firstClock) none
      ↔ (sampleInput 2 firstClock).running ≤ 2 ∧ StartsInOrder (sampleInput 2 firstClock) none :=
  builds_iff (proper_sampleInput (by norm_num) firstClock)

/-- Two workers where one is expected, and a clock that is set back after a run. -/
theorem not_builds_of_proper :
    ((sampleInput 1 firstClock).Proper
        ∧ ¬ Builds (fun _ => Vector.replicate 32 0) sampleHash (sampleInput 1 firstClock) none)
      ∧ (sampleInput 2 earlierClock).Proper
        ∧ ¬ Builds (fun _ => Vector.replicate 32 0) sampleHash (sampleInput 2 earlierClock)
          (buildPacket (fun _ => Vector.replicate 32 0) (sampleInput 2 firstClock) none).2 := by
  have hcrowded : (sampleInput 1 firstClock).Proper := proper_sampleInput le_rfl firstClock
  have hlater : (sampleInput 2 firstClock).Proper := proper_sampleInput (by norm_num) firstClock
  have hearlier : (sampleInput 2 earlierClock).Proper :=
    proper_sampleInput (by norm_num) earlierClock
  refine ⟨⟨hcrowded, fun hbuilds => ?_⟩, hearlier, fun hbuilds => ?_⟩
  · exact absurd (running_le_of_builds hcrowded hbuilds) (by decide +kernel)
  · have hfirst : Builds (fun _ => Vector.replicate 32 0) sampleHash (sampleInput 2 firstClock)
        none := builds_of_startsInOrder hlater (by decide +kernel) (by decide +kernel)
    obtain ⟨⟨packet, hok, -⟩, -⟩ := hfirst
    rw [buildPacket_ok hok] at hbuilds
    exact absurd (startsInOrder_of_builds hearlier hbuilds) (by decide +kernel)

end IouAi.Telemetry
