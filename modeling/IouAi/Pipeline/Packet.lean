import IouAi.Budget.Pricing
import IouAi.Contract.Models
import IouAi.Pipeline.Feedback
import Mathlib.Tactic.IntervalCases

/-!
# Telemetry packets

The packet that is sent to a provider: the values that a builder fills in, what the strict model
demands of them, and the JSON value of a packet. Texts are checked with the white space and the case
folding of Python's strings.
-/

namespace IouAi.Telemetry

open Feedback Models Wire

/-! ## Sanitized texts -/

/-- `casefold` of a character, as far as it has ASCII characters: no other one is in a fragment that
is looked for. -/
def foldChar (c : Char) : List Char :=
  match c.toNat with
  | 0xdf => ['s', 's']
  | 0x130 => ['i', Char.ofNat 0x307]
  | 0x149 => [Char.ofNat 0x2bc, 'n']
  | 0x17f => ['s']
  | 0x1f0 => ['j', Char.ofNat 0x30c]
  | 0x1e96 => ['h', Char.ofNat 0x331]
  | 0x1e97 => ['t', Char.ofNat 0x308]
  | 0x1e98 => ['w', Char.ofNat 0x30a]
  | 0x1e99 => ['y', Char.ofNat 0x30a]
  | 0x1e9a => ['a', Char.ofNat 0x2be]
  | 0x1e9e => ['s', 's']
  | 0x212a => ['k']
  | 0xfb00 => ['f', 'f']
  | 0xfb01 => ['f', 'i']
  | 0xfb02 => ['f', 'l']
  | 0xfb03 => ['f', 'f', 'i']
  | 0xfb04 => ['f', 'f', 'l']
  | 0xfb05 => ['s', 't']
  | 0xfb06 => ['s', 't']
  | _ => [c.toLower]

/-- `_validate_sanitized_text`. -/
def isSanitizedText (text : String) : Bool :=
  text.toList.head?.all (fun c => !Budget.isSpace c)
    && text.toList.getLast?.all (fun c => !Budget.isSpace c)
    && text.toList.all (fun c => c ≠ '\n' && c ≠ '\r' && c ≠ '\x00')
    && forbiddenTextFragments.all fun fragment => ¬ fragment.toList <:+: text.toList.flatMap foldChar

/-! ## Texts with a number -/

/-- The beginning of a fragment, up to its first digit. -/
def fragmentStart (fragment : String) : List Char := fragment.toList.takeWhile fun c => !c.isDigit

/-- Two texts that make a sanitized text with any number between them. -/
def framesNumber (start stop : String) : Bool :=
  start.toList.head?.any (fun c => !Budget.isSpace c)
    && stop.toList.getLast?.any (fun c => !Budget.isSpace c)
    && (start.toList ++ stop.toList).all (fun c => c ≠ '\n' && c ≠ '\r' && c ≠ '\x00')
    && forbiddenTextFragments.all fun fragment => fragmentStart fragment ≠ []
      && ¬ fragmentStart fragment <:+: start.toList.flatMap foldChar
      && ¬ fragmentStart fragment <:+: stop.toList.flatMap foldChar

/-- What has no digit is on one side of the digits. -/
theorem isInfix_of_digits {text start digits stop : List Char} (htext : ∀ c ∈ text, c.isDigit = false)
    (hne : text ≠ []) (hdigits : ∀ c ∈ digits, c.isDigit = true) (hdigits_ne : digits ≠ [])
    (h : text <:+: start ++ (digits ++ stop)) : text <:+: start ∨ text <:+: stop := by
  have hclash : ∀ {c rest rest'}, c :: rest = digits ++ rest' → c.isDigit = true := by
    intro c rest rest' heq
    obtain ⟨d, ds, rfl⟩ := List.exists_cons_of_ne_nil hdigits_ne
    obtain ⟨rfl, -⟩ := List.cons.inj heq
    exact hdigits _ List.mem_cons_self
  obtain ⟨before, after, h⟩ := h
  rw [List.append_assoc] at h
  rcases List.append_eq_append_iff.mp h with ⟨rest, rfl, hrest⟩ | ⟨rest, rfl, hrest⟩
  · rcases List.append_eq_append_iff.mp hrest with ⟨rest', rfl, hrest'⟩ | ⟨rest', rfl, hrest'⟩
    · exact .inl ⟨before, rest', by simp⟩
    · cases rest' with
      | nil => exact .inl ⟨before, [], by simp⟩
      | cons c cs =>
        have hc := hclash (hrest'.symm)
        exact absurd hc (by simp [htext c (by simp)])
  · rcases List.append_eq_append_iff.mp hrest with ⟨rest', rfl, rfl⟩ | ⟨rest', rfl, hrest'⟩
    · exact .inr ⟨rest', after, by simp⟩
    · cases rest' with
      | nil => exact .inr ⟨[], after, by simpa using hrest'⟩
      | cons d ds =>
        obtain ⟨c, cs, rfl⟩ := List.exists_cons_of_ne_nil hne
        obtain ⟨rfl, -⟩ := List.cons.inj hrest'
        have hdigit := hdigits c (by simp)
        exact absurd hdigit (by simp [htext c (by simp)])

theorem foldChar_of_isDigit {c : Char} (h : c.isDigit = true) : foldChar c = [c] := by
  simp only [Char.isDigit, Bool.and_eq_true, decide_eq_true_eq] at h
  have hbounds : 48 ≤ c.toNat ∧ c.toNat ≤ 57 := h
  obtain ⟨hlow, hhigh⟩ := hbounds
  rw [← Char.ofNat_toNat c]
  generalize c.toNat = n at hlow hhigh
  interval_cases n <;> rfl

theorem flatMap_foldChar {digits : List Char} (h : ∀ c ∈ digits, c.isDigit = true) :
    digits.flatMap foldChar = digits := by
  induction digits with
  | nil => rfl
  | cons c digits ih =>
    rw [List.flatMap_cons, foldChar_of_isDigit (h c (by simp)), ih fun d hd => h d (by simp [hd])]
    rfl

/-- **A number between two texts that frame it** makes a sanitized text. -/
theorem isSanitizedText_number {start stop : String} (h : framesNumber start stop = true) (n : ℕ) :
    isSanitizedText (start ++ toString n ++ stop) = true := by
  simp only [framesNumber, Bool.and_eq_true, Option.any_eq_true, List.all_eq_true,
    decide_eq_true_eq, Bool.not_eq_true'] at h
  obtain ⟨⟨⟨⟨first, hfirst, hfirst'⟩, ⟨last, hlast, hlast'⟩⟩, hlines⟩, hfragments⟩ := h
  have hdigits : ∀ c ∈ (toString n).toList, c.isDigit = true := by
    intro c hc
    have hmem : c ∈ Nat.toDigits 10 n := by rwa [← Nat.toList_repr]
    exact Nat.isDigit_of_mem_toDigits (by decide) (by decide) hmem
  have hdigits_ne : (toString n).toList ≠ [] := by
    have htoList : (toString n).toList = Nat.toDigits 10 n := Nat.toList_repr
    rw [htoList]
    exact Nat.toDigits_ne_nil
  have htext : (start ++ toString n ++ stop).toList
      = start.toList ++ ((toString n).toList ++ stop.toList) := by
    simp [String.toList_append]
  have hspace : ∀ c : Char, c.isDigit = true → c ≠ '\n' ∧ c ≠ '\r' ∧ c ≠ '\x00' := by
    intro c hc
    refine ⟨?_, ?_, ?_⟩ <;> rintro rfl <;> exact absurd hc (by decide)
  simp only [isSanitizedText, htext, Bool.and_eq_true, List.all_eq_true, decide_eq_true_eq]
  refine ⟨⟨⟨?_, ?_⟩, ?_⟩, ?_⟩
  · rw [List.head?_append, hfirst]
    simpa using hfirst'
  · rw [List.getLast?_append, List.getLast?_append, hlast]
    simpa using hlast'
  · intro c hc
    rcases List.mem_append.mp hc with hc | hc
    · exact hlines c (List.mem_append_left _ hc)
    · rcases List.mem_append.mp hc with hc | hc
      · simpa [and_assoc] using hspace c (hdigits c hc)
      · exact hlines c (List.mem_append_right _ hc)
  · intro fragment hfragment hinfix
    obtain ⟨⟨hne, hstart⟩, hstop⟩ := hfragments fragment hfragment
    rw [List.flatMap_append, List.flatMap_append, flatMap_foldChar hdigits] at hinfix
    have hbegins : fragmentStart fragment <:+: fragment.toList :=
      (List.takeWhile_prefix _).isInfix
    have hnodigit : ∀ c ∈ fragmentStart fragment, c.isDigit = false := by
      intro c hc
      simpa using List.all_eq_true.mp List.all_takeWhile c hc
    rcases isInfix_of_digits hnodigit hne hdigits hdigits_ne (hbegins.trans hinfix) with h | h
    · exact hstart h
    · exact hstop h

/-! ## The parts of a packet -/

def laneText : LaneKind → String
  | .stableCoverage => "stable_coverage"
  | .probabilisticRace => "probabilistic_race"

inductive EvidenceKind
  | coverageDelta
  | corpusShape
  | outcomeClass
  | raceSignal
  | stallSignal
  | priorProposal
  | kernelPatch
  | mailThread
  deriving DecidableEq

def EvidenceKind.text : EvidenceKind → String
  | .coverageDelta => "coverage_delta"
  | .corpusShape => "corpus_shape"
  | .outcomeClass => "outcome_class"
  | .raceSignal => "race_signal"
  | .stallSignal => "stall_signal"
  | .priorProposal => "prior_proposal"
  | .kernelPatch => "kernel_patch"
  | .mailThread => "mail_thread"

def outcomeText : OutcomeKind → String
  | .noChange => "no_change"
  | .coverageGain => "coverage_gain"
  | .novelOutcome => "novel_outcome"
  | .unstable => "unstable"
  | .rejected => "rejected"
  | .notRun => "not_run"

structure TelemetryWindow where
  startAt : String
  endAt : String
  durationSeconds : ℤ
  deriving DecidableEq

structure FleetSummary where
  workersExpected : ℤ
  workersRunning : ℤ
  workersStalled : ℤ
  executionsTotal : ℤ
  executionsPerSecondMilli : ℤ
  queueEntries : ℤ
  favoredEntries : ℤ
  pendingEntries : ℤ
  deriving DecidableEq

structure CoverageSummary where
  pathsTotal : ℤ
  pathsNewInWindow : ℤ
  edgesTotal : ℤ
  edgesNewInWindow : ℤ
  bitmapDensityPpm : ℤ
  corpusBytesTotal : ℤ
  corpusEntryBytesP50 : ℤ
  corpusEntryBytesP95 : ℤ
  deriving DecidableEq

structure OutcomeClassSummary where
  outcomeClass : String
  count : ℤ
  reproducibleCount : ℤ
  deriving DecidableEq

structure LaneSummary where
  lane : LaneKind
  workersRunning : ℤ
  executionsTotal : ℤ
  executionsPerSecondMilli : ℤ
  queueEntries : ℤ
  pathsNewInWindow : ℤ
  novelOutcomesInWindow : ℤ
  timeoutCount : ℤ
  instabilityPpm : ℤ
  deriving DecidableEq

structure EvidenceSummary where
  evidenceRef : String
  kind : EvidenceKind
  summary : String
  observationCount : ℤ
  deriving DecidableEq

/-- The values of a packet. The externalization policy is constant up to its version. -/
structure PacketData where
  packetId : String
  packetHash : String
  generatedAt : String
  fleetId : String
  campaignId : String
  kernelRelease : String
  targetHashes : Models.TargetHashes
  window : TelemetryWindow
  fleet : FleetSummary
  coverage : CoverageSummary
  laneSummaries : List LaneSummary
  outcomeClasses : List OutcomeClassSummary
  evidence : List EvidenceSummary
  priorProposalOutcomes : List PriorProposalOutcome
  redactionVersion : String
  deriving DecidableEq

/-! ## What the model demands -/

def isPartsPerMillion (value : ℤ) : Prop := 0 ≤ value ∧ value ≤ 1000000

instance (value : ℤ) : Decidable (isPartsPerMillion value) := by
  unfold isPartsPerMillion
  infer_instance

def TelemetryWindow.Valid (window : TelemetryWindow) : Prop :=
  isTimestamp window.startAt = true ∧ isTimestamp window.endAt = true ∧ 1 ≤ window.durationSeconds

/-- Numbers in their ranges, and `workers_are_bounded`. -/
def FleetSummary.Valid (fleet : FleetSummary) : Prop :=
  1 ≤ fleet.workersExpected ∧ 0 ≤ fleet.workersRunning ∧ 0 ≤ fleet.workersStalled
    ∧ 0 ≤ fleet.executionsTotal ∧ 0 ≤ fleet.executionsPerSecondMilli ∧ 0 ≤ fleet.queueEntries
    ∧ 0 ≤ fleet.favoredEntries ∧ 0 ≤ fleet.pendingEntries
    ∧ fleet.workersRunning + fleet.workersStalled ≤ fleet.workersExpected
    ∧ fleet.favoredEntries ≤ fleet.queueEntries ∧ fleet.pendingEntries ≤ fleet.queueEntries

def CoverageSummary.Valid (coverage : CoverageSummary) : Prop :=
  0 ≤ coverage.pathsTotal ∧ 0 ≤ coverage.pathsNewInWindow ∧ 0 ≤ coverage.edgesTotal
    ∧ 0 ≤ coverage.edgesNewInWindow ∧ isPartsPerMillion coverage.bitmapDensityPpm
    ∧ 0 ≤ coverage.corpusBytesTotal ∧ 0 ≤ coverage.corpusEntryBytesP50
    ∧ 0 ≤ coverage.corpusEntryBytesP95

/-- Numbers in their ranges, and `reproducible_is_subset`. -/
def OutcomeClassSummary.Valid (item : OutcomeClassSummary) : Prop :=
  isSymbol item.outcomeClass = true ∧ 0 ≤ item.count ∧ 0 ≤ item.reproducibleCount
    ∧ item.reproducibleCount ≤ item.count

def LaneSummary.Valid (item : LaneSummary) : Prop :=
  0 ≤ item.workersRunning ∧ 0 ≤ item.executionsTotal ∧ 0 ≤ item.executionsPerSecondMilli
    ∧ 0 ≤ item.queueEntries ∧ 0 ≤ item.pathsNewInWindow ∧ 0 ≤ item.novelOutcomesInWindow
    ∧ 0 ≤ item.timeoutCount ∧ isPartsPerMillion item.instabilityPpm

def EvidenceSummary.Valid (item : EvidenceSummary) : Prop :=
  isEvidenceRef item.evidenceRef = true ∧ 1 ≤ item.summary.length ∧ item.summary.length ≤ 800
    ∧ isSanitizedText item.summary = true ∧ 1 ≤ item.observationCount

def validTargetHashes (hashes : Models.TargetHashes) : Prop :=
  isDigest hashes.harnessHash = true ∧ isDigest hashes.compilerHash = true
    ∧ isDigest hashes.opTableHash = true ∧ isDigest hashes.fleetConfigHash = true

/-- A kernel release of one to eighty characters. -/
def isKernelRelease (text : String) : Prop :=
  1 ≤ text.length ∧ text.length ≤ 80 ∧ isSanitizedText text = true

section Decidable

instance (window : TelemetryWindow) : Decidable window.Valid := by
  unfold TelemetryWindow.Valid
  infer_instance

instance (fleet : FleetSummary) : Decidable fleet.Valid := by
  unfold FleetSummary.Valid
  infer_instance

instance (coverage : CoverageSummary) : Decidable coverage.Valid := by
  unfold CoverageSummary.Valid
  infer_instance

instance (item : OutcomeClassSummary) : Decidable item.Valid := by
  unfold OutcomeClassSummary.Valid
  infer_instance

instance (item : LaneSummary) : Decidable item.Valid := by
  unfold LaneSummary.Valid
  infer_instance

instance (item : EvidenceSummary) : Decidable item.Valid := by
  unfold EvidenceSummary.Valid
  infer_instance

instance (hashes : Models.TargetHashes) : Decidable (validTargetHashes hashes) := by
  unfold validTargetHashes
  infer_instance

instance (text : String) : Decidable (isKernelRelease text) := by
  unfold isKernelRelease
  infer_instance

end Decidable

namespace PacketData

variable (data : PacketData)

/-- `require_one_summary_per_lane`: each lane once, and evidence under different references. -/
def OneSummaryPerLane : Prop :=
  LaneKind.stableCoverage ∈ data.laneSummaries.map LaneSummary.lane
    ∧ LaneKind.probabilisticRace ∈ data.laneSummaries.map LaneSummary.lane
    ∧ (data.laneSummaries.map LaneSummary.lane).Nodup
    ∧ (data.evidence.map EvidenceSummary.evidenceRef).Nodup

/-- The identifiers, texts and times of the packet itself. -/
def HeaderValid : Prop :=
  isIdentifier data.packetId = true ∧ isDigest data.packetHash = true
    ∧ isTimestamp data.generatedAt = true ∧ isIdentifier data.fleetId = true
    ∧ isIdentifier data.campaignId = true ∧ isKernelRelease data.kernelRelease
    ∧ validTargetHashes data.targetHashes ∧ isIdentifier data.redactionVersion = true

/-- The lists of the packet. -/
def ListsValid : Prop :=
  data.laneSummaries.length = 2 ∧ (∀ item ∈ data.laneSummaries, item.Valid)
    ∧ data.outcomeClasses.length ≤ 24 ∧ (∀ item ∈ data.outcomeClasses, item.Valid)
    ∧ data.evidence.length ≤ 24 ∧ (∀ item ∈ data.evidence, item.Valid)
    ∧ data.priorProposalOutcomes.length ≤ 12

def Valid : Prop :=
  data.HeaderValid ∧ data.window.Valid ∧ data.fleet.Valid ∧ data.coverage.Valid ∧ data.ListsValid
    ∧ data.OneSummaryPerLane

instance : Decidable data.OneSummaryPerLane := by
  unfold OneSummaryPerLane
  infer_instance

instance : Decidable data.HeaderValid := by
  unfold HeaderValid
  infer_instance

instance : Decidable data.ListsValid := by
  unfold ListsValid
  infer_instance

instance : Decidable data.Valid := by
  unfold Valid
  infer_instance

end PacketData

/-- A packet that the strict model accepts. -/
abbrev TelemetryPacket := {data : PacketData // data.Valid}

/-! ## The value of a packet -/

def targetHashesJson (hashes : Models.TargetHashes) : Json :=
  .obj [("harness_hash", .str hashes.harnessHash), ("compiler_hash", .str hashes.compilerHash),
    ("op_table_hash", .str hashes.opTableHash),
    ("fleet_config_hash", .str hashes.fleetConfigHash)]

def TelemetryWindow.toJson (window : TelemetryWindow) : Json :=
  .obj [("start_at", .str window.startAt), ("end_at", .str window.endAt),
    ("duration_seconds", .num window.durationSeconds)]

def FleetSummary.toJson (fleet : FleetSummary) : Json :=
  .obj [("workers_expected", .num fleet.workersExpected),
    ("workers_running", .num fleet.workersRunning), ("workers_stalled", .num fleet.workersStalled),
    ("executions_total", .num fleet.executionsTotal),
    ("executions_per_second_milli", .num fleet.executionsPerSecondMilli),
    ("queue_entries", .num fleet.queueEntries), ("favored_entries", .num fleet.favoredEntries),
    ("pending_entries", .num fleet.pendingEntries)]

def CoverageSummary.toJson (coverage : CoverageSummary) : Json :=
  .obj [("paths_total", .num coverage.pathsTotal),
    ("paths_new_in_window", .num coverage.pathsNewInWindow),
    ("edges_total", .num coverage.edgesTotal),
    ("edges_new_in_window", .num coverage.edgesNewInWindow),
    ("bitmap_density_ppm", .num coverage.bitmapDensityPpm),
    ("corpus_bytes_total", .num coverage.corpusBytesTotal),
    ("corpus_entry_bytes_p50", .num coverage.corpusEntryBytesP50),
    ("corpus_entry_bytes_p95", .num coverage.corpusEntryBytesP95)]

def OutcomeClassSummary.toJson (item : OutcomeClassSummary) : Json :=
  .obj [("outcome_class", .str item.outcomeClass), ("count", .num item.count),
    ("reproducible_count", .num item.reproducibleCount)]

def LaneSummary.toJson (item : LaneSummary) : Json :=
  .obj [("lane", .str (laneText item.lane)), ("workers_running", .num item.workersRunning),
    ("executions_total", .num item.executionsTotal),
    ("executions_per_second_milli", .num item.executionsPerSecondMilli),
    ("queue_entries", .num item.queueEntries),
    ("paths_new_in_window", .num item.pathsNewInWindow),
    ("novel_outcomes_in_window", .num item.novelOutcomesInWindow),
    ("timeout_count", .num item.timeoutCount), ("instability_ppm", .num item.instabilityPpm)]

def EvidenceSummary.toJson (item : EvidenceSummary) : Json :=
  .obj [("evidence_ref", .str item.evidenceRef), ("kind", .str item.kind.text),
    ("summary", .str item.summary), ("observation_count", .num item.observationCount)]

def priorOutcomeJson (item : PriorProposalOutcome) : Json :=
  .obj [("proposal_id", .str item.proposalId.val), ("outcome", .str (outcomeText item.outcome)),
    ("executions", .num item.executions), ("paths_gained", .num item.pathsGained),
    ("novel_outcomes", .num item.novelOutcomes), ("summary", .str item.summary.val)]

def externalizationJson (redactionVersion : String) : Json :=
  .obj [("redaction_version", .str redactionVersion), ("sanitized_for_external_api", .bool true),
    ("contains_raw_logs", .bool false), ("contains_seed_bytes", .bool false),
    ("contains_source_code", .bool false), ("contains_filesystem_paths", .bool false),
    ("contains_usernames", .bool false), ("contains_credentials", .bool false),
    ("contains_crash_traces", .bool false)]

namespace PacketData

variable (data : PacketData)

/-- The fields without the hash of the packet. -/
def hashMaterial : List (String × Json) :=
  [("schema_version", .str "telemetry.v1"), ("packet_id", .str data.packetId),
    ("generated_at", .str data.generatedAt), ("fleet_id", .str data.fleetId),
    ("campaign_id", .str data.campaignId), ("kernel_release", .str data.kernelRelease),
    ("target_hashes", targetHashesJson data.targetHashes), ("window", data.window.toJson),
    ("fleet", data.fleet.toJson), ("coverage", data.coverage.toJson),
    ("lane_summaries", .arr (data.laneSummaries.map LaneSummary.toJson)),
    ("outcome_classes", .arr (data.outcomeClasses.map OutcomeClassSummary.toJson)),
    ("evidence", .arr (data.evidence.map EvidenceSummary.toJson)),
    ("prior_proposal_outcomes", .arr (data.priorProposalOutcomes.map priorOutcomeJson)),
    ("externalization", externalizationJson data.redactionVersion)]

/-- `model_dump(mode="json")`. -/
def fields : List (String × Json) := ("packet_hash", .str data.packetHash) :: data.hashMaterial

end PacketData

/-! ## Evidence and lanes of a packet -/

section Packet

variable {packet : TelemetryPacket}

theorem nodup_lane : (packet.val.laneSummaries.map LaneSummary.lane).Nodup :=
  packet.property.2.2.2.2.2.2.2.1

theorem nodup_evidenceRef : (packet.val.evidence.map EvidenceSummary.evidenceRef).Nodup :=
  packet.property.2.2.2.2.2.2.2.2

theorem exists_lane (packet : TelemetryPacket) (lane : LaneKind) : ∃ item ∈ packet.val.laneSummaries, item.lane = lane := by
  have h := packet.property.2.2.2.2.2
  cases lane with
  | stableCoverage => simpa using h.1
  | probabilisticRace => simpa using h.2.1

end Packet

end IouAi.Telemetry
