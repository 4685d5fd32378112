import IouAi.Foundations.StableSort
import IouAi.Pipeline.Packet

/-!
# The material of a packet

What of a packet may make the scheduler pay for a run: a projection whose lists are in the order of
their keys, and the digest of its canonical text. Packets that differ in volatile values and in the
order of their lists have one material exactly when they report the entries of each outcome class in
one order (`materialText_eq_iff`), which matters where a class has several entries.
-/

namespace IouAi.Telemetry

open Feedback Models StableSort Wire

/-! ## Authorities -/

/-- The software that the host has installed: constants of its modules. -/
structure Installation where
  compilerVersion : String
  compilerHash : Digest
  plannerInstructions : String
  reviewerSystem : String
  auditorSystem : String
  proposalSchema : Json
  reviewSchema : Json
  validatorHash : Digest
  validatorVersion : String

structure ProviderConfig where
  name : String
  model : String
  reasoningEffort : String
  maxInputTokens : ℤ
  maxOutputTokens : ℤ

structure AuditorConfig where
  enabled : Bool
  sampleEvery : ℤ
  provider : ProviderConfig

structure AppConfig where
  planner : ProviderConfig
  reviewer : ProviderConfig
  auditor : AuditorConfig

/-- `software_authority`, from the dumped contract. -/
def softwareAuthority (sha256 : Sha256) (installation : Installation) (contract : Json) : Json :=
  .obj [("compiler_version", .str installation.compilerVersion),
    ("compiler_hash", .str installation.compilerHash),
    ("contract_digest", .str (jsonDigest sha256 contract)),
    ("planner_prompt_digest", .str (jsonDigest sha256 (.str installation.plannerInstructions))),
    ("reviewer_prompt_digest", .str (jsonDigest sha256 (.str installation.reviewerSystem))),
    ("auditor_prompt_digest", .str (jsonDigest sha256 (.str installation.auditorSystem))),
    ("proposal_schema_digest", .str (jsonDigest sha256 installation.proposalSchema)),
    ("review_schema_digest", .str (jsonDigest sha256 installation.reviewSchema)),
    ("validator_hash", .str installation.validatorHash),
    ("validator_version", .str installation.validatorVersion)]

def ProviderConfig.material (provider : ProviderConfig) : Json :=
  .obj [("provider", .str provider.name), ("model", .str provider.model),
    ("reasoning_effort", .str provider.reasoningEffort),
    ("max_input_tokens", .num provider.maxInputTokens),
    ("max_output_tokens", .num provider.maxOutputTokens)]

def AuditorConfig.material (auditor : AuditorConfig) : Json :=
  .obj [("enabled", .bool auditor.enabled), ("sample_every", .num auditor.sampleEvery),
    ("provider", .str auditor.provider.name), ("model", .str auditor.provider.model),
    ("reasoning_effort", .str auditor.provider.reasoningEffort)]

/-- `provider_authority`. -/
def providerAuthority : Option AppConfig → Json
  | none => .null
  | some config =>
    .obj [("planner", config.planner.material), ("reviewer", config.reviewer.material),
      ("auditor", config.auditor.material)]

/-! ## Material -/

/-- `_EXTERNAL_EVIDENCE_KINDS`. -/
def EvidenceKind.isExternal : EvidenceKind → Bool
  | .kernelPatch | .mailThread | .outcomeClass | .priorProposal | .raceSignal => true
  | .coverageDelta | .corpusShape | .stallSignal => false

/-- What the material keeps of an item of evidence. -/
structure MaterialEvidence where
  evidenceRef : String
  kind : EvidenceKind
  summary : String
  deriving DecidableEq

def MaterialEvidence.key (item : MaterialEvidence) : String ×ₗ String :=
  toLex (item.kind.text, item.evidenceRef)

def MaterialEvidence.toJson (item : MaterialEvidence) : Json :=
  .obj [("evidence_ref", .str item.evidenceRef), ("kind", .str item.kind.text),
    ("summary", .str item.summary)]

/-- What the material keeps of a lane. -/
structure LaneState where
  lane : LaneKind
  hasNovelOutcome : Bool
  deriving DecidableEq

def LaneState.key (state : LaneState) : String := laneText state.lane

def LaneState.toJson (state : LaneState) : Json :=
  .obj [("lane", .str (laneText state.lane)), ("has_novel_outcome", .bool state.hasNovelOutcome)]

section Material

variable (packet : TelemetryPacket)

def externalItems : List MaterialEvidence :=
  (packet.val.evidence.filter fun item => item.kind.isExternal).map fun item =>
    ⟨item.evidenceRef, item.kind, item.summary⟩

def externalEvidence : List MaterialEvidence := sortBy MaterialEvidence.key (externalItems packet)

def nonNormalItems : List OutcomeClassSummary :=
  packet.val.outcomeClasses.filter fun item => item.outcomeClass ≠ "normal_completion"

def nonNormalOutcomes : List OutcomeClassSummary :=
  sortBy OutcomeClassSummary.outcomeClass (nonNormalItems packet)

def laneItems : List LaneState :=
  packet.val.laneSummaries.map fun item => ⟨item.lane, 0 < item.novelOutcomesInWindow⟩

def laneStates : List LaneState := sortBy LaneState.key (laneItems packet)

def fleetHealth (fleet : FleetSummary) : Json :=
  .obj [("workers_expected", .num fleet.workersExpected),
    ("workers_running", .num fleet.workersRunning), ("workers_stalled", .num fleet.workersStalled)]

variable (sha256 : Sha256) (installation : Installation) (contract : Json) (config : Option AppConfig)

def meaningfulMaterial : List (String × Json) :=
  [("schema_version", .str "meaningful-trigger.v2"), ("campaign_id", .str packet.val.campaignId),
    ("fleet_id", .str packet.val.fleetId), ("kernel_release", .str packet.val.kernelRelease),
    ("target_hashes", targetHashesJson packet.val.targetHashes),
    ("fleet_health", fleetHealth packet.val.fleet),
    ("lane_states", .arr ((laneStates packet).map LaneState.toJson)),
    ("non_normal_outcomes", .arr ((nonNormalOutcomes packet).map OutcomeClassSummary.toJson)),
    ("external_evidence", .arr ((externalEvidence packet).map MaterialEvidence.toJson)),
    ("software_authority", softwareAuthority sha256 installation contract),
    ("provider_authority", providerAuthority config)]

/-- The text that the digest is of. -/
def materialText : Bytes :=
  canonicalJson (.obj (meaningfulMaterial packet sha256 installation contract config))

def materialDigest : Digest :=
  jsonDigest sha256 (.obj (meaningfulMaterial packet sha256 installation contract config))

end Material

/-! ## Packets that differ in volatile values -/

/-- The two packets agree on what they are about and on the workers, on the lanes with novel outcomes,
and, up to their order, on the external evidence and the outcomes other than normal ones. -/
structure Alike (packet other : TelemetryPacket) : Prop where
  campaignId : packet.val.campaignId = other.val.campaignId
  fleetId : packet.val.fleetId = other.val.fleetId
  kernelRelease : packet.val.kernelRelease = other.val.kernelRelease
  targetHashes : packet.val.targetHashes = other.val.targetHashes
  workersExpected : packet.val.fleet.workersExpected = other.val.fleet.workersExpected
  workersRunning : packet.val.fleet.workersRunning = other.val.fleet.workersRunning
  workersStalled : packet.val.fleet.workersStalled = other.val.fleet.workersStalled
  novel : ∀ lane,
    (∃ item ∈ packet.val.laneSummaries, item.lane = lane ∧ 0 < item.novelOutcomesInWindow)
      ↔ ∃ item ∈ other.val.laneSummaries, item.lane = lane ∧ 0 < item.novelOutcomesInWindow
  external : (externalItems packet).Perm (externalItems other)
  nonNormal : (nonNormalItems packet).Perm (nonNormalItems other)

/-- The entries of each outcome class are in one order, normal completions aside. -/
def SameOrder (packet other : TelemetryPacket) : Prop :=
  ∀ outcomeClass, (nonNormalItems packet).filter (fun item => item.outcomeClass = outcomeClass)
    = (nonNormalItems other).filter fun item => item.outcomeClass = outcomeClass

section Alike

variable {packet other : TelemetryPacket}

theorem evidenceText_injective : Function.Injective EvidenceKind.text := by
  intro kind kind' h
  cases kind <;> cases kind' <;> first | rfl | exact absurd h (by decide)

theorem laneText_injective : Function.Injective laneText := by
  intro lane lane' h
  cases lane <;> cases lane' <;> first | rfl | exact absurd h (by decide)

theorem nodup_externalItems : ((externalItems packet).map MaterialEvidence.key).Nodup := by
  have hrefs : ((packet.val.evidence.filter fun item => item.kind.isExternal).map
      EvidenceSummary.evidenceRef).Nodup :=
    nodup_evidenceRef.sublist (List.filter_sublist.map _)
  rw [externalItems, List.map_map]
  refine List.Nodup.of_map (fun key => (ofLex key).2) ?_
  rw [List.map_map]
  exact hrefs

theorem externalEvidence_eq (h : Alike packet other) :
    externalEvidence packet = externalEvidence other :=
  sortBy_eq_of_perm h.external nodup_externalItems

theorem nodup_laneItems : ((laneItems packet).map LaneState.key).Nodup := by
  rw [laneItems, List.map_map]
  have hlanes : (packet.val.laneSummaries.map LaneSummary.lane).Nodup := nodup_lane
  have htexts := hlanes.map laneText_injective
  rwa [List.map_map] at htexts

/-- A lane is reported with whether it has a novel outcome. -/
theorem mem_laneItems {state : LaneState} : state ∈ laneItems packet
    ↔ (state.hasNovelOutcome = true ↔ ∃ item ∈ packet.val.laneSummaries,
      item.lane = state.lane ∧ 0 < item.novelOutcomesInWindow) := by
  obtain ⟨item, hitem, hlane⟩ := exists_lane packet state.lane
  have hunique : ∀ item' ∈ packet.val.laneSummaries, item'.lane = state.lane → item' = item :=
    fun item' hitem' hlane' => List.inj_on_of_nodup_map nodup_lane hitem' hitem (hlane'.trans hlane.symm)
  have hnovel : (∃ item ∈ packet.val.laneSummaries,
      item.lane = state.lane ∧ 0 < item.novelOutcomesInWindow) ↔ 0 < item.novelOutcomesInWindow := by
    constructor
    · rintro ⟨item', hitem', hlane', hpos⟩
      rwa [← hunique item' hitem' hlane']
    · exact fun hpos => ⟨item, hitem, hlane, hpos⟩
  rw [hnovel, laneItems, List.mem_map]
  constructor
  · rintro ⟨item', hitem', rfl⟩
    rw [hunique item' hitem' rfl]
    simp
  · intro hiff
    refine ⟨item, hitem, ?_⟩
    obtain ⟨lane, hasNovelOutcome⟩ := state
    have hlane' : item.lane = lane := hlane
    have hflag : decide (0 < item.novelOutcomesInWindow) = hasNovelOutcome := by
      rw [Bool.eq_iff_iff, decide_eq_true_eq]
      exact hiff.symm
    rw [hlane', hflag]

theorem laneStates_eq (h : Alike packet other) : laneStates packet = laneStates other := by
  refine sortBy_eq_of_perm ?_ nodup_laneItems
  refine (List.perm_ext_iff_of_nodup nodup_laneItems.of_map nodup_laneItems.of_map).mpr fun state => ?_
  rw [mem_laneItems, mem_laneItems, h.novel]

theorem nonNormalOutcomes_eq_iff :
    nonNormalOutcomes packet = nonNormalOutcomes other ↔ SameOrder packet other := sortBy_eq_iff

theorem plain_map {α : Type} (f : α → Json) (items : List α) (h : ∀ item, (f item).Plain) :
    Json.PlainItems (items.map f) := by
  rw [Json.plainItems_iff]
  intro value hvalue
  obtain ⟨item, -, rfl⟩ := List.mem_map.mp hvalue
  exact h item

variable (packet) (sha256 : Sha256) (installation : Installation) (contract : Json)
  (config : Option AppConfig)

theorem plain_meaningfulMaterial :
    Json.PlainFields (meaningfulMaterial packet sha256 installation contract config) := by
  have hlanes := plain_map LaneState.toJson (laneStates packet) fun _ => by
    simp [LaneState.toJson, Json.Plain, Json.PlainFields]
  have houtcomes := plain_map OutcomeClassSummary.toJson (nonNormalOutcomes packet) fun _ => by
    simp [OutcomeClassSummary.toJson, Json.Plain, Json.PlainFields]
  have hevidence := plain_map MaterialEvidence.toJson (externalEvidence packet) fun _ => by
    simp [MaterialEvidence.toJson, Json.Plain, Json.PlainFields]
  have hproviders : (providerAuthority config).Plain := by
    cases config <;> simp [providerAuthority, ProviderConfig.material, AuditorConfig.material,
      Json.Plain, Json.PlainFields]
  simp [meaningfulMaterial, targetHashesJson, fleetHealth, softwareAuthority, Json.Plain,
    Json.PlainFields, hlanes, houtcomes, hevidence, hproviders]

variable {packet}

/-- The text of an entry determines the entry. -/
theorem outcomeText_injective :
    Function.Injective fun item : OutcomeClassSummary => Json.python.encode item.toJson := by
  intro item item' h
  have hplain : ∀ item : OutcomeClassSummary, item.toJson.Plain := fun _ => by
    simp [OutcomeClassSummary.toJson, Json.Plain, Json.PlainFields]
  have hstr : ∀ item : OutcomeClassSummary,
      item.toJson.field? "outcome_class" = some (.str item.outcomeClass) := fun _ => rfl
  have hnum : ∀ item : OutcomeClassSummary, item.toJson.field? "count" = some (.num item.count) :=
    fun _ => rfl
  have hnum' : ∀ item : OutcomeClassSummary,
      item.toJson.field? "reproducible_count" = some (.num item.reproducibleCount) := fun _ => rfl
  have hclass : item.outcomeClass = item'.outcomeClass :=
    Json.lookup_str_eq (hplain item) (hplain item') h (hstr item) (hstr item')
  have hcount : item.count = item'.count :=
    Json.lookup_num_eq (hplain item) (hplain item') h (hnum item) (hnum item')
  have hreproducible : item.reproducibleCount = item'.reproducibleCount :=
    Json.lookup_num_eq (hplain item) (hplain item') h (hnum' item) (hnum' item')
  obtain ⟨outcomeClass, count, reproducibleCount⟩ := item
  congr

/-- **Packets that differ in volatile values have one text exactly when the entries of each outcome
class are in one order.** -/
theorem materialText_eq_iff (h : Alike packet other) :
    materialText packet sha256 installation contract config
        = materialText other sha256 installation contract config
      ↔ SameOrder packet other := by
  rw [← nonNormalOutcomes_eq_iff]
  constructor
  · intro htext
    have hencode := encode_eq_of_canonicalJson_eq htext
    have hlookup := Json.lookup_encode_eq
      (plain_meaningfulMaterial packet sha256 installation contract config)
      (plain_meaningfulMaterial other sha256 installation contract config) hencode
      "non_normal_outcomes"
    have harrays : Json.python.encode (.arr ((nonNormalOutcomes packet).map OutcomeClassSummary.toJson))
        = Json.python.encode (.arr ((nonNormalOutcomes other).map OutcomeClassSummary.toJson)) :=
      Option.some.inj hlookup
    have hplain : ∀ items : List OutcomeClassSummary,
        Json.PlainItems (items.map OutcomeClassSummary.toJson) := fun items =>
      plain_map _ items fun _ => by simp [OutcomeClassSummary.toJson, Json.Plain, Json.PlainFields]
    have hitems := Json.items_encode_eq (hplain _) (hplain _) harrays
    rw [List.map_map, List.map_map] at hitems
    exact List.map_injective_iff.mpr outcomeText_injective hitems
  · intro houtcomes
    rw [materialText, materialText, meaningfulMaterial, meaningfulMaterial, h.campaignId, h.fleetId,
      h.kernelRelease, h.targetHashes, laneStates_eq h, externalEvidence_eq h, houtcomes, fleetHealth,
      fleetHealth, h.workersExpected, h.workersRunning, h.workersStalled]

theorem materialDigest_eq_of_sameOrder (h : Alike packet other) (horder : SameOrder packet other) :
    materialDigest packet sha256 installation contract config
      = materialDigest other sha256 installation contract config := by
  have htext := (materialText_eq_iff sha256 installation contract config h).mpr horder
  exact congrArg (contentDigest sha256) htext

/-- **When volatile values and the order of lists leave the digest alone**: when the entries of each
outcome class are in one order, or else when the hash takes two texts for one. -/
theorem materialDigest_eq_iff (packet other : TelemetryPacket) (h : Alike packet other) :
    materialDigest packet sha256 installation contract config
        = materialDigest other sha256 installation contract config
      ↔ SameOrder packet other
        ∨ (materialText packet sha256 installation contract config
            ≠ materialText other sha256 installation contract config
          ∧ sha256 (materialText packet sha256 installation contract config)
            = sha256 (materialText other sha256 installation contract config)) := by
  constructor
  · intro hdigest
    by_cases horder : SameOrder packet other
    · exact .inl horder
    · refine .inr ⟨fun htext =>
        horder ((materialText_eq_iff sha256 installation contract config h).mp htext), ?_⟩
      exact sha256_eq_of_contentDigest_eq hdigest
  · rintro (horder | ⟨-, hhash⟩)
    · exact materialDigest_eq_of_sameOrder sha256 installation contract config h horder
    · exact Subtype.ext (congrArg (fun hash : Vector UInt8 32 => "sha256:" ++ hexText hash.toList) hhash)

end Alike

/-! ## A class with two entries -/

section Entries

def zeroSha256 : Sha256 := fun _ => Vector.replicate 32 0

/-- A hash that tells one text from every other one. -/
def markSha256 (text : Bytes) : Sha256 := fun payload =>
  if payload = text then Vector.replicate 32 1 else Vector.replicate 32 0

def sampleInstallation : Installation where
  compilerVersion := "compiler"
  compilerHash := contentDigest zeroSha256 []
  plannerInstructions := ""
  reviewerSystem := ""
  auditorSystem := ""
  proposalSchema := .null
  reviewSchema := .null
  validatorHash := contentDigest zeroSha256 []
  validatorVersion := "semantic-validator.v4"

def sampleLane (lane : LaneKind) : LaneSummary := ⟨lane, 1, 0, 0, 0, 0, 0, 0, 0⟩

def sampleData (packetId : String) (outcomes : List OutcomeClassSummary) : PacketData where
  packetId := packetId
  packetHash := (contentDigest zeroSha256 []).val
  generatedAt := "2026-07-16T12:00:00Z"
  fleetId := "fleet:sample"
  campaignId := "campaign:sample"
  kernelRelease := "6.12"
  targetHashes := ⟨(contentDigest zeroSha256 []).val, (contentDigest zeroSha256 []).val,
    (contentDigest zeroSha256 []).val, (contentDigest zeroSha256 []).val⟩
  window := ⟨"2026-07-16T11:00:00Z", "2026-07-16T12:00:00Z", 3600⟩
  fleet := ⟨2, 2, 0, 0, 0, 0, 0, 0⟩
  coverage := ⟨0, 0, 0, 0, 0, 0, 0, 0⟩
  laneSummaries := [sampleLane .stableCoverage, sampleLane .probabilisticRace]
  outcomeClasses := outcomes
  evidence := []
  priorProposalOutcomes := []
  redactionVersion := "redaction:v1"

def oneTimeout : OutcomeClassSummary := ⟨"timeout", 1, 0⟩
def twoTimeouts : OutcomeClassSummary := ⟨"timeout", 2, 0⟩

def risingPacket : TelemetryPacket :=
  ⟨sampleData "packet:rising" [oneTimeout, twoTimeouts], by decide +kernel⟩

def fallingPacket : TelemetryPacket :=
  ⟨sampleData "packet:falling" [twoTimeouts, oneTimeout], by decide +kernel⟩

theorem alike_rising_falling : Alike risingPacket fallingPacket where
  campaignId := rfl
  fleetId := rfl
  kernelRelease := rfl
  targetHashes := rfl
  workersExpected := rfl
  workersRunning := rfl
  workersStalled := rfl
  novel _ := Iff.rfl
  external := .refl _
  nonNormal := .swap _ _ _

theorem materialDigest_eq_iff_rising :
    materialDigest risingPacket zeroSha256 sampleInstallation .null none
        = materialDigest fallingPacket zeroSha256 sampleInstallation .null none
      ↔ SameOrder risingPacket fallingPacket
        ∨ (materialText risingPacket zeroSha256 sampleInstallation .null none
            ≠ materialText fallingPacket zeroSha256 sampleInstallation .null none
          ∧ zeroSha256 (materialText risingPacket zeroSha256 sampleInstallation .null none)
            = zeroSha256 (materialText fallingPacket zeroSha256 sampleInstallation .null none)) :=
  materialDigest_eq_iff zeroSha256 sampleInstallation .null none risingPacket fallingPacket
    alike_rising_falling

/-- A value that is no object is not the marked text of one. -/
theorem jsonDigest_markSha256 {fields : List (String × Json)} (hfields : Json.PlainFields fields)
    {value : Json} (hvalue : value.Plain) (hkind : value.kind ≠ (Json.obj fields).kind) :
    jsonDigest (markSha256 (canonicalJson (.obj fields))) value = jsonDigest zeroSha256 value := by
  have hne : canonicalJson value ≠ canonicalJson (.obj fields) := by
    intro heq
    have hencode := congrArg String.toList (encode_eq_of_canonicalJson_eq heq)
    exact hkind (Json.kind_eq (s := []) (t := []) hvalue hfields (by rw [hencode]))
  have hsha : markSha256 (canonicalJson (.obj fields)) (canonicalJson value)
      = zeroSha256 (canonicalJson value) := if_neg hne
  exact Subtype.ext (congrArg (fun hash : Vector UInt8 32 => "sha256:" ++ hexText hash.toList) hsha)

/-- A hash that marks the text of the first packet. -/
def orderSha256 : Sha256 :=
  markSha256 (materialText risingPacket zeroSha256 sampleInstallation .null none)

theorem materialText_orderSha256 (packet : TelemetryPacket) :
    materialText packet orderSha256 sampleInstallation .null none
      = materialText packet zeroSha256 sampleInstallation .null none := by
  have hplain := plain_meaningfulMaterial risingPacket zeroSha256 sampleInstallation .null none
  have hnull : jsonDigest orderSha256 .null = jsonDigest zeroSha256 .null :=
    jsonDigest_markSha256 hplain trivial (by decide)
  have hempty : jsonDigest orderSha256 (.str "") = jsonDigest zeroSha256 (.str "") :=
    jsonDigest_markSha256 hplain trivial (by decide)
  have hauthority : softwareAuthority orderSha256 sampleInstallation .null
      = softwareAuthority zeroSha256 sampleInstallation .null := by
    simp only [softwareAuthority, sampleInstallation, hnull, hempty]
  rw [materialText, materialText, meaningfulMaterial, meaningfulMaterial, hauthority]

/-- Two entries of one class in two orders have two digests. -/
theorem digest_depends_on_order : Alike risingPacket fallingPacket
    ∧ materialDigest risingPacket orderSha256 sampleInstallation .null none
      ≠ materialDigest fallingPacket orderSha256 sampleInstallation .null none := by
  refine ⟨alike_rising_falling, fun hdigest => ?_⟩
  have hhash : orderSha256 (materialText risingPacket orderSha256 sampleInstallation .null none)
      = orderSha256 (materialText fallingPacket orderSha256 sampleInstallation .null none) :=
    sha256_eq_of_contentDigest_eq hdigest
  rw [materialText_orderSha256, materialText_orderSha256] at hhash
  have hne : materialText fallingPacket zeroSha256 sampleInstallation .null none
      ≠ materialText risingPacket zeroSha256 sampleInstallation .null none := by
    intro htext
    have horder := (materialText_eq_iff zeroSha256 sampleInstallation .null none
      alike_rising_falling).mp htext.symm "timeout"
    exact absurd horder (by decide)
  rw [orderSha256, markSha256, if_pos rfl, markSha256, if_neg hne] at hhash
  exact absurd hhash (by decide)

end Entries

end IouAi.Telemetry
