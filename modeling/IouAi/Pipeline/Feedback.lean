import IouAi.Authority.Lengths
import IouAi.Contract.Review
import IouAi.Foundations.JsonText
import IouAi.Foundations.Newest
import IouAi.Storage.Quarantine
import IouAi.Wire.Prompts
import IouAi.Wire.Texts
import Mathlib.Data.List.Dedup
import Mathlib.Data.List.Perm.Subperm
import Mathlib.Data.Prod.Lex
import Mathlib.Data.List.Infix

/-!
# Review feedback

A review is projected to a record without prose, the records are kept in a quarantine store of their
own, and the next planner request quotes the newest ones on its target. The loader reads the whole
store, sorts the records of the target from the newest to the oldest, and keeps the first one of each
proposal.
-/

namespace IouAi.Feedback

open Calendar Checks Newest Storage Wire
open Validator (VerdictKind FindingSeverity ResidualRisk)

/-! ## Records -/

inductive FindingCategory
  | semantic
  | safety
  | harnessMismatch
  | evidenceGap
  | privacy
  | determinism
  | budget
  | scope
  deriving DecidableEq

def FindingCategory.text : FindingCategory → String
  | .semantic => "semantic"
  | .safety => "safety"
  | .harnessMismatch => "harness_mismatch"
  | .evidenceGap => "evidence_gap"
  | .privacy => "privacy"
  | .determinism => "determinism"
  | .budget => "budget"
  | .scope => "scope"

def severityText : FindingSeverity → String
  | .critical => "critical"
  | .high => "high"
  | .medium => "medium"
  | .low => "low"
  | .info => "info"

def verdictText : VerdictKind → String
  | .accept => "accept"
  | .reject => "reject"
  | .escalate => "escalate"

def riskText : ResidualRisk → String
  | .low => "low"
  | .medium => "medium"
  | .high => "high"
  | .critical => "critical"

/-- `^evidence:[a-z0-9][a-z0-9._:-]*$`, of at most ninety-six characters. -/
def isEvidenceRef (text : String) : Bool :=
  text.toList.take 9 = "evidence:".toList && text.toList.length ≤ 96
    && isIdentifier (String.ofList (text.toList.drop 9))

abbrev EvidenceRef := {text : String // isEvidenceRef text = true}

/-- `sorted(set(texts))`. -/
def sortedSet (texts : List String) : List String :=
  texts.dedup.insertionSort fun text other => text ≤ other

/-- The texts are in strict order. -/
def Increasing (texts : List String) : Prop := texts.Pairwise fun text other => text < other

structure SanitizedFinding where
  category : FindingCategory
  severity : FindingSeverity
  evidenceRefs : List EvidenceRef
  evidenceRefs_le : evidenceRefs.length ≤ 12
  canonical_refs : Increasing (evidenceRefs.map Subtype.val)

namespace SanitizedFinding

variable (finding : SanitizedFinding)

/-- `_finding_key`, as one list of texts. -/
def findingKey : List String :=
  finding.category.text :: severityText finding.severity :: finding.evidenceRefs.map Subtype.val

/-- The kind of a finding in a summary. -/
def token : String := finding.category.text ++ "/" ++ severityText finding.severity

def toJson : Json :=
  .obj [("category", .str finding.category.text), ("severity", .str (severityText finding.severity)),
    ("evidence_refs", .arr (finding.evidenceRefs.map fun ref : EvidenceRef => .str ref.val))]

end SanitizedFinding

/-- `_record_summary`. -/
def recordSummary (verdict : VerdictKind) (residualRisk : ResidualRisk)
    (findings : List SanitizedFinding) (evidenceRefs : List EvidenceRef) : String :=
  let pairs := sortedSet (findings.map SanitizedFinding.token)
  let findingText := if pairs = [] then "none" else ",".intercalate pairs
  "Independent review verdict=" ++ verdictText verdict ++ "; residual_risk=" ++ riskText residualRisk
    ++ "; finding_kinds=" ++ findingText ++ "; evidence_ref_count="
    ++ toString evidenceRefs.length ++ "."

/-- A record; its summary is the one that the projector writes. -/
structure ReviewFeedbackRecord where
  createdAt : Timestamp
  proposalId : Identifier
  packetId : Identifier
  proposalHash : Digest
  packetHash : Digest
  reviewerVerdictHash : Digest
  targetHashes : TargetHashes
  verdict : VerdictKind
  residualRisk : ResidualRisk
  safeForQuarantine : Bool
  findings : List SanitizedFinding
  checkedEvidenceRefs : List EvidenceRef
  findings_le : findings.length ≤ 32
  refs_le : checkedEvidenceRefs.length ≤ 24
  canonical_findings : (findings.map SanitizedFinding.findingKey).Pairwise fun key other => key < other
  canonical_refs : Increasing (checkedEvidenceRefs.map Subtype.val)
  refs_checked : ∀ finding ∈ findings, ∀ ref ∈ finding.evidenceRefs, ref ∈ checkedEvidenceRefs
  safe_iff : safeForQuarantine = true ↔ verdict = .accept
  accepted : verdict = .accept → ∀ finding ∈ findings, finding.severity.severe = false
  summary_le : (recordSummary verdict residualRisk findings checkedEvidenceRefs).length ≤ 1600

namespace ReviewFeedbackRecord

variable (record : ReviewFeedbackRecord)

/-- `model_dump(mode="json")`. -/
def fields : QuarantineStore.Envelope :=
  [("schema_version", .str "review-feedback.v1"),
    ("trust", .str "untrusted_model_review_sanitized"), ("created_at", .str record.createdAt),
    ("proposal_id", .str record.proposalId), ("packet_id", .str record.packetId),
    ("proposal_hash", .str record.proposalHash), ("packet_hash", .str record.packetHash),
    ("reviewer_verdict_hash", .str record.reviewerVerdictHash),
    ("target_hashes", record.targetHashes.toJson), ("verdict", .str (verdictText record.verdict)),
    ("residual_risk", .str (riskText record.residualRisk)),
    ("safe_for_quarantine", .bool record.safeForQuarantine),
    ("findings", .arr (record.findings.map SanitizedFinding.toJson)),
    ("checked_evidence_refs", .arr (record.checkedEvidenceRefs.map fun ref : EvidenceRef => .str ref.val)),
    ("validation_basis", .str "review.binding+review.evidence+review.finding-targets"),
    ("local_summary", .str (recordSummary record.verdict record.residualRisk record.findings
      record.checkedEvidenceRefs))]

/-- The text of the record in its file. -/
def payload : Bytes := canonicalJson (.obj record.fields)

/-- What makes two records reviews of one proposal. -/
def key : String × String × String := (record.proposalId, record.proposalHash, record.packetHash)

end ReviewFeedbackRecord

/-! ## Outcomes -/

inductive FeedbackError
  | content (error : QuarantineError)
  | strictValidation
  | limit
  | createdAt
  | summaryBound
  | summaryText
  deriving DecidableEq

/-- Tokens, with the count of those that are left out. -/
def rendered (selected : List String) (omitted : ℕ) : String :=
  if omitted ≠ 0 then ",".intercalate selected ++ ",+" ++ toString omitted ++ "_more"
  else ",".intercalate selected

/-- The loop of `_bounded_tokens`: the tokens that fit, each with the count of those after it. -/
def selectTokens (characterLimit : ℤ) (selected : List String) : List String → List String
  | [] => selected
  | token :: tokens =>
    if characterLimit < (rendered (selected ++ [token]) tokens.length).length then selected
    else selectTokens characterLimit (selected ++ [token]) tokens

/-- `_bounded_tokens`. -/
def boundedTokens (tokens : List String) (characterLimit : ℤ) : String :=
  if tokens = [] then "none"
  else
    let selected := selectTokens characterLimit [] tokens
    let omitted := tokens.length - selected.length
    if selected = [] then "+" ++ toString omitted ++ "_more" else rendered selected omitted

/-- Texts that a sanitized text may not contain. -/
def forbiddenTextFragments : List String :=
  ["-----begin private key-----", "authorization: bearer", "x-api-key:", "api_key=", "password=",
    "passwd=", "ssh-rsa ", "ssh-ed25519 ", "#!/bin/", "powershell -", "sh -c ", "bash -c "]

/-- White space of `str.strip` among the ASCII characters. -/
def isSpace (c : Char) : Bool :=
  c = ' ' || (9 ≤ c.toNat && c.toNat ≤ 13) || (28 ≤ c.toNat && c.toNat ≤ 31)

/-- `_validate_sanitized_text` on a text of ASCII characters. -/
def isSanitized (text : String) : Bool :=
  text.toList.head?.all (fun c => !isSpace c) && text.toList.getLast?.all (fun c => !isSpace c)
    && text.toList.all (fun c => c ≠ '\n' && c ≠ '\r' && c ≠ '\x00')
    && forbiddenTextFragments.all fun fragment =>
      ¬ fragment.toList <:+: text.toList.map Char.toLower

inductive OutcomeKind
  | noChange
  | coverageGain
  | novelOutcome
  | unstable
  | rejected
  | notRun
  deriving DecidableEq

/-- A sanitized text of at most 240 characters. -/
abbrev ShortText :=
  {text : String // 1 ≤ text.length ∧ text.length ≤ 240 ∧ isSanitized text = true}

structure PriorProposalOutcome where
  proposalId : Identifier
  outcome : OutcomeKind
  executions : ℕ
  pathsGained : ℕ
  novelOutcomes : ℕ
  summary : ShortText
  deriving DecidableEq

namespace ReviewFeedbackRecord

variable (record : ReviewFeedbackRecord)

def findingTokens : List String := sortedSet (record.findings.map SanitizedFinding.token)

def allRefs : List String :=
  sortedSet (record.checkedEvidenceRefs.map Subtype.val
    ++ record.findings.flatMap fun finding => finding.evidenceRefs.map Subtype.val)

/-- The text that the next request quotes. -/
def outcomeSummary : String :=
  "Claude review verdict=" ++ verdictText record.verdict ++ "; risk=" ++ riskText record.residualRisk
    ++ "; findings=" ++ boundedTokens record.findingTokens 72 ++ "; refs="
    ++ boundedTokens record.allRefs 72 ++ "."

/-- `to_prior_proposal_outcome`. -/
def toPriorProposalOutcome : Except FeedbackError PriorProposalOutcome := do
  raiseIf (240 < record.outcomeSummary.length) .summaryBound
  if h : 1 ≤ record.outcomeSummary.length ∧ record.outcomeSummary.length ≤ 240 ∧
      isSanitized record.outcomeSummary = true then
    .ok ⟨record.proposalId, if record.verdict = .accept then .notRun else .rejected, 0, 0, 0,
      ⟨record.outcomeSummary, h⟩⟩
  else .error .summaryText

end ReviewFeedbackRecord

/-! ## The store -/

section Store

variable (sha256 : Sha256) (loads : Parse Json) (parseRecord : Parse ReviewFeedbackRecord)

def maxFeedbackBytes : ℕ := 64 * 1024

def maxFeedbackItems : ℕ := 1024

/-- `FeedbackStore.put`; a collision stores nothing. -/
def put (store : Quarantine) (record : ReviewFeedbackRecord) : Quarantine :=
  match QuarantineStore.put sha256 store record.fields with
  | .error _ => store
  | .ok (_, stored) => stored

/-- The store after some records were put. -/
def putAll (records : List ReviewFeedbackRecord) : Quarantine := records.foldl (put sha256) .empty

/-- One step of `iter_verified`. -/
def verify (store : Quarantine) (digest : Digest) :
    Except FeedbackError (Digest × ReviewFeedbackRecord) := do
  let raw ← (QuarantineStore.get sha256 loads maxFeedbackBytes store digest).mapError .content
  match parseRecord (canonicalJson (.obj raw)) with
  | none => throw .strictValidation
  | some record => return (digest, record)

/-- `FeedbackStore.iter_verified`, read to its end. -/
def iterVerified (store : Quarantine) : Except FeedbackError (List (Digest × ReviewFeedbackRecord)) := do
  let found ← ((QuarantineStore.names store).take maxFeedbackItems).mapM
    (verify sha256 loads parseRecord store)
  raiseIf (maxFeedbackItems < (QuarantineStore.names store).length) (.content .countLimit)
  return found

/-! ## The loader -/

/-- `datetime.fromisoformat`, as the microseconds of the instant. -/
def createdMicros (time : Timestamp) : Option ℤ :=
  (timestampFields time).bind fun fields =>
    if fields.Valid ∧ 1 ≤ fields.year ∧ fields.hour ≤ 23 then some fields.micros else none

/-- A record of the target with its sort key. -/
structure Entry where
  createdAt : ℤ
  digest : Digest
  record : ReviewFeedbackRecord

namespace Entry

def key (entry : Entry) : String × String × String := entry.record.key

/-- The sort key: the time, then the digest. -/
def rank (entry : Entry) : ℤ ×ₗ String := toLex (entry.createdAt, entry.digest.val)

def read (item : Digest × ReviewFeedbackRecord) : Except FeedbackError Entry :=
  match createdMicros item.2.createdAt with
  | none => .error .createdAt
  | some createdAt => .ok ⟨createdAt, item.1, item.2⟩

end Entry

/-- `load_prior_proposal_outcomes`. -/
def loadPriorProposalOutcomes (store : Quarantine) (targetHashes : TargetHashes) (limit : ℤ) :
    Except FeedbackError (List PriorProposalOutcome) := do
  raiseIf (¬ (0 ≤ limit ∧ limit ≤ 12)) .limit
  if limit = 0 then return []
  let found ← iterVerified sha256 loads parseRecord store
  let entries ← (found.filter fun item => item.2.targetHashes = targetHashes).mapM Entry.read
  (takeDistinct Entry.key limit.toNat [] (newestFirst Entry.rank entries)).mapM
    fun entry => entry.record.toPriorProposalOutcome

/-! ## What the loader is for -/

/-- The record in a file. -/
def recordOf (file : Digest × Bytes) : Option (Digest × ReviewFeedbackRecord) :=
  (parseRecord file.2).map fun record => (file.1, record)

/-- The records in the files of the store. -/
def held (store : Quarantine) : List (Digest × ReviewFeedbackRecord) :=
  store.entries.filterMap (recordOf parseRecord)

/-- The records that are bound to the target. -/
def boundItems (store : Quarantine) (targetHashes : TargetHashes) :
    List (Digest × ReviewFeedbackRecord) :=
  (held parseRecord store).filter fun item => item.2.targetHashes = targetHashes

def Entry.of (item : Digest × ReviewFeedbackRecord) : Option Entry :=
  (createdMicros item.2.createdAt).map fun createdAt => ⟨createdAt, item.1, item.2⟩

/-- The newest record of each proposal among those that are bound to the target, the newest ones
first. -/
def newestEntries (store : Quarantine) (targetHashes : TargetHashes) (limit : ℕ) : List Entry :=
  (newestFirst Entry.rank (newest Entry.key Entry.rank
    ((boundItems parseRecord store targetHashes).filterMap Entry.of))).take limit

/-- The loader returns the outcomes of the newest records. -/
def Returns (store : Quarantine) (targetHashes : TargetHashes) (limit : ℕ) : Prop :=
  ∃ outcomes, loadPriorProposalOutcomes sha256 loads parseRecord store targetHashes limit
      = .ok outcomes ∧
    List.Forall₂ (fun entry outcome => entry.record.toPriorProposalOutcome = .ok outcome)
      (newestEntries parseRecord store targetHashes limit) outcomes

/-- What is stored can be read: `json.loads` and the strict model read back what was written. -/
structure Readable (records : List ReviewFeedbackRecord) : Prop where
  loads : ∀ record ∈ records, ∃ fields, loads record.payload = some (.obj fields) ∧
    canonicalJson (.obj fields) = record.payload
  parse : ∀ record ∈ records, parseRecord record.payload = some record

end Store

/-! ## Summaries fit -/

theorem length_sortedSet_le (texts : List String) : (sortedSet texts).length ≤ texts.length := by
  rw [sortedSet, List.length_insertionSort]
  exact (List.dedup_sublist texts).length_le

theorem length_append_toString (text suffix : String) {n : ℕ} (h : n < 10000) :
    (text ++ toString n ++ suffix).length ≤ text.length + 4 + suffix.length := by
  have hrepr : (toString n).length ≤ 4 := by
    rw [← String.length_toList]
    exact Nat.repr_length n 4 (by decide) h
  rw [String.length_append, String.length_append]
  omega

/-- The loop leaves its start, or a longer selection that fits. -/
theorem selectTokens_eq (characterLimit : ℤ) (tokens selected : List String) :
    selectTokens characterLimit selected tokens = selected ∨
      ∃ taken rest, tokens = taken ++ rest ∧
        selectTokens characterLimit selected tokens = selected ++ taken ∧ taken ≠ [] ∧
        (rendered (selected ++ taken) rest.length).length ≤ characterLimit := by
  induction tokens generalizing selected with
  | nil => exact .inl rfl
  | cons token tokens ih =>
    rw [selectTokens]
    split_ifs with hover
    · exact .inl rfl
    right
    rcases ih (selected ++ [token]) with hstop | ⟨taken, rest, rfl, hselect, hne, hfits⟩
    · exact ⟨[token], tokens, rfl, hstop, List.cons_ne_nil _ _, not_lt.mp hover⟩
    · have hcons : selected ++ [token] ++ taken = selected ++ token :: taken :=
        (List.append_cons selected token taken).symm
      exact ⟨token :: taken, rest, rfl, hselect.trans hcons, List.cons_ne_nil _ _, hcons ▸ hfits⟩

/-- The text for tokens that are left out. -/
def moreText (omitted : ℕ) : String := "+" ++ toString omitted ++ "_more"

/-- A rendering is the tokens between commas, and the text for those that are left out after them. -/
theorem rendered_eq {selected : List String} (h : selected ≠ []) (rest : List String) :
    rendered selected rest.length
      = ",".intercalate (selected ++ if rest = [] then [] else [moreText rest.length]) := by
  have hcomma : ",+" = "," ++ "+" := by decide
  have hlast : ∀ (tokens : List String) (token last : String),
      ",".intercalate (token :: tokens ++ [last])
        = ",".intercalate (token :: tokens) ++ "," ++ last := by
    intro tokens
    induction tokens with
    | nil =>
      intro token last
      rfl
    | cons other tokens ih =>
      intro token last
      have hcons : ∀ (first second : String) (others : List String),
          ",".intercalate (first :: second :: others)
            = first ++ "," ++ ",".intercalate (second :: others) := by
        intro first second others
        rw [← String.toList_inj]
        simp [String.toList_intercalate]
      rw [List.cons_append, List.cons_append, hcons, hcons, ← List.cons_append, ih]
      simp only [String.append_assoc]
  obtain ⟨token, tokens, rfl⟩ := List.exists_cons_of_ne_nil h
  cases rest with
  | nil => simp [rendered]
  | cons other rest =>
    have hne : (other :: rest).length ≠ 0 := Nat.succ_ne_zero _
    rw [rendered, if_pos hne, if_neg (List.cons_ne_nil _ _), hlast, hcomma, moreText]
    simp only [String.append_assoc]

/-- **Bounded tokens**: the first tokens between commas, and the count of the others after them. Only
a count by itself can be too long. -/
theorem boundedTokens_eq {tokens : List String} (h : tokens ≠ []) (characterLimit : ℤ) :
    ∃ taken rest, tokens = taken ++ rest
      ∧ boundedTokens tokens characterLimit
        = ",".intercalate (taken ++ if rest = [] then [] else [moreText rest.length])
      ∧ (taken ≠ [] → ((boundedTokens tokens characterLimit).length : ℤ) ≤ characterLimit) := by
  rcases selectTokens_eq characterLimit tokens [] with hstop | ⟨taken, rest, htokens, hselect, hne, hfits⟩
  · refine ⟨[], tokens, rfl, ?_, fun hne => absurd rfl hne⟩
    simp only [boundedTokens, if_neg h, hstop, List.length_nil, Nat.sub_zero, List.nil_append]
    rfl
  · rw [List.nil_append] at hselect hfits
    have heq : boundedTokens tokens characterLimit = rendered taken rest.length := by
      simp only [boundedTokens, if_neg h, hselect, if_neg hne]
      rw [htokens, List.length_append, Nat.add_sub_cancel_left]
    exact ⟨taken, rest, htokens, heq.trans (rendered_eq hne rest), fun _ => heq ▸ hfits⟩

/-- Bounded tokens keep their bound. -/
theorem length_boundedTokens_le {tokens : List String} {characterLimit : ℤ}
    (hlimit : 10 ≤ characterLimit) (htokens : tokens.length < 10000) :
    ((boundedTokens tokens characterLimit).length : ℤ) ≤ characterLimit := by
  by_cases hnil : tokens = []
  · have hnone : (boundedTokens tokens characterLimit).length = 4 := by rw [boundedTokens, if_pos hnil]; rfl
    omega
  obtain ⟨taken, rest, rfl, heq, hfits⟩ := boundedTokens_eq hnil characterLimit
  by_cases htaken : taken = []
  · subst htaken
    have hrest : rest ≠ [] := hnil
    have hmore : (boundedTokens ([] ++ rest) characterLimit).length ≤ 10 := by
      rw [heq, if_neg hrest]
      exact length_append_toString "+" "_more" htokens
    omega
  · exact hfits htaken

theorem length_verdictText (verdict : VerdictKind) : (verdictText verdict).length ≤ 8 := by
  cases verdict <;> decide +kernel

theorem length_riskText (risk : ResidualRisk) : (riskText risk).length ≤ 8 := by
  cases risk <;> decide +kernel

/-- The fields of a summary and the texts between them. -/
theorem length_summary_le {head verdict beforeRisk risk beforeFindings findings beforeRefs refs
    stop : String} (hhead : head.length = 22) (hverdict : verdict.length ≤ 8)
    (hbeforeRisk : beforeRisk.length = 7) (hrisk : risk.length ≤ 8)
    (hbeforeFindings : beforeFindings.length = 11) (hfindings : findings.length ≤ 72)
    (hbeforeRefs : beforeRefs.length = 7) (hrefs : refs.length ≤ 72) (hstop : stop.length = 1) :
    1 ≤ (head ++ verdict ++ beforeRisk ++ risk ++ beforeFindings ++ findings ++ beforeRefs ++ refs
        ++ stop).length ∧
      (head ++ verdict ++ beforeRisk ++ risk ++ beforeFindings ++ findings ++ beforeRefs ++ refs
        ++ stop).length ≤ 240 := by
  simp only [String.length_append]
  omega

namespace ReviewFeedbackRecord

variable {record : ReviewFeedbackRecord}

theorem length_findingTokens_le : record.findingTokens.length ≤ 32 :=
  (length_sortedSet_le _).trans ((List.length_map _).trans_le record.findings_le)

theorem length_allRefs_le : record.allRefs.length ≤ 408 := by
  refine (length_sortedSet_le _).trans ?_
  have hsum : (record.findings.flatMap fun finding =>
      finding.evidenceRefs.map Subtype.val).length ≤ record.findings.length * 12 := by
    rw [List.length_flatMap]
    refine (List.sum_le_card_nsmul _ 12 ?_).trans (by simp)
    intro n hn
    obtain ⟨finding, -, rfl⟩ := List.mem_map.mp hn
    exact (List.length_map _).trans_le finding.evidenceRefs_le
  have hfindings := record.findings_le
  have hrefs := record.refs_le
  rw [List.length_append, List.length_map]
  omega

/-- The summary is no longer than a short text: the fields of fixed width leave room for both
renderings. -/
theorem length_outcomeSummary :
    1 ≤ record.outcomeSummary.length ∧ record.outcomeSummary.length ≤ 240 := by
  have hfindings : (boundedTokens record.findingTokens 72).length ≤ 72 :=
    Int.ofNat_le.mp (length_boundedTokens_le (by decide)
      (length_findingTokens_le.trans_lt (by decide)))
  have hrefs : (boundedTokens record.allRefs 72).length ≤ 72 :=
    Int.ofNat_le.mp (length_boundedTokens_le (by decide)
      (length_allRefs_le.trans_lt (by decide)))
  exact length_summary_le (by decide +kernel) (length_verdictText _) (by decide +kernel)
    (length_riskText _) (by decide +kernel) hfindings (by decide +kernel) hrefs (by decide +kernel)

/-- The guard at the bound of a summary does not fire. -/
theorem toPriorProposalOutcome_ne_summaryBound :
    record.toPriorProposalOutcome ≠ .error .summaryBound := by
  obtain ⟨-, hle⟩ := @length_outcomeSummary record
  rw [toPriorProposalOutcome, raiseIf_bind_of_not (not_lt.mpr hle)]
  split <;> simp

/-- A record has an outcome exactly when its summary is sanitized. -/
theorem toPriorProposalOutcome_isOk_iff :
    (∃ outcome, record.toPriorProposalOutcome = .ok outcome)
      ↔ isSanitized record.outcomeSummary = true := by
  obtain ⟨hpos, hle⟩ := @length_outcomeSummary record
  rw [toPriorProposalOutcome]
  simp only [raiseIf_bind_eq_ok, not_lt.mpr hle, not_false_eq_true, true_and]
  constructor
  · rintro ⟨outcome, h⟩
    by_contra hne
    rw [dif_neg fun hvalid => hne hvalid.2.2] at h
    cases h
  · intro hsanitized
    exact ⟨_, dif_pos ⟨hpos, hle, hsanitized⟩⟩

end ReviewFeedbackRecord

/-- **Whole tokens**: a rendering is the first tokens between commas, with the count of those that
are left out after them; it is within the limit unless it is a count by itself, and a summary is
never refused for its length. -/
theorem boundedTokens_whole :
    (∀ characterLimit, boundedTokens [] characterLimit = "none")
      ∧ (∀ tokens, tokens ≠ [] → ∀ characterLimit, ∃ taken rest, tokens = taken ++ rest
        ∧ boundedTokens tokens characterLimit
          = ",".intercalate (taken ++ if rest = [] then [] else [moreText rest.length])
        ∧ (taken ≠ [] → ((boundedTokens tokens characterLimit).length : ℤ) ≤ characterLimit))
      ∧ ∀ record : ReviewFeedbackRecord, record.toPriorProposalOutcome ≠ .error .summaryBound :=
  ⟨fun _ => rfl, fun _ hne characterLimit => boundedTokens_eq hne characterLimit,
    fun _ => ReviewFeedbackRecord.toPriorProposalOutcome_ne_summaryBound⟩

/-! ## What is in the store -/

section Held

variable {sha256 : Sha256} {loads : Parse Json} {parseRecord : Parse ReviewFeedbackRecord}
  {records : List ReviewFeedbackRecord} {store : Quarantine} {record : ReviewFeedbackRecord}

/-- The files in the order of their names. -/
def filesByName (store : Quarantine) : List (Digest × Bytes) :=
  store.entries.insertionSort fun entry other => entry.1.val ≤ other.1.val

theorem perm_filesByName : (filesByName store).Perm store.entries := List.perm_insertionSort _ _

theorem names_eq : QuarantineStore.names store = (filesByName store).map Prod.fst :=
  (List.map_insertionSort _ _ Prod.fst store.entries fun _ _ _ _ => .rfl).symm

/-- Every file is that of one of the records. -/
def FilesOf (sha256 : Sha256) (records : List ReviewFeedbackRecord) (store : Quarantine) : Prop :=
  ∀ entry ∈ store.entries, ∃ record ∈ records,
    entry = (contentDigest sha256 record.payload, record.payload)

theorem FilesOf.put (h : FilesOf sha256 records store) (hrecord : record ∈ records) :
    FilesOf sha256 records (put sha256 store record) := by
  unfold Feedback.put QuarantineStore.put
  cases hput : store.put (contentDigest sha256 (canonicalJson (.obj record.fields)))
      (canonicalJson (.obj record.fields)) with
  | none => exact h
  | some stored =>
    intro entry hentry
    rcases Archive.entries_of_put hput with ⟨-, hentries⟩ | ⟨-, rfl⟩
    · rw [hentries, List.mem_append, List.mem_singleton] at hentry
      rcases hentry with hentry | rfl
      · exact h entry hentry
      · exact ⟨record, hrecord, rfl⟩
    · exact h entry hentry

/-- What a run of `put` stores. -/
theorem filesOf_putAll (records : List ReviewFeedbackRecord) :
    FilesOf sha256 records (putAll sha256 records) := by
  have hfold : ∀ (rest : List ReviewFeedbackRecord) (store : Quarantine), rest ⊆ records →
      FilesOf sha256 records store → FilesOf sha256 records (rest.foldl (Feedback.put sha256) store) := by
    intro rest
    induction rest with
    | nil => exact fun _ _ h => h
    | cons record rest ih =>
      intro store hsub h
      obtain ⟨hrecord, hrest⟩ := List.cons_subset.mp hsub
      exact ih _ hrest (h.put hrecord)
  exact hfold records .empty (List.Subset.refl _) fun _ h => nomatch h

section Files

variable (hreadable : Readable loads parseRecord records) (hfiles : FilesOf sha256 records store)
include hreadable hfiles

/-- A file that is not too long is read. -/
theorem verify_eq_ok {entry : Digest × Bytes} (hentry : entry ∈ store.entries)
    {item : Digest × ReviewFeedbackRecord} :
    verify sha256 loads parseRecord store entry.1 = .ok item
      ↔ entry.2.length ≤ maxFeedbackBytes ∧ item.1 = entry.1 ∧
        parseRecord entry.2 = some item.2 := by
  obtain ⟨record, hrecord, rfl⟩ := hfiles entry hentry
  obtain ⟨fields, hloads, hcanonical⟩ := hreadable.loads record hrecord
  have hparse := hreadable.parse record hrecord
  have hget : QuarantineStore.get sha256 loads maxFeedbackBytes store
      (contentDigest sha256 record.payload)
      = if maxFeedbackBytes < record.payload.length then .error .sizeLimit else .ok fields := by
    rw [QuarantineStore.get, Archive.get?_eq_some.mpr hentry, QuarantineStore.decode]
    by_cases hlong : maxFeedbackBytes < record.payload.length
    · rw [raiseIf, if_pos hlong, if_pos hlong]
      rfl
    · rw [raiseIf_bind_of_not hlong, raiseIf_bind_of_not (not_not.mpr rfl), if_neg hlong, hloads]
      exact raiseIf_bind_of_not (not_not.mpr hcanonical)
  rw [verify, hget]
  by_cases hlong : maxFeedbackBytes < record.payload.length
  · rw [if_pos hlong]
    refine iff_of_false ?_ fun h => not_lt.mpr h.1 hlong
    intro h
    cases h
  · rw [if_neg hlong]
    have hfields : (.ok fields : Except QuarantineError _).mapError FeedbackError.content
        = .ok fields := rfl
    rw [hfields, ok_bind, hcanonical, hparse]
    constructor
    · intro h
      cases h
      exact ⟨not_lt.mp hlong, rfl, rfl⟩
    · rintro ⟨-, hdigest, hitem⟩
      obtain ⟨digest, other⟩ := item
      obtain rfl : digest = _ := hdigest
      obtain rfl : record = other := Option.some.inj hitem
      rfl

/-- The store is read when it has not too many files and none that is too long. What is found are the
records of its files. -/
theorem iterVerified_eq_ok {found : List (Digest × ReviewFeedbackRecord)} :
    iterVerified sha256 loads parseRecord store = .ok found
      ↔ (store.entries.length ≤ maxFeedbackItems ∧
          ∀ entry ∈ store.entries, entry.2.length ≤ maxFeedbackBytes) ∧
        found = (filesByName store).filterMap (recordOf parseRecord) := by
  have hread : ((filesByName store).map Prod.fst).mapM (verify sha256 loads parseRecord store)
      = .ok found
      ↔ (∀ entry ∈ filesByName store, entry.2.length ≤ maxFeedbackBytes) ∧
        found = (filesByName store).filterMap (recordOf parseRecord) := by
    rw [List.mapM_map]
    refine mapM_eq_ok_iff_filterMap ?_ ?_
    · intro entry hentry item
      have hmem : entry ∈ store.entries := perm_filesByName.mem_iff.mp hentry
      refine (verify_eq_ok hreadable hfiles hmem).trans (and_congr_right fun _ => ?_)
      rw [recordOf, Option.map_eq_some_iff]
      exact ⟨fun ⟨hdigest, hparse⟩ => ⟨_, hparse, Prod.ext hdigest.symm rfl⟩,
        fun ⟨_, hparse, heq⟩ => heq ▸ ⟨rfl, hparse⟩⟩
    · intro entry hentry _
      obtain ⟨record, hrecord, rfl⟩ := hfiles entry (perm_filesByName.mem_iff.mp hentry)
      rw [recordOf, Option.isSome_map, hreadable.parse record hrecord]
      rfl
  unfold iterVerified
  rw [bind_eq_ok, names_eq]
  simp only [raiseIf_bind_eq_ok, Nat.not_lt]
  rw [List.length_map, perm_filesByName.length_eq]
  simp only [perm_filesByName.mem_iff] at hread
  constructor
  · rintro ⟨found', hfound, hcount, heq⟩
    cases heq
    rw [List.take_of_length_le (by rwa [List.length_map, perm_filesByName.length_eq])] at hfound
    obtain ⟨hsize, hitems⟩ := hread.mp hfound
    exact ⟨⟨hcount, hsize⟩, hitems⟩
  · rintro ⟨⟨hcount, hsize⟩, hitems⟩
    rw [List.take_of_length_le (by rwa [List.length_map, perm_filesByName.length_eq])]
    exact ⟨found, hread.mpr ⟨hsize, hitems⟩, hcount, rfl⟩

end Files

/-- No file is read twice. -/
theorem nodup_digest_held : ((held parseRecord store).map Prod.fst).Nodup := by
  have hsub : ((held parseRecord store).map Prod.fst).Sublist (store.entries.map Prod.fst) := by
    unfold held
    generalize store.entries = files
    induction files with
    | nil => exact .slnil
    | cons file files ih =>
      rw [List.filterMap_cons]
      unfold recordOf
      cases parseRecord file.2 with
      | none => exact ih.cons _
      | some record => exact ih.cons_cons _
  exact hsub.nodup store.keys_nodup

/-- The digests keep the ranks apart. -/
theorem nodup_rank {items : List (Digest × ReviewFeedbackRecord)}
    (h : (items.map Prod.fst).Nodup) : ((items.filterMap Entry.of).map Entry.rank).Nodup := by
  induction items with
  | nil => exact List.nodup_nil
  | cons item items ih =>
    obtain ⟨hitem, htail⟩ := List.nodup_cons.mp h
    rw [List.filterMap_cons]
    cases hof : Entry.of item with
    | none => exact ih htail
    | some entry =>
      refine List.nodup_cons.mpr ⟨fun hmem => hitem ?_, ih htail⟩
      have hdigest : ∀ {item : Digest × ReviewFeedbackRecord} {entry : Entry},
          Entry.of item = some entry → entry.digest = item.1 := by
        intro item entry h
        obtain ⟨createdAt, -, rfl⟩ := Option.map_eq_some_iff.mp h
        rfl
      obtain ⟨other, hother, hrank⟩ := List.mem_map.mp hmem
      obtain ⟨item', hitem', hof'⟩ := List.mem_filterMap.mp hother
      have heq : other.digest = entry.digest := Subtype.ext (congrArg (fun rank => (ofLex rank).2) hrank)
      rw [hdigest hof', hdigest hof] at heq
      exact List.mem_map.mpr ⟨item', hitem', heq⟩

/-- The loader on a store that can be read: it fails on a store that has too many files or a file
that is too long, on a time that cannot be ordered, and on a summary that is not sanitized. What it
returns are the outcomes of the newest records. -/
theorem loadPriorProposalOutcomes_eq_ok (hreadable : Readable loads parseRecord records)
    (hfiles : FilesOf sha256 records store) {targetHashes : TargetHashes} {limit : ℕ}
    (hlimit : 1 ≤ limit ∧ limit ≤ 12) {outcomes : List PriorProposalOutcome} :
    loadPriorProposalOutcomes sha256 loads parseRecord store targetHashes limit = .ok outcomes
      ↔ ((store.entries.length ≤ maxFeedbackItems ∧
            ∀ entry ∈ store.entries, entry.2.length ≤ maxFeedbackBytes) ∧
          ∀ item ∈ boundItems parseRecord store targetHashes,
            (createdMicros item.2.createdAt).isSome) ∧
        List.Forall₂ (fun entry outcome => entry.record.toPriorProposalOutcome = .ok outcome)
          (newestEntries parseRecord store targetHashes limit) outcomes := by
  have hread : ∀ (items : List (Digest × ReviewFeedbackRecord)) entries,
      items.mapM Entry.read = .ok entries
        ↔ (∀ item ∈ items, (createdMicros item.2.createdAt).isSome) ∧
          entries = items.filterMap Entry.of := by
    intro items entries
    refine mapM_eq_ok_iff_filterMap (fun item _ entry => ?_) fun item _ h => ?_
    · unfold Entry.read Entry.of
      cases createdMicros item.2.createdAt with
      | none => exact iff_of_false (fun h => nomatch h) fun h => nomatch h.1
      | some createdAt => exact ⟨fun h => ⟨rfl, by cases h; rfl⟩, fun h => by cases h.2; rfl⟩
    · rwa [Entry.of, Option.isSome_map]
  have hperm : (((filesByName store).filterMap (recordOf parseRecord)).filter fun item =>
      item.2.targetHashes = targetHashes).Perm (boundItems parseRecord store targetHashes) :=
    (perm_filesByName.filterMap _).filter _
  have hnodup : ((boundItems parseRecord store targetHashes).map Prod.fst).Nodup :=
    (List.filter_sublist.map Prod.fst).nodup nodup_digest_held
  have hnewest : takeDistinct Entry.key limit [] (newestFirst Entry.rank
      ((((filesByName store).filterMap (recordOf parseRecord)).filter fun item =>
        item.2.targetHashes = targetHashes).filterMap Entry.of))
      = newestEntries parseRecord store targetHashes limit := by
    rw [newestFirst_eq_of_perm (hperm.filterMap Entry.of)
      (nodup_rank ((hperm.map Prod.fst).nodup_iff.mpr hnodup))]
    exact takeDistinct_newestFirst hlimit.1 (nodup_rank hnodup)
  unfold loadPriorProposalOutcomes
  rw [raiseIf_bind_of_not (by omega), if_neg (by omega), bind_eq_ok]
  simp only [iterVerified_eq_ok hreadable hfiles, bind_eq_ok, hread, mapM_eq_ok_iff_forall₂,
    Int.toNat_natCast]
  constructor
  · rintro ⟨found, ⟨hstore, rfl⟩, entries, ⟨htimes, rfl⟩, houtcomes⟩
    rw [hnewest] at houtcomes
    exact ⟨⟨hstore, fun item hitem => htimes item (hperm.mem_iff.mpr hitem)⟩, houtcomes⟩
  · rintro ⟨⟨hstore, htimes⟩, houtcomes⟩
    refine ⟨_, ⟨hstore, rfl⟩, _, ⟨fun item hitem => htimes item (hperm.mem_iff.mp hitem), rfl⟩, ?_⟩
    rwa [hnewest]

/-- Without collisions every record that was put is in the store. -/
theorem mem_held_putAll (hreadable : Readable loads parseRecord records)
    (hcollision : ∀ record ∈ records, ∀ other ∈ records,
      contentDigest sha256 record.payload = contentDigest sha256 other.payload →
        record.payload = other.payload) (hrecord : record ∈ records) :
    (contentDigest sha256 record.payload, record)
      ∈ held parseRecord (putAll sha256 records) := by
  have hput : ∀ store, FilesOf sha256 records store → ∀ record ∈ records,
      (contentDigest sha256 record.payload, record.payload) ∈ (Feedback.put sha256 store record).entries ∧
        ∀ entry ∈ store.entries, entry ∈ (Feedback.put sha256 store record).entries := by
    intro store hfiles record hrecord
    unfold Feedback.put QuarantineStore.put
    change (_, canonicalJson (.obj record.fields)) ∈ _ ∧ _
    cases hstored : store.put (contentDigest sha256 (canonicalJson (.obj record.fields)))
        (canonicalJson (.obj record.fields)) with
    | some stored =>
      exact ⟨Archive.get?_eq_some.mp (Archive.get?_put hstored), fun entry hentry =>
        Archive.get?_eq_some.mp (Archive.get?_of_put hstored (Archive.get?_eq_some.mpr hentry))⟩
    | none =>
      refine ⟨?_, fun _ h => h⟩
      unfold Archive.put at hstored
      split at hstored
      · cases hstored
      · rename_i existing hexisting
        obtain ⟨other, hother, hentry⟩ := hfiles _ (Archive.get?_eq_some.mp hexisting)
        obtain ⟨hdigest, rfl⟩ := Prod.mk.inj hentry
        have heq : other.payload = canonicalJson (.obj record.fields) :=
          (hcollision record hrecord other hother hdigest).symm
        rw [if_pos heq] at hstored
        cases hstored
  have hfold : ∀ (rest : List ReviewFeedbackRecord) (store : Quarantine), rest ⊆ records →
      FilesOf sha256 records store → (∀ entry ∈ store.entries,
        entry ∈ (rest.foldl (Feedback.put sha256) store).entries) ∧ ∀ record ∈ rest,
        (contentDigest sha256 record.payload, record.payload)
          ∈ (rest.foldl (Feedback.put sha256) store).entries := by
    intro rest
    induction rest with
    | nil => exact fun _ _ _ => ⟨fun _ h => h, fun _ h => absurd h List.not_mem_nil⟩
    | cons record rest ih =>
      intro store hsub hfiles
      obtain ⟨hrecord, hrest⟩ := List.cons_subset.mp hsub
      obtain ⟨hmem, hkept⟩ := hput store hfiles record hrecord
      obtain ⟨hkept', hmem'⟩ := ih _ hrest (hfiles.put hrecord)
      refine ⟨fun entry hentry => hkept' entry (hkept entry hentry), ?_⟩
      exact List.forall_mem_cons.mpr ⟨hkept' _ hmem, hmem'⟩
  have hentry := (hfold records .empty (List.Subset.refl _) fun _ h => nomatch h).2 record hrecord
  refine List.mem_filterMap.mpr ⟨_, hentry, ?_⟩
  rw [recordOf, hreadable.parse record hrecord]
  rfl

/-- Only records that were put are in the store. -/
theorem mem_of_mem_held (hreadable : Readable loads parseRecord records)
    (hfiles : FilesOf sha256 records store) {item : Digest × ReviewFeedbackRecord}
    (hitem : item ∈ held parseRecord store) : item.2 ∈ records := by
  obtain ⟨file, hfile, hof⟩ := List.mem_filterMap.mp hitem
  obtain ⟨record, hrecord, rfl⟩ := hfiles file hfile
  rw [recordOf, hreadable.parse record hrecord] at hof
  cases hof
  exact hrecord

theorem length_putAll_le : (putAll sha256 records).entries.length ≤ records.length := by
  have hsub : (putAll sha256 records).entries.map Prod.fst
      ⊆ records.map fun record => contentDigest sha256 record.payload := by
    intro digest hdigest
    obtain ⟨entry, hentry, rfl⟩ := List.mem_map.mp hdigest
    obtain ⟨record, hrecord, rfl⟩ := filesOf_putAll records entry hentry
    exact List.mem_map_of_mem hrecord
  have hlength := (List.subperm_of_subset (putAll sha256 records).keys_nodup hsub).length_le
  rwa [List.length_map, List.length_map] at hlength

theorem mem_boundItems_of_mem_newestEntries {targetHashes : TargetHashes} {limit : ℕ} {entry : Entry}
    (h : entry ∈ newestEntries parseRecord store targetHashes limit) :
    (entry.digest, entry.record) ∈ boundItems parseRecord store targetHashes := by
  have hmem := List.mem_of_mem_filter ((perm_newestFirst _).mem_iff.mp (List.mem_of_mem_take h))
  obtain ⟨item, hitem, hof⟩ := List.mem_filterMap.mp hmem
  obtain ⟨createdAt, -, rfl⟩ := Option.map_eq_some_iff.mp hof
  exact hitem

end Held

/-! ## What the loader returns -/

/-- **The loader returns the outcomes of the newest records of the target as long as** the store holds
at most 1024 records, none of them longer than its bound, all times of the target are in the calendar,
and the summaries of the newest records are sanitized. -/
theorem loadPriorProposalOutcomes_iff {sha256 : Sha256} {loads : Parse Json}
    {parseRecord : Parse ReviewFeedbackRecord} {records : List ReviewFeedbackRecord}
    (hreadable : Readable loads parseRecord records) (targetHashes : TargetHashes) {limit : ℕ}
    (hlimit : 1 ≤ limit ∧ limit ≤ 12) :
    Returns sha256 loads parseRecord (putAll sha256 records) targetHashes limit
      ↔ (putAll sha256 records).entries.length ≤ maxFeedbackItems ∧
        (∀ entry ∈ (putAll sha256 records).entries, entry.2.length ≤ maxFeedbackBytes) ∧
        (∀ item ∈ boundItems parseRecord (putAll sha256 records) targetHashes,
          (createdMicros item.2.createdAt).isSome) ∧
        ∀ entry ∈ newestEntries parseRecord (putAll sha256 records) targetHashes limit,
          isSanitized entry.record.outcomeSummary = true := by
  unfold Returns
  simp only [loadPriorProposalOutcomes_eq_ok hreadable (filesOf_putAll records) hlimit]
  simp only [← ReviewFeedbackRecord.toPriorProposalOutcome_isOk_iff]
  constructor
  · rintro ⟨outcomes, ⟨⟨⟨hcount, hsize⟩, htimes⟩, houtcomes⟩, -⟩
    refine ⟨hcount, hsize, htimes, fun entry hentry => ?_⟩
    obtain ⟨outcome, -, houtcome⟩ := exists_of_mem_right houtcomes.flip hentry
    exact ⟨outcome, houtcome⟩
  · rintro ⟨hcount, hsize, htimes, hsanitized⟩
    obtain ⟨outcomes, houtcomes⟩ := exists_forall₂ hsanitized
    exact ⟨outcomes, ⟨⟨⟨hcount, hsize⟩, htimes⟩, houtcomes⟩, houtcomes⟩

/-! ### One record, and one too many -/

/-- A hash that carries a number below 65536. -/
def numbered (n : ℕ) : Vector UInt8 32 :=
  ⟨(UInt8.ofNat (n / 256) :: UInt8.ofNat n :: List.replicate 30 0).toArray, by simp⟩

def numberedDigest (n : ℕ) : Digest := contentDigest (fun _ => numbered n) []

theorem numberedDigest_inj {m n : ℕ} (hm : m < 65536) (hn : n < 65536)
    (h : numberedDigest m = numberedDigest n) : m = n := by
  have hbytes : (numbered m).toList = (numbered n).toList :=
    congrArg Vector.toList (sha256_eq_of_contentDigest_eq h)
  obtain ⟨hhigh, hrest⟩ := List.cons.inj hbytes
  have hlow := (List.cons.inj hrest).1
  have hhigh' := congrArg UInt8.toNat hhigh
  have hlow' := congrArg UInt8.toNat hlow
  rw [UInt8.toNat_ofNat', UInt8.toNat_ofNat'] at hhigh' hlow'
  omega

theorem isTimestamp_newYear : isTimestamp "2026-01-01T00:00:00Z" = true := by decide

def reviewHashes : TargetHashes :=
  ⟨numberedDigest 1, numberedDigest 2, numberedDigest 3, numberedDigest 4⟩

/-- The rejection of a proposal that has a number. -/
def reviewOf (n : ℕ) : ReviewFeedbackRecord where
  createdAt := ⟨"2026-01-01T00:00:00Z", isTimestamp_newYear⟩
  proposalId := ⟨"proposal:1", by decide⟩
  packetId := ⟨"packet:1", by decide⟩
  proposalHash := numberedDigest n
  packetHash := numberedDigest 5
  reviewerVerdictHash := numberedDigest 6
  targetHashes := reviewHashes
  verdict := .reject
  residualRisk := .low
  safeForQuarantine := false
  findings := []
  checkedEvidenceRefs := []
  findings_le := by decide
  refs_le := by decide
  canonical_findings := .nil
  canonical_refs := .nil
  refs_checked := by simp
  safe_iff := by decide
  accepted := by simp
  summary_le := by decide +kernel

/-- The review is short. -/
theorem length_payload_reviewOf : (reviewOf 0).payload.length ≤ maxFeedbackBytes := by
  have hkeys : ["schema_version", "trust", "created_at", "proposal_id", "packet_id", "proposal_hash",
      "packet_hash", "reviewer_verdict_hash", "target_hashes", "verdict", "residual_risk",
      "safe_for_quarantine", "findings", "checked_evidence_refs", "validation_basis",
      "local_summary"].Nodup ∧ ∀ key ∈ ["schema_version", "trust", "created_at", "proposal_id",
      "packet_id", "proposal_hash", "packet_hash", "reviewer_verdict_hash", "target_hashes",
      "verdict", "residual_risk", "safe_for_quarantine", "findings", "checked_evidence_refs",
      "validation_basis", "local_summary"], key.toList.length ≤ 24 := by decide +kernel
  have hshort : ∀ {text : String}, text.toList.length ≤ 160 →
      (canonicalJson (.str text)).length ≤ 1922 := by
    intro text h
    have hlength := length_canonicalJson_str text
    omega
  have hdigest : ∀ digest : Digest, (canonicalJson (.str digest)).length ≤ 1922 := fun digest =>
    hshort ((Authority.length_of_isDigest digest).trans_le (by decide))
  refine le_trans (length_canonicalJson_obj hkeys.1 hkeys.2 rfl
    (B := [1922, 1922, 1922, 1922, 1922, 1922, 1922, 1922, 5786, 1922, 1922, 5, 2, 2, 1922, 1922])
    ?_) (by decide)
  exact .cons (hshort (by decide +kernel)) (.cons (hshort (by decide +kernel))
    (.cons (hshort (by decide +kernel)) (.cons (hshort (by decide +kernel))
    (.cons (hshort (by decide +kernel)) (.cons (hdigest _) (.cons (hdigest _) (.cons (hdigest _)
    (.cons (Authority.length_targetHashes _) (.cons (hshort (by decide +kernel))
    (.cons (hshort (by decide +kernel)) (.cons (by decide +kernel) (.cons (by decide +kernel)
    (.cons (by decide +kernel) (.cons (hshort (by decide +kernel)) (.cons (hshort (by decide +kernel))
    .nil)))))))))))))))

theorem plain_fields (n : ℕ) : Json.PlainFields (reviewOf n).fields := by
  simp [ReviewFeedbackRecord.fields, reviewOf, TargetHashes.toJson, Json.PlainFields, Json.Plain,
    Json.PlainItems]

theorem payload_reviewOf_inj {m n : ℕ} (hm : m < 65536) (hn : n < 65536)
    (h : (reviewOf m).payload = (reviewOf n).payload) : m = n := by
  have hencode : Json.python.encode (.obj (reviewOf m).fields)
      = Json.python.encode (.obj (reviewOf n).fields) := encode_eq_of_canonicalJson_eq h
  have hlookup : ∀ n, Json.lookup (reviewOf n).fields "proposal_hash"
      = some (.str (numberedDigest n).val) := fun _ => rfl
  have htext := Json.lookup_str_eq (plain_fields m) (plain_fields n) hencode (hlookup m) (hlookup n)
  exact numberedDigest_inj hm hn (Subtype.ext htext)

open Classical in
/-- The number of the review that has a text. -/
noncomputable def reviewNumber (payload : Bytes) : Option ℕ :=
  if h : ∃ n < 65536, (reviewOf n).payload = payload then some h.choose else none

theorem reviewNumber_payload {n : ℕ} (hn : n < 65536) : reviewNumber (reviewOf n).payload = some n := by
  have hexists : ∃ m < 65536, (reviewOf m).payload = (reviewOf n).payload := ⟨n, hn, rfl⟩
  obtain ⟨hlt, heq⟩ := hexists.choose_spec
  rw [reviewNumber, dif_pos hexists, payload_reviewOf_inj hlt hn heq]

noncomputable def parseReview : Parse ReviewFeedbackRecord := fun payload =>
  (reviewNumber payload).map reviewOf

noncomputable def loadsReview : Parse Json := fun payload =>
  (reviewNumber payload).map fun n => .obj (reviewOf n).fields

/-- A hash without collisions among the reviews. -/
noncomputable def reviewHash : Sha256 := fun payload =>
  numbered ((reviewNumber payload).getD 65535)

theorem readable_reviews {numbers : List ℕ} (h : ∀ n ∈ numbers, n < 65536) :
    Readable loadsReview parseReview (numbers.map reviewOf) := by
  constructor
  · intro record hrecord
    obtain ⟨n, hn, rfl⟩ := List.mem_map.mp hrecord
    exact ⟨(reviewOf n).fields, by rw [loadsReview, reviewNumber_payload (h n hn)]; rfl, rfl⟩
  · intro record hrecord
    obtain ⟨n, hn, rfl⟩ := List.mem_map.mp hrecord
    rw [parseReview, reviewNumber_payload (h n hn)]
    rfl

theorem contentDigest_reviewOf {n : ℕ} (hn : n < 65536) :
    contentDigest reviewHash (reviewOf n).payload = numberedDigest n := by
  rw [contentDigest, numberedDigest, contentDigest]
  simp only [reviewHash, reviewNumber_payload hn, Option.getD_some]

theorem loadPriorProposalOutcomes_iff_one :
    Returns reviewHash loadsReview parseReview (putAll reviewHash [reviewOf 0]) reviewHashes 12 := by
  have hreadable : Readable loadsReview parseReview [reviewOf 0] :=
    readable_reviews (List.forall_mem_singleton.mpr (by decide : (0 : ℕ) < 65536))
  have hheld : ∀ item ∈ held parseReview (putAll reviewHash [reviewOf 0]), item.2 = reviewOf 0 :=
    fun item hitem => List.mem_singleton.mp (mem_of_mem_held hreadable (filesOf_putAll _) hitem)
  refine (loadPriorProposalOutcomes_iff hreadable reviewHashes (by decide)).mpr ⟨?_, ?_, ?_, ?_⟩
  · exact length_putAll_le.trans (by decide)
  · intro entry hentry
    obtain ⟨record, hrecord, rfl⟩ := filesOf_putAll _ entry hentry
    rw [List.mem_singleton.mp hrecord]
    exact length_payload_reviewOf
  · intro item hitem
    rw [hheld item (List.mem_of_mem_filter hitem)]
    decide +kernel
  · intro entry hentry
    have hrecord : entry.record = reviewOf 0 :=
      hheld _ (List.mem_of_mem_filter (mem_boundItems_of_mem_newestEntries hentry))
    rw [hrecord]
    decide +kernel

/-- The loader fails on a store that has grown to one record too many. -/
theorem grown_store_not_loaded :
    Readable loadsReview parseReview ((List.range 1025).map reviewOf) ∧
      ¬ Returns reviewHash loadsReview parseReview
        (putAll reviewHash ((List.range 1025).map reviewOf)) reviewHashes 12 := by
  have hsmall : ∀ n ∈ List.range 1025, n < 65536 := fun n hn =>
    (List.mem_range.mp hn).trans (by decide)
  have hreadable := readable_reviews hsmall
  have hcollision : ∀ record ∈ (List.range 1025).map reviewOf,
      ∀ other ∈ (List.range 1025).map reviewOf, contentDigest reviewHash record.payload
        = contentDigest reviewHash other.payload → record.payload = other.payload := by
    intro record hrecord other hother h
    obtain ⟨m, hm, rfl⟩ := List.mem_map.mp hrecord
    obtain ⟨n, hn, rfl⟩ := List.mem_map.mp hother
    rw [contentDigest_reviewOf (hsmall m hm), contentDigest_reviewOf (hsmall n hn)] at h
    rw [numberedDigest_inj (hsmall m hm) (hsmall n hn) h]
  have hnodup : ((List.range 1025).map numberedDigest).Nodup :=
    List.nodup_range.map_on fun m hm n hn h => numberedDigest_inj (hsmall m hm) (hsmall n hn) h
  have hsub : (List.range 1025).map numberedDigest
      ⊆ (putAll reviewHash ((List.range 1025).map reviewOf)).entries.map Prod.fst := by
    intro digest hdigest
    obtain ⟨n, hn, rfl⟩ := List.mem_map.mp hdigest
    have hheld := mem_held_putAll hreadable hcollision (List.mem_map_of_mem hn)
    obtain ⟨file, hfile, hrecord⟩ := List.mem_filterMap.mp hheld
    obtain ⟨record, -, heq⟩ := Option.map_eq_some_iff.mp hrecord
    have hdigest : file.1 = numberedDigest n :=
      (congrArg Prod.fst heq).trans (contentDigest_reviewOf (hsmall n hn))
    exact hdigest ▸ List.mem_map_of_mem hfile
  have hlength := (List.subperm_of_subset hnodup hsub).length_le
  rw [List.length_map, List.length_map, List.length_range] at hlength
  refine ⟨hreadable, ?_⟩
  rintro ⟨outcomes, houtcomes, -⟩
  have hcount := ((loadPriorProposalOutcomes_eq_ok hreadable (filesOf_putAll _)
    (by decide)).mp houtcomes).1.1.1
  exact absurd (hlength.trans hcount) (by decide)

end IouAi.Feedback
