import IouAi.Contract.Validation

/-!
# Reviews

A reviewer's (or an auditor's) verdict on a proposal, and `validateReviewer`, the checks that it must
pass before the proposal may be quarantined. A review passes four checks, whatever the proposal
(`passedCheckIds_validateReviewer`).
-/

namespace IouAi.Validator

open Models

inductive VerdictKind
  | accept | reject | escalate
  deriving DecidableEq, Repr

inductive FindingSeverity
  | critical | high | medium | low | info
  deriving DecidableEq, Repr

inductive ResidualRisk
  | low | medium | high | critical
  deriving DecidableEq, Repr

/-- Severities that an accepting verdict may not report. -/
def FindingSeverity.severe (severity : FindingSeverity) : Bool :=
  severity = .critical ∨ severity = .high

/-- A finding about the proposal, about a program of it, or about a step; an empty id names none. -/
structure ReviewFinding where
  severity : FindingSeverity
  evidenceRefs : List String
  programId : String
  stepId : String
  length_evidenceRefs : evidenceRefs.length ≤ 12 := by decide
  deriving DecidableEq

/-- What the kind of a verdict demands of the rest of it. -/
def VerdictSemantics (verdict : VerdictKind) (findings : List ReviewFinding)
    (requiredChanges : List String) (safeForQuarantine : Bool) : Prop :=
  if verdict = .accept then
    (∀ finding ∈ findings, finding.severity.severe = false) ∧ safeForQuarantine = true ∧
      requiredChanges = []
  else safeForQuarantine = false

instance (verdict : VerdictKind) (findings : List ReviewFinding) (requiredChanges : List String)
    (safeForQuarantine : Bool) :
    Decidable (VerdictSemantics verdict findings requiredChanges safeForQuarantine) := by
  unfold VerdictSemantics
  infer_instance

structure ReviewerVerdict where
  proposalId : String
  packetId : String
  verdict : VerdictKind
  findings : List ReviewFinding
  checkedEvidenceRefs : List String
  requiredChanges : List String
  residualRisk : ResidualRisk
  safeForQuarantine : Bool
  length_findings : findings.length ≤ 32 := by decide
  length_checkedEvidenceRefs : checkedEvidenceRefs.length ≤ 24 := by decide
  length_requiredChanges : requiredChanges.length ≤ 16 := by decide
  semantics : VerdictSemantics verdict findings requiredChanges safeForQuarantine := by decide
  deriving DecidableEq

section Review

variable (telemetry : TelemetryPacket) (proposal : PlannerProposal) (verdict : ReviewerVerdict)

/-- The finding names a program of the proposal and a step of it, or neither. -/
def findingTargetValid (finding : ReviewFinding) : Prop :=
  if finding.programId ≠ "" then
    match Dict.get? PlannerProgram.programId proposal.programs finding.programId with
    | none => False
    | some program => finding.stepId = "" ∨ finding.stepId ∈ program.steps.map SymbolicStep.stepId
  else finding.stepId = ""

instance (finding : ReviewFinding) : Decidable (findingTargetValid proposal finding) := by
  unfold findingTargetValid
  split
  · split <;> infer_instance
  · infer_instance

def reviewChecks : List Check := [
  require "review.binding"
    (verdict.packetId = telemetry.packetId ∧ verdict.proposalId = proposal.proposalId)
    "review is not bound to this packet and proposal",
  require "review.evidence"
    ((∀ ref ∈ verdict.checkedEvidenceRefs, ref ∈ telemetry.evidenceRefs) ∧
      (∀ ref ∈ verdict.findings.flatMap ReviewFinding.evidenceRefs,
        ref ∈ telemetry.evidenceRefs) ∧
      (∀ ref ∈ verdict.findings.flatMap ReviewFinding.evidenceRefs,
        ref ∈ verdict.checkedEvidenceRefs) ∧
      ∀ ref ∈ proposal.hypothesisEvidenceRefs ++
          proposal.researchPriorities.flatMap ResearchPriority.evidenceRefs,
        ref ∈ verdict.checkedEvidenceRefs)
    "review omits proposal evidence or cites evidence absent from telemetry",
  require "review.finding-targets"
    (∀ finding ∈ verdict.findings, findingTargetValid proposal finding)
    "review finding references an unknown program or step",
  require "review.acceptance"
    (verdict.verdict = .accept ∧ verdict.safeForQuarantine = true ∧
      (verdict.residualRisk = .low ∨ verdict.residualRisk = .medium) ∧
      ∀ finding ∈ verdict.findings, finding.severity.severe = false)
    "independent reviewer did not accept with bounded residual risk and no severe findings"]

def validateReviewer : ValidationReport := reportOf (reviewChecks telemetry proposal verdict)

variable {telemetry proposal verdict}

/-- What a valid review says. -/
structure Accepted (telemetry : TelemetryPacket) (proposal : PlannerProposal)
    (verdict : ReviewerVerdict) : Prop where
  packetId : verdict.packetId = telemetry.packetId
  proposalId : verdict.proposalId = proposal.proposalId
  accept : verdict.verdict = .accept

theorem accepted_of_valid (h : (validateReviewer telemetry proposal verdict).valid) :
    Accepted telemetry proposal verdict := by
  rw [validateReviewer, valid_reportOf_iff, reviewChecks] at h
  simp only [holds_cons_require, holds_nil, and_true] at h
  obtain ⟨⟨hpacket, hproposal⟩, -, -, haccept, -⟩ := h
  exact ⟨hpacket, hproposal, haccept⟩

theorem passedCheckIds_validateReviewer
    (h : (validateReviewer telemetry proposal verdict).valid) :
    (validateReviewer telemetry proposal verdict).passedCheckIds
      = ["review.binding", "review.evidence", "review.finding-targets", "review.acceptance"] := by
  rw [validateReviewer, valid_reportOf_iff] at h
  rw [validateReviewer, passedCheckIds_reportOf h (by decide : List.Nodup
    ["review.binding", "review.evidence", "review.finding-targets", "review.acceptance"])]
  rfl

end Review

end IouAi.Validator
