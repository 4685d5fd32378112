import IouAi.Foundations.Checks
import IouAi.Wire.Events

/-!
# Fixed messages of the host

The text that the host makes of an event, and the submission that carries both to the relay.
-/

namespace IouAi.Wire

open Checks

variable {sha256 : Sha256}

/-! ## Texts -/

/-- `text.removeprefix(pre)`. -/
def removePrefix (pre text : List Char) : List Char :=
  if pre.isPrefixOf text then text.drop pre.length else text

/-- `digest.removeprefix("sha256:")[:12]`. -/
def shortReference (digest : Digest) : String :=
  String.ofList ((removePrefix "sha256:".toList digest.val.toList).take 12)

/-- `f"{n:02d}"`. -/
def twoDigitText (n : ℕ) : String := if n < 10 then "0" ++ toString n else toString n

/-- `_format_usd` of an amount that is not negative. -/
def formatUsd (microdollars : ℕ) : String :=
  let cents := (microdollars + 5000) / 10000
  toString (cents / 100) ++ "." ++ twoDigitText (cents % 100)

/-- The word for a counter in its message. -/
def Counter.word : Counter → String
  | .crash => "CRASH"
  | .hang => "HANG"

/-- How the message about a counter ends. -/
def Counter.remark : Counter → String
  | .crash => "; impact and bounty status are not yet established."
  | .hang => "."

/-! ## Messages -/

def ProposalQuarantinedEvent.message (event : ProposalQuarantinedEvent sha256) : String :=
  "IOU-AI APPROVAL: GPT plan passed Claude and local checks. Ref "
    ++ shortReference event.envelopeDigest ++ ". Reply APPROVE " ++ event.approval.humanCode
    ++ " or DENY " ++ event.approval.humanCode ++ " by " ++ event.approval.expiresAt
    ++ ". Offline validation only; AFL/Nyx fleet unchanged."

def ExecutionReadyEvent.message (event : ExecutionReadyEvent sha256) : String :=
  "IOU-AI LIVE EXECUTION APPROVAL: exact artifact " ++ shortReference event.binding.artifactDigest
    ++ " (" ++ toString event.binding.artifactSizeBytes.val
    ++ " bytes) passed GPT planning, Claude review, "
    ++ "deterministic checks, byte round-trip, and isolated Nyx canary. Scope="
    ++ event.binding.promotionScope.destinationId.text ++ "; one artifact. Reply EXECUTE "
    ++ event.approval.humanCode ++ " or DENY " ++ event.approval.humanCode ++ " by "
    ++ event.approval.expiresAt ++ "."

def BudgetThresholdEvent.message (event : BudgetThresholdEvent) : String :=
  "IOU-AI BUDGET: monthly spend crossed $" ++ formatUsd event.threshold ++ "; $"
    ++ formatUsd event.remaining ++ " remains of $" ++ formatUsd event.hardLimit ++ "."

def CounterIncreaseEvent.message (event : CounterIncreaseEvent) : String :=
  "IOU-AI " ++ event.counter.word ++ " COUNTER ALERT: campaign " ++ event.campaignId
    ++ " increased by " ++ toString event.increase ++ " (" ++ toString event.previousCount ++ " to "
    ++ toString event.currentCount ++ "). Untriaged" ++ event.counter.remark

/-- The evidence of a triage, in either of its messages. -/
def CrashTriageEvent.evidence (event : CrashTriageEvent) : String :=
  event.bugClass.text ++ "; reproductions=" ++ toString event.reproductions ++ "; signature="
    ++ shortReference event.stackSignature

def CrashTriageEvent.message (event : CrashTriageEvent) : String :=
  if event.potentialHighValue then
    "POTENTIAL HIGH-VALUE SECURITY IMPACT - PRESERVE/REPRODUCE NOW. Class=" ++ event.evidence
      ++ ". Not a confirmed bounty."
  else "IOU-AI SECURITY TRIAGE: class=" ++ event.evidence ++ "; high-value criteria not met."

def renderFixedMessage : RedactedEvent sha256 → String
  | .proposalQuarantined event => event.message
  | .executionReady event => event.message
  | .budgetThreshold event => event.message
  | .counterIncrease event => event.message
  | .crashTriage event => event.message

/-! ## Submissions -/

inductive SubmissionError
  | messageLength
  | eventDigestMismatch
  | messageMismatch
  deriving DecidableEq

structure RelaySubmission (sha256 : Sha256) where
  eventDigest : Digest
  event : RedactedEvent sha256
  fixedMessage : String
  fixedMessage_mem : 1 ≤ fixedMessage.length ∧ fixedMessage.length ≤ 480
  eventDigest_eq : eventDigest = event.digest
  fixedMessage_eq : fixedMessage = renderFixedMessage event

def RelaySubmission.create (eventDigest : Digest) (event : RedactedEvent sha256)
    (fixedMessage : String) : Except SubmissionError (RelaySubmission sha256) :=
  if hlength : 1 ≤ fixedMessage.length ∧ fixedMessage.length ≤ 480 then
    if hdigest : eventDigest = event.digest then
      if hmessage : fixedMessage = renderFixedMessage event then
        .ok ⟨eventDigest, event, fixedMessage, hlength, hdigest, hmessage⟩
      else .error .messageMismatch
    else .error .eventDigestMismatch
  else .error .messageLength

def RelaySubmission.toJson (submission : RelaySubmission sha256) : Json :=
  .obj [("schema_version", .str "relay-submission.v1"), ("event_digest", .str submission.eventDigest),
    ("event", submission.event.toJson), ("fixed_message", .str submission.fixedMessage)]

/-- The submission of an event, the first half of `NotificationRelayClient.submit`. -/
def submissionOf (event : RedactedEvent sha256) : Except SubmissionError (RelaySubmission sha256) :=
  RelaySubmission.create event.digest event (renderFixedMessage event)

end IouAi.Wire
