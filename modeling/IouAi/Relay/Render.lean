import IouAi.Relay.Validate

/-!
# Fixed messages and signed decisions

What the relay makes of an event: the fixed text of its message and the decision of an operator on
it, signed under the shared key. A template writes a missing field as `undefined`.
-/

namespace IouAi.Relay

open Calendar Checks Json Wire

/-! ## Texts -/

/-- A value in a template. -/
def template (value : Option Json) : String := (value.map jsString).getD "undefined"

/-- The UTF-16 code units of a text. -/
def textLength (text : String) : ℕ := (text.toList.flatMap utf16Units).length

/-- `value.slice(from, to)` in a template. The texts that the relay slices are ASCII, where a code
unit is a character. -/
def slice (value : Option Json) (first last : ℕ) : Except String String :=
  match value with
  | some (.str text) => .ok (String.ofList ((text.toList.take last).drop first))
  | some (.arr items) => .ok (jsString (.arr ((items.take last).drop first)))
  | _ => .error "slice is not a function"

/-- `value || ""`, as a text. -/
def orEmpty : Option Json → String
  | none | some .null | some (.bool false) | some (.num 0) => ""
  | some value => jsString value

/-- A text with no less than two characters. -/
def padTwo (text : String) : String := if textLength text < 2 then "0" ++ text else text

def formatUsd (microdollars : Option Json) : Except String String :=
  match safeInteger? microdollars with
  | some amount =>
    if amount < 0 then .error "invalid microdollar amount"
    else
      let cents := (amount + 5000) / 10000
      .ok (toString (cents / 100) ++ "." ++ padTwo (toString (cents % 100)))
  | none => .error "invalid microdollar amount"

/-- A field of a value that has fields; the fields of `undefined` and `null` raise an error. -/
def property (value : Option Json) (key : String) : Except String (Option Json) :=
  match value with
  | none | some .null => .error "cannot read properties"
  | some value => .ok (value.field? key)

def isTruthy : Option Json → Bool
  | none | some .null | some (.bool false) | some (.num 0) => false
  | some (.str text) => text ≠ ""
  | some _ => true

/-- The start of the message about a counter. -/
def counterText (event : Json) (kind : String) : String :=
  "IOU-AI " ++ kind ++ " COUNTER ALERT: campaign " ++ template (event.field? "campaign_id")
    ++ " increased by " ++ template (event.field? "increase") ++ " ("
    ++ template (event.field? "previous_count") ++ " to "
    ++ template (event.field? "current_count") ++ "). Untriaged"

def renderEvent (event : Json) : Except String String := do
  let field := event.field?
  let kind := field "event_kind"
  if isText kind "proposal_quarantined" then
    let reference ← slice (field "envelope_digest") 7 19
    let code ← property (field "approval") "human_code"
    let expiresAt ← property (field "approval") "expires_at"
    return "IOU-AI APPROVAL: GPT plan passed Claude and local checks. Ref " ++ reference
      ++ ". Reply APPROVE " ++ template code ++ " or DENY " ++ template code ++ " by "
      ++ template expiresAt ++ ". Offline validation only; AFL/Nyx fleet unchanged."
  else if isText kind "execution_ready" then
    let reference ← slice (field "artifact_digest") 7 19
    let destination ← property (field "promotion_scope") "destination_id"
    let code ← property (field "approval") "human_code"
    let expiresAt ← property (field "approval") "expires_at"
    return "IOU-AI LIVE EXECUTION APPROVAL: exact artifact " ++ reference ++ " ("
      ++ template (field "artifact_size_bytes") ++ " bytes) passed GPT planning, Claude review, "
      ++ "deterministic checks, byte round-trip, and isolated Nyx canary. Scope="
      ++ template destination ++ "; one artifact. Reply EXECUTE " ++ template code ++ " or DENY "
      ++ template code ++ " by " ++ template expiresAt ++ "."
  else if isText kind "budget_threshold" then
    let threshold ← formatUsd (field "threshold_microdollars")
    let remaining ← formatUsd (field "remaining_microdollars")
    let hardLimit ← formatUsd (field "hard_limit_microdollars")
    return "IOU-AI BUDGET: monthly spend crossed $" ++ threshold ++ "; $" ++ remaining
      ++ " remains of $" ++ hardLimit ++ "."
  else if isText kind "crash_counter_increase" then
    return counterText event "CRASH" ++ "; impact and bounty status are not yet established."
  else if isText kind "hang_counter_increase" then
    return counterText event "HANG" ++ "."
  else if isText kind "crash_triage" then
    let signature ← slice (field "stack_signature") 7 19
    let evidence := template (field "bug_class") ++ "; reproductions="
      ++ template (field "reproductions") ++ "; signature=" ++ signature
    if isTruthy (field "potential_high_value") then
      return "POTENTIAL HIGH-VALUE SECURITY IMPACT - PRESERVE/REPRODUCE NOW. Class=" ++ evidence
        ++ ". Not a confirmed bounty."
    return "IOU-AI SECURITY TRIAGE: class=" ++ evidence ++ "; high-value criteria not met."
  else throw "unsupported event"

def isPriorityEvent (event : Json) : Bool :=
  let kind := event.field? "event_kind"
  isText kind "proposal_quarantined" || isText kind "execution_ready"
    || (isText kind "crash_triage" && isTruthy (event.field? "potential_high_value"))
    || (isText kind "budget_threshold" && isText (event.field? "severity") "critical")

/-! ## Decisions -/

inductive Command
  | approve
  | execute
  | deny
  deriving DecidableEq

inductive Channel
  | sms
  | telegram
  deriving DecidableEq

def Channel.text : Channel → String
  | .sms => "sms"
  | .telegram => "telegram"

def Channel.signerId : Channel → String
  | .telegram => "relay:telegram-v1"
  | .sms => "relay:sms-v1"

structure DecisionOptions where
  channel : Channel
  command : Command
  issuedAt : String
  senderBinding : String

/-- The value with the fields, which `canonical` writes only when none of them is `undefined`. -/
def object (fields : List (String × Option Json)) : Except String Json :=
  Json.obj <$> fields.mapM fun field =>
    match field.2 with
    | some value => .ok (field.1, value)
    | none => .error "unsupported JSON value"

/-- The kinds of events that a command decides. -/
def commandMatches (event : Json) : Command → Bool
  | .approve => !isText (event.field? "event_kind") "execution_ready"
  | .execute => !isText (event.field? "event_kind") "proposal_quarantined"
  | .deny => true

/-- `decisionForEvent`: the fields of a decision. -/
def decisionForEvent (event : Json) (eventDigest : String) (options : DecisionOptions) :
    Except String (List (String × Option Json)) := do
  raiseIf (!isApprovalEvent event) "unsupported decision command"
  raiseIf (!commandMatches event options.command) "decision command does not match event kind"
  let field := event.field?
  let deny := options.command == .deny
  let bindingDigest ← property (field "approval") "binding_digest"
  let nonce ← property (field "approval") "nonce"
  let expiresAt ← property (field "approval") "expires_at"
  let humanCode ← property (field "approval") "human_code"
  let common : List (String × Option Json) :=
    [("approval_binding_digest", bindingDigest), ("channel", some (.str options.channel.text)),
      ("decision_nonce", nonce), ("envelope_digest", field "envelope_digest"),
      ("event_digest", some (.str eventDigest)), ("expires_at", expiresAt),
      ("human_code", humanCode), ("issued_at", some (.str options.issuedAt)),
      ("sender_binding", some (.str options.senderBinding)),
      ("signer_id", some (.str options.channel.signerId)), ("target_hashes", field "target_hashes")]
  if isText (field "event_kind") "execution_ready" then
    return [("action", some (.str (if deny then "deny" else "approve_for_live_execution"))),
        ("artifact_digest", field "artifact_digest"),
        ("artifact_manifest_digest", field "artifact_manifest_digest"),
        ("artifact_size_bytes", field "artifact_size_bytes"),
        ("candidate_digest", field "candidate_digest"),
        ("canary_report_digest", field "canary_report_digest")]
      ++ common
      ++ [("promotion_scope", field "promotion_scope"),
        ("reason_code",
          some (.str (if deny then "operator_denied" else "operator_approved_live_execution"))),
        ("schema_version", some (.str "human-decision.v2")),
        ("validation_report_digest", field "validation_report_digest")]
  return ("action", some (.str (if deny then "deny" else "approve_for_offline_validation")))
    :: common
    ++ [("reason_code", some (.str (if deny then "operator_denied" else "operator_approved"))),
      ("schema_version", some (.str "human-decision.v1"))]

/-! ## Hashes and signatures -/

/-- The hash of a message under a key: thirty-two bytes. -/
abbrev Hmac := Bytes → Bytes → Vector UInt8 32

/-- The hash of the bytes of a text, in hexadecimal digits. -/
def sha256Hex (sha256 : Sha256) (text : String) : String := hexText (sha256 (utf8 text)).toList

/-- `hmacHex` under a secret that is long enough. -/
def hmacHex (hmac : Hmac) (secret text : String) : String :=
  hexText (hmac (utf8 secret) (utf8 text)).toList

/-- `canonical`. -/
def canonical (value : Json) : String := javascript.encode value

/-- A decision and its signature. -/
def signedDecision (hmac : Hmac) (secret : String) (decision : Json) : Json :=
  .obj [("decision", decision),
    ("signature_hmac_sha256", .str (hmacHex hmac secret (canonical decision)))]

end IouAi.Relay
