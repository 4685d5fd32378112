import IouAi.Foundations.Checks
import IouAi.Wire.Patterns

/-!
# The event validator of the relay

`validateEvent` on a parsed JSON value, at a time of the relay. A missing field is `undefined`; a
regular expression tests the text that JavaScript makes of its argument. Every throw is an error
with the text of the exception.
-/

namespace IouAi.Relay

open Calendar Checks Json Wire

/-! ## JavaScript -/

mutual

/-- `String(value)`. A number from `10^21` on is written with an exponent, which matches no pattern;
its digits are left out. -/
def jsString : Json → String
  | .null => "null"
  | .bool value => if value then "true" else "false"
  | .num value => if value.natAbs < 10 ^ 21 then toString value else "e+"
  | .real text => text
  | .str value => value
  | .arr items => ",".intercalate (jsStrings items)
  | .obj _ => "[object Object]"

/-- The texts that `join` makes of the items of an array. -/
def jsStrings : List Json → List String
  | [] => []
  | .null :: items => "" :: jsStrings items
  | item :: items => jsString item :: jsStrings items

end

/-- `pattern.test(value)`. -/
def test (pattern : String → Bool) : Option Json → Bool
  | none => pattern "undefined"
  | some value => pattern (jsString value)

/-- `value === text`. -/
def isText (value : Option Json) (text : String) : Bool :=
  match value with
  | some (.str value) => value = text
  | _ => false

def maxSafeInteger : ℕ := 2 ^ 53 - 1

/-- The integer for which `Number.isSafeInteger` holds. -/
def safeInteger? : Option Json → Option ℤ
  | some (.num value) => if value.natAbs ≤ maxSafeInteger then some value else none
  | _ => none

def isBoolean : Option Json → Bool
  | some (.bool _) => true
  | _ => false

/-! ## Shared checks -/

abbrev Check := Except String

/-- The object has exactly the allowed fields. -/
def exactKeys (value : Option Json) (allowed : List String) : Check Unit :=
  match value with
  | some (.obj fields) =>
    raiseIf (javascript.sortKeys (fields.map Prod.fst) ≠ javascript.sortKeys allowed)
      "unexpected object fields"
  | _ => .error "object required"

def timestampMillis (value : Option Json) (label : String) : Check ℤ :=
  match value with
  | some (.str text) =>
    match (timestampFields text).bind dateParse with
    | some millis => .ok millis
    | none => .error ("invalid " ++ label)
  | _ => .error ("invalid " ++ label)

def get (value : Option Json) (key : String) : Option Json := value.bind fun value => value.field? key

/-- `Object.values`. -/
def values : Option Json → List Json
  | some (.obj fields) => fields.map Prod.snd
  | _ => []

def validateTargetHashes (value : Option Json) : Check Unit := do
  exactKeys value ["compiler_hash", "fleet_config_hash", "harness_hash", "op_table_hash"]
  raiseIf (∃ item ∈ values value, test isDigest (some item) = false) "invalid target hash"

/-- The destinations of the worker sets. -/
def destinations : List (String × String) :=
  [("native_stable", "native_ai_sync"), ("kasan_triage", "kasan_ai_sync")]

def validatePromotionScope (value : Option Json) : Check Unit := do
  exactKeys value
    ["campaign_id", "destination_id", "max_artifacts", "mode", "schema_version", "worker_set"]
  raiseIf (!isText (get value "schema_version") "promotion-scope.v1"
    || !test isIdentifier (get value "campaign_id")
    || !isText (get value "mode") "afl_foreign_sync_seed"
    || safeInteger? (get value "max_artifacts") ≠ some 1) "invalid promotion scope"
  raiseIf (!destinations.any fun destination =>
      test (· = destination.1) (get value "worker_set")
        && isText (get value "destination_id") destination.2)
    "invalid promotion destination"

def isApprovalEvent (event : Json) : Bool :=
  isText (event.field? "event_kind") "proposal_quarantined"
    || isText (event.field? "event_kind") "execution_ready"

/-- The lifetime of a prompt: five to sixty minutes, and not over yet. -/
def validateLifetime (createdAt : ℤ) (expiresAt : Option Json) (now : ℤ)
    (label message : String) : Check Unit := do
  let expiresAt ← timestampMillis expiresAt label
  let ttl := expiresAt - createdAt
  raiseIf (ttl < 5 * 60 * 1000 ∨ 60 * 60 * 1000 < ttl ∨ expiresAt ≤ now) message

/-- The challenge of a prompt: its fields, its patterns, its actions and its lifetime. -/
def validateApproval (approval : Option Json) (positiveAction : String) (createdAt now : ℤ)
    (challenge actions label lifetime : String) : Check Unit := do
  exactKeys approval ["allowed_actions", "binding_digest", "expires_at", "human_code", "nonce"]
  raiseIf (!test isHumanCode (get approval "human_code") || !test isHex64 (get approval "nonce")
    || !test isDigest (get approval "binding_digest")) challenge
  raiseIf ((get approval "allowed_actions").map javascript.encode
    ≠ some (javascript.encode (.arr [.str positiveAction, .str "deny"]))) actions
  validateLifetime createdAt (get approval "expires_at") now label lifetime

/-! ## Kinds of events -/

def validateProposalQuarantined (event : Json) (createdAt now : ℤ) : Check Unit := do
  let field := event.field?
  exactKeys (some event) ["approval", "created_at", "envelope_digest", "event_kind",
    "proposal_hash", "schema_version", "severity", "target_hashes"]
  raiseIf (!isText (field "severity") "action_required" || !test isDigest (field "envelope_digest")
    || !test isDigest (field "proposal_hash")) "invalid proposal event"
  validateTargetHashes (field "target_hashes")
  validateApproval (field "approval") "approve_for_offline_validation" createdAt now
    "invalid approval challenge" "invalid approval actions" "approval expiration"
    "invalid approval lifetime"

def validateExecutionReady (event : Json) (createdAt now : ℤ) : Check Unit := do
  let field := event.field?
  exactKeys (some event) ["approval", "artifact_digest", "artifact_manifest_digest",
    "artifact_size_bytes", "candidate_digest", "canary_report_digest", "created_at",
    "envelope_digest", "event_kind", "promotion_scope", "schema_version", "severity",
    "target_hashes", "validation_report_digest"]
  raiseIf (∃ key ∈ ["artifact_digest", "artifact_manifest_digest", "candidate_digest",
    "canary_report_digest", "envelope_digest", "validation_report_digest"],
      test isDigest (field key) = false) "invalid execution digest"
  raiseIf (!isText (field "severity") "action_required"
    || !(safeInteger? (field "artifact_size_bytes")).any fun size => 1 ≤ size ∧ size ≤ 2048)
    "invalid execution event"
  validateTargetHashes (field "target_hashes")
  validatePromotionScope (field "promotion_scope")
  validateApproval (field "approval") "approve_for_live_execution" createdAt now
    "invalid execution approval challenge" "invalid execution approval actions"
    "execution approval expiration" "invalid execution approval lifetime"

/-- Safe integers under all the keys, each from zero on. -/
def amounts? (event : Json) (keys : List String) : Option (List ℤ) :=
  keys.mapM fun key => (safeInteger? (event.field? key)).filter fun amount => 0 ≤ amount

def validateBudgetThreshold (event : Json) : Check Unit := do
  let field := event.field?
  exactKeys (some event) ["created_at", "effective_spend_microdollars", "event_kind",
    "hard_limit_microdollars", "month", "remaining_microdollars", "schema_version", "severity",
    "threshold_microdollars"]
  raiseIf (!test (fun text => text = "warning" || text = "critical") (field "severity")
    || !test (isMonthOver isAsciiDigit) (field "month")) "invalid budget metadata"
  match amounts? event ["effective_spend_microdollars", "hard_limit_microdollars",
    "remaining_microdollars", "threshold_microdollars"] with
  | some [effectiveSpend, hardLimit, remaining, threshold] =>
    raiseIf (hardLimit ≤ 0 ∨ hardLimit ≤ threshold ∨ effectiveSpend < threshold
      ∨ remaining ≠ max 0 (hardLimit - effectiveSpend)) "inconsistent budget amounts"
  | _ => .error "invalid budget amount"

def validateCounterIncrease (event : Json) : Check Unit := do
  let field := event.field?
  exactKeys (some event) ["campaign_id", "created_at", "current_count", "event_kind", "increase",
    "previous_count", "schema_version", "severity", "target_hashes", "telemetry_packet_digest"]
  raiseIf (!isText (field "severity") "attention" || !test isIdentifier (field "campaign_id")
    || !test isDigest (field "telemetry_packet_digest")) "invalid counter event"
  validateTargetHashes (field "target_hashes")
  match ["previous_count", "current_count", "increase"].mapM fun key => safeInteger? (field key) with
  | some [previousCount, currentCount, increase] =>
    raiseIf (previousCount < 0 ∨ currentCount ≤ 0 ∨ increase ≤ 0
      ∨ currentCount - previousCount ≠ increase) "invalid counter delta"
  | _ => .error "invalid counter delta"

def triageClasses : List String :=
  ["kasan_use_after_free", "kasan_out_of_bounds", "kasan_double_free", "kernel_null_dereference",
    "kernel_general_protection_fault", "kernel_oops_other", "harness_exit", "timeout", "unknown"]

/-- The value is one of the texts. -/
def isOneOf (value : Option Json) (texts : List String) : Bool := texts.any (isText value)

def validateCrashTriage (event : Json) : Check Unit := do
  let field := event.field?
  exactKeys (some event) ["bug_class", "campaign_id", "created_at", "event_kind",
    "kernel_context_confirmed", "potential_high_value", "reproductions", "schema_version",
    "severity", "stack_signature", "target_hashes", "telemetry_packet_digest"]
  raiseIf (!test isIdentifier (field "campaign_id")
    || !test isDigest (field "telemetry_packet_digest")
    || !test isDigest (field "stack_signature")) "invalid triage event"
  validateTargetHashes (field "target_hashes")
  raiseIf (!isOneOf (field "bug_class") triageClasses
    || !isOneOf (field "severity") ["attention", "urgent"]
    || !isBoolean (field "kernel_context_confirmed") || !isBoolean (field "potential_high_value"))
    "invalid triage classification"
  match safeInteger? (field "reproductions") with
  | none => .error "invalid reproduction count"
  | some reproductions =>
    raiseIf (reproductions < 1 ∨ 16 < reproductions) "invalid reproduction count"
    let qualifies := decide (2 ≤ reproductions) && isTrue (field "kernel_context_confirmed")
      && isOneOf (field "bug_class")
        ["kasan_use_after_free", "kasan_out_of_bounds", "kasan_double_free"]
    raiseIf (isTrue (field "potential_high_value") ≠ qualifies
      ∨ isText (field "severity") "urgent" ≠ qualifies) "invalid triage severity"
where
  isTrue : Option Json → Bool
    | some (.bool value) => value
    | _ => false

/-- `validateEvent` at the time `now`, in milliseconds since 1970. -/
def validateEvent (event : Json) (now : ℤ) : Check Unit := do
  let kind := event.field? "event_kind"
  let expectedSchema :=
    if isText kind "execution_ready" then "redacted-event.v2" else "redacted-event.v1"
  raiseIf (!isText (event.field? "schema_version") expectedSchema) "invalid event schema"
  let createdAt ← timestampMillis (event.field? "created_at") "event time"
  if isText kind "proposal_quarantined" then validateProposalQuarantined event createdAt now
  else if isText kind "execution_ready" then validateExecutionReady event createdAt now
  else if isText kind "budget_threshold" then validateBudgetThreshold event
  else if isOneOf kind ["crash_counter_increase", "hang_counter_increase"] then
    validateCounterIncrease event
  else if isText kind "crash_triage" then validateCrashTriage event
  else .error "unsupported event kind"

end IouAi.Relay
