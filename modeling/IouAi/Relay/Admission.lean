import IouAi.Relay.Validate
import IouAi.Wire.Projection

/-!
# Which events of the host the relay admits

Field by field the validator of the relay accepts what the models of the host allow, for integers
that JavaScript holds exactly. Only the lifetimes differ: the host prompts for up to forty-eight
hours, and the relay refuses a prompt of more than one.
-/

namespace IouAi.Relay

open Calendar Checks Json Wire

variable {sha256 : Sha256}

/-! ## Fields of host values -/

@[simp] theorem test_str (pattern : String → Bool) (text : String) :
    test pattern (some (.str text)) = pattern text := rfl

@[simp] theorem isText_str (text other : String) :
    isText (some (.str text)) other = Decidable.decide (text = other) := rfl

theorem safeInteger?_num {n : ℕ} (h : n ≤ maxSafeInteger) :
    safeInteger? (some (.num n)) = some (n : ℤ) := by
  rw [safeInteger?, Int.natAbs_natCast, if_pos h]

theorem timestampMillis_timestamp (instant : Datetime) (label : String) :
    timestampMillis (some (.str (timestamp instant).val)) label = .ok instant.secondMillis := by
  have hparse := dateParse_timestampText instant
  rw [timestampMillis]
  simp only [timestamp, hparse]

theorem exactKeys_obj {fields : List (String × Json)} {allowed : List String} (keys : List String)
    (hfields : fields.map Prod.fst = keys)
    (h : javascript.sortKeys keys = javascript.sortKeys allowed) :
    exactKeys (some (.obj fields)) allowed = .ok () := by
  rw [exactKeys, raiseIf_eq_ok, hfields]
  exact not_not.mpr h

theorem validateTargetHashes_toJson (hashes : TargetHashes) :
    validateTargetHashes (some hashes.toJson) = .ok () := by
  have hkeys : exactKeys (some hashes.toJson)
      ["compiler_hash", "fleet_config_hash", "harness_hash", "op_table_hash"] = .ok () :=
    exactKeys_obj ["harness_hash", "compiler_hash", "op_table_hash", "fleet_config_hash"] rfl
      (by decide)
  simp only [validateTargetHashes, bind_eq_ok, hkeys, true_and, exists_const, raiseIf_eq_ok]
  simp [values, TargetHashes.toJson, hashes.harnessHash.2, hashes.compilerHash.2,
    hashes.opTableHash.2, hashes.fleetConfigHash.2]

theorem validatePromotionScope_toJson (scope : PromotionScope) :
    validatePromotionScope (some scope.toJson) = .ok () := by
  have hkeys : exactKeys (some scope.toJson)
      ["campaign_id", "destination_id", "max_artifacts", "mode", "schema_version", "worker_set"]
        = .ok () :=
    exactKeys_obj ["schema_version", "campaign_id", "destination_id", "worker_set", "mode",
      "max_artifacts"] rfl (by decide)
  have hdestination := scope.destination_matches_workers
  simp only [validatePromotionScope, bind_eq_ok, hkeys, true_and, exists_const, raiseIf_eq_ok]
  refine ⟨?_, ?_⟩
  · simp [get, field?, lookup, PromotionScope.toJson, scope.campaignId.2, safeInteger?,
      maxSafeInteger]
  · cases hworker : scope.workerSet with
    | nativeStable =>
      rw [hworker] at hdestination
      simp [get, field?, lookup, PromotionScope.toJson, hworker, hdestination, destinations,
        WorkerSet.text, WorkerSet.destination, Destination.text]
    | kasanTriage =>
      rw [hworker] at hdestination
      simp [get, field?, lookup, PromotionScope.toJson, hworker, hdestination, destinations,
        WorkerSet.text, WorkerSet.destination, Destination.text]

/-- Of a challenge of the host the relay can only refuse the lifetime. -/
theorem validateApproval_toJson (challenge : ApprovalChallenge) (positiveAction : String)
    (createdAt now : ℤ) (message actions label lifetime : String) :
    validateApproval (some (challenge.toJson positiveAction)) positiveAction createdAt now message
        actions label lifetime
      = validateLifetime createdAt (some (.str challenge.expiresAt)) now label lifetime := by
  have hkeys : exactKeys (some (challenge.toJson positiveAction))
      ["allowed_actions", "binding_digest", "expires_at", "human_code", "nonce"] = .ok () :=
    exactKeys_obj ["nonce", "human_code", "expires_at", "binding_digest", "allowed_actions"] rfl
      (by decide)
  rw [validateApproval, hkeys]
  simp [get, field?, lookup, ApprovalChallenge.toJson, challenge.humanCode.2, challenge.nonce.2,
    challenge.bindingDigest.2, raiseIf, bind, Except.bind]

theorem validateLifetime_timestamp (created expiry : Datetime) (now : ℤ) (label message : String)
    (hnow : now < expiry.secondMillis) (hfive : created.seconds + 5 * 60 ≤ expiry.seconds) :
    validateLifetime created.secondMillis (some (.str (timestamp expiry).val)) now label message
        = .ok ()
      ↔ expiry.seconds - created.seconds ≤ 60 * 60 := by
  rw [validateLifetime, timestampMillis_timestamp]
  change raiseIf _ _ = _ ↔ _
  rw [raiseIf_eq_ok]
  simp only [Datetime.secondMillis] at hnow ⊢
  omega

/-! ## Kinds of events -/

/-- Of a quarantine prompt the relay can only refuse the lifetime. -/
theorem validateEvent_proposalQuarantined (event : ProposalQuarantinedEvent sha256)
    {created : Datetime} (hcreated : event.createdAt = timestamp created) (now : ℤ) :
    validateEvent event.toJson now = validateLifetime created.secondMillis
      (some (.str event.approval.expiresAt)) now "approval expiration"
      "invalid approval lifetime" := by
  have hkeys : exactKeys (some event.toJson) ["approval", "created_at", "envelope_digest",
      "event_kind", "proposal_hash", "schema_version", "severity", "target_hashes"] = .ok () :=
    exactKeys_obj ["schema_version", "created_at", "event_kind", "severity", "envelope_digest",
      "proposal_hash", "target_hashes", "approval"] rfl (by decide)
  have happroval : event.toJson.field? "approval"
      = some (event.approval.toJson "approve_for_offline_validation") := rfl
  have htargets : event.toJson.field? "target_hashes" = some event.targetHashes.toJson := rfl
  have htime : event.toJson.field? "created_at" = some (.str (timestamp created).val) := by
    rw [← hcreated]
    rfl
  rw [validateEvent, htime, timestampMillis_timestamp]
  simp only [validateProposalQuarantined, hkeys, happroval, htargets,
    validateTargetHashes_toJson, validateApproval_toJson]
  simp [field?, lookup, ProposalQuarantinedEvent.toJson, event.envelopeDigest.2,
    event.proposalHash.2, raiseIf, bind, Except.bind]

/-- Of an execution prompt the relay can only refuse the lifetime. -/
theorem validateEvent_executionReady (event : ExecutionReadyEvent sha256)
    {created : Datetime} (hcreated : event.createdAt = timestamp created) (now : ℤ) :
    validateEvent event.toJson now = validateLifetime created.secondMillis
      (some (.str event.approval.expiresAt)) now "execution approval expiration"
      "invalid execution approval lifetime" := by
  have hkeys : exactKeys (some event.toJson) ["approval", "artifact_digest",
      "artifact_manifest_digest", "artifact_size_bytes", "candidate_digest",
      "canary_report_digest", "created_at", "envelope_digest", "event_kind", "promotion_scope",
      "schema_version", "severity", "target_hashes", "validation_report_digest"] = .ok () :=
    exactKeys_obj ["schema_version", "event_kind", "created_at", "severity", "candidate_digest",
      "envelope_digest", "artifact_manifest_digest", "artifact_digest", "artifact_size_bytes",
      "validation_report_digest", "canary_report_digest", "target_hashes", "promotion_scope",
      "approval"] rfl (by decide)
  have happroval : event.toJson.field? "approval"
      = some (event.approval.toJson "approve_for_live_execution") := rfl
  have htargets : event.toJson.field? "target_hashes" = some event.binding.targetHashes.toJson := rfl
  have hscope : event.toJson.field? "promotion_scope"
      = some event.binding.promotionScope.toJson := rfl
  have htime : event.toJson.field? "created_at" = some (.str (timestamp created).val) := by
    rw [← hcreated]
    rfl
  have hsize := event.binding.artifactSizeBytes.2
  have hsafe : safeInteger? (event.toJson.field? "artifact_size_bytes")
      = some (event.binding.artifactSizeBytes.val : ℤ) :=
    safeInteger?_num (hsize.2.trans (by decide))
  rw [validateEvent, htime, timestampMillis_timestamp]
  simp only [validateExecutionReady, hkeys, happroval, htargets, hscope, hsafe,
    validateTargetHashes_toJson, validatePromotionScope_toJson, validateApproval_toJson]
  simp [field?, lookup, ExecutionReadyEvent.toJson, event.binding.artifactDigest.2,
    event.binding.artifactManifestDigest.2, event.binding.candidateDigest.2,
    event.binding.canaryReportDigest.2, event.binding.envelopeDigest.2,
    event.binding.validationReportDigest.2, hsize, raiseIf, bind, Except.bind]

theorem validateEvent_budgetThreshold (event : BudgetThresholdEvent) {created : Datetime}
    (hcreated : event.createdAt = timestamp created)
    (hmonth : isMonthOver isAsciiDigit event.month = true)
    (hsafe : ∀ n ∈ [event.threshold, event.effectiveSpend, event.hardLimit, event.remaining],
      n ≤ maxSafeInteger) (now : ℤ) : validateEvent event.toJson now = .ok () := by
  have hkeys : exactKeys (some event.toJson) ["created_at", "effective_spend_microdollars",
      "event_kind", "hard_limit_microdollars", "month", "remaining_microdollars",
      "schema_version", "severity", "threshold_microdollars"] = .ok () :=
    exactKeys_obj ["schema_version", "created_at", "event_kind", "severity", "month",
      "threshold_microdollars", "effective_spend_microdollars", "hard_limit_microdollars",
      "remaining_microdollars"] rfl (by decide)
  have hthreshold := event.threshold_lt_hardLimit
  have hspend := event.threshold_le_effectiveSpend
  have hremaining := event.remaining_eq
  have htime : event.toJson.field? "created_at" = some (.str (timestamp created).val) := by
    rw [← hcreated]
    rfl
  have hamount : ∀ key n, event.toJson.field? key = some (.num (n : ℕ)) → n ≤ maxSafeInteger →
      (safeInteger? (event.toJson.field? key)).filter (fun amount => 0 ≤ amount)
        = some (n : ℤ) := by
    intro key n hfield hn
    rw [hfield, safeInteger?_num hn]
    simp
  have hamounts : amounts? event.toJson ["effective_spend_microdollars",
      "hard_limit_microdollars", "remaining_microdollars", "threshold_microdollars"]
      = some [(event.effectiveSpend : ℤ), (event.hardLimit : ℤ), (event.remaining : ℤ),
        (event.threshold : ℤ)] := by
    simp only [amounts?, List.mapM_cons, List.mapM_nil]
    rw [hamount _ event.effectiveSpend rfl (hsafe _ (by simp)),
      hamount _ event.hardLimit rfl (hsafe _ (by simp)),
      hamount _ event.remaining rfl (hsafe _ (by simp)),
      hamount _ event.threshold rfl (hsafe _ (by simp))]
    rfl
  have hseverity : (fun text => text = "warning" || text = "critical") event.severity.text
      = true := by
    cases event.severity <;> rfl
  have hconsistent : ¬ ((event.hardLimit : ℤ) ≤ 0 ∨ (event.hardLimit : ℤ) ≤ event.threshold
      ∨ (event.effectiveSpend : ℤ) < event.threshold
      ∨ (event.remaining : ℤ) ≠ max 0 ((event.hardLimit : ℤ) - event.effectiveSpend)) := by
    omega
  rw [validateEvent, htime, timestampMillis_timestamp]
  simp only [validateBudgetThreshold, hkeys, hamounts]
  simp only [raiseIf, if_neg hconsistent]
  simp [field?, lookup, BudgetThresholdEvent.toJson, hmonth, hseverity, bind, Except.bind]

theorem validateEvent_counterIncrease (event : CounterIncreaseEvent) {created : Datetime}
    (hcreated : event.createdAt = timestamp created)
    (hsafe : ∀ n ∈ [event.previousCount, event.currentCount, event.increase], n ≤ maxSafeInteger)
    (now : ℤ) : validateEvent event.toJson now = .ok () := by
  have hkeys : exactKeys (some event.toJson) ["campaign_id", "created_at", "current_count",
      "event_kind", "increase", "previous_count", "schema_version", "severity", "target_hashes",
      "telemetry_packet_digest"] = .ok () :=
    exactKeys_obj ["schema_version", "created_at", "severity", "campaign_id",
      "telemetry_packet_digest", "target_hashes", "previous_count", "current_count", "increase",
      "event_kind"] rfl (by decide)
  have htargets : event.toJson.field? "target_hashes" = some event.targetHashes.toJson := rfl
  have htime : event.toJson.field? "created_at" = some (.str (timestamp created).val) := by
    rw [← hcreated]
    rfl
  have hlt := event.previousCount_lt
  have hincrease := event.increase_eq
  have hcounts : (["previous_count", "current_count", "increase"].mapM fun key =>
      safeInteger? (event.toJson.field? key))
      = some [(event.previousCount : ℤ), (event.currentCount : ℤ), (event.increase : ℤ)] := by
    have hcount : ∀ key n, event.toJson.field? key = some (.num (n : ℕ)) → n ≤ maxSafeInteger →
        safeInteger? (event.toJson.field? key) = some (n : ℤ) := by
      intro key n hfield hn
      rw [hfield, safeInteger?_num hn]
    simp only [List.mapM_cons, List.mapM_nil]
    rw [hcount _ event.previousCount rfl (hsafe _ (by simp)),
      hcount _ event.currentCount rfl (hsafe _ (by simp)),
      hcount _ event.increase rfl (hsafe _ (by simp))]
    rfl
  have hdelta : ¬ ((event.previousCount : ℤ) < 0 ∨ (event.currentCount : ℤ) ≤ 0
      ∨ (event.increase : ℤ) ≤ 0
      ∨ (event.currentCount : ℤ) - event.previousCount ≠ event.increase) := by
    omega
  rw [validateEvent, htime, timestampMillis_timestamp]
  simp only [validateCounterIncrease, hkeys, htargets, validateTargetHashes_toJson, hcounts]
  simp only [raiseIf, if_neg hdelta]
  cases hcounter : event.counter <;>
    simp [field?, lookup, CounterIncreaseEvent.toJson, isOneOf, hcounter, Counter.eventKind,
      event.campaignId.2, event.telemetryPacketDigest.2, bind, Except.bind]

theorem validateEvent_crashTriage (event : CrashTriageEvent) {created : Datetime}
    (hcreated : event.createdAt = timestamp created) (now : ℤ) :
    validateEvent event.toJson now = .ok () := by
  have hkeys : exactKeys (some event.toJson) ["bug_class", "campaign_id", "created_at",
      "event_kind", "kernel_context_confirmed", "potential_high_value", "reproductions",
      "schema_version", "severity", "stack_signature", "target_hashes",
      "telemetry_packet_digest"] = .ok () :=
    exactKeys_obj ["schema_version", "created_at", "event_kind", "severity", "campaign_id",
      "telemetry_packet_digest", "target_hashes", "stack_signature", "bug_class",
      "reproductions", "kernel_context_confirmed", "potential_high_value"] rfl (by decide)
  have htargets : event.toJson.field? "target_hashes" = some event.targetHashes.toJson := rfl
  have htime : event.toJson.field? "created_at" = some (.str (timestamp created).val) := by
    rw [← hcreated]
    rfl
  have hmem := event.reproductions_mem
  have hsafe : safeInteger? (event.toJson.field? "reproductions")
      = some (event.reproductions : ℤ) :=
    safeInteger?_num (hmem.2.trans (by decide))
  have hclass : isOneOf (event.toJson.field? "bug_class") triageClasses = true := by
    change isOneOf (some (.str event.bugClass.text)) triageClasses = true
    cases event.bugClass <;> rfl
  have hhigh : isOneOf (event.toJson.field? "bug_class")
      ["kasan_use_after_free", "kasan_out_of_bounds", "kasan_double_free"]
      = event.bugClass.isHighValue := by
    change isOneOf (some (.str event.bugClass.text)) _ = _
    cases event.bugClass <;> rfl
  have hurgent : isText (event.toJson.field? "severity") "urgent" = event.potentialHighValue := by
    have hiff := event.urgent_iff
    change isText (some (.str event.severity.text)) "urgent" = _
    cases hseverity : event.severity with
    | attention =>
      rw [hseverity] at hiff
      simpa [TriageSeverity.text] using hiff
    | urgent =>
      rw [hseverity] at hiff
      simpa [TriageSeverity.text] using hiff
  have hseverity : isOneOf (event.toJson.field? "severity") ["attention", "urgent"] = true := by
    change isOneOf (some (.str event.severity.text)) _ = true
    cases event.severity <;> rfl
  have hcount : ¬ ((event.reproductions : ℤ) < 1 ∨ (16 : ℤ) < event.reproductions) := by omega
  have hpotential := event.potentialHighValue_eq
  rw [validateEvent, htime, timestampMillis_timestamp]
  simp only [validateCrashTriage, hkeys, htargets, validateTargetHashes_toJson, hsafe, hclass,
    hhigh, hurgent, hseverity]
  simp only [raiseIf, if_neg hcount]
  simp [field?, lookup, CrashTriageEvent.toJson, isOneOf, isBoolean, event.campaignId.2,
    event.telemetryPacketDigest.2, event.stackSignature.2, validateCrashTriage.isTrue, hpotential,
    bind, Except.bind]

/-! ## Events that the host emits -/

theorem isMonthOver_monthKey (instant : Datetime) :
    isMonthOver isAsciiDigit (Budget.monthKey instant) = true := by
  have hconsume : consume [isAsciiDigit, isAsciiDigit, isAsciiDigit, isAsciiDigit, isChar '-']
      (Budget.monthKey instant).toList = some (twoDigits instant.date.month) := by
    rw [Budget.monthKey, String.toList_ofList]
    simp [Date.monthText, fourDigits, twoDigits, consume, isAsciiDigit, (isDigit_digit _).1, isChar]
  rw [isMonthOver, hconsume]
  obtain ⟨hone, hle⟩ := instant.date.month_mem
  generalize instant.date.month = m at hone hle ⊢
  have hlt : m < 13 := by omega
  clear hle hconsume
  revert hone
  revert hlt
  revert m
  decide

/-- The events that the projectors of the host put in the outbox at an instant, each with the expiry
of its prompt, if it has one. No projector makes triage events: any that a classifier stamps. -/
inductive Emits : RedactedEvent sha256 → Datetime → Option Datetime → Prop
  | quarantine {items : List (Option QuarantineItem)} {outbox : Outbox sha256}
      {current expiry : Datetime} {nonces : ℕ → Vector UInt8 32} {decisionTtl : ℤ}
      {event : RedactedEvent sha256} :
      current.add? decisionTtl.toNat = some expiry →
        event ∈ (projectQuarantine items outbox current nonces decisionTtl).1 → event ∉ outbox →
          Emits event current (some expiry)
  | execution {items : List (Option CandidateItem)} {outbox : Outbox sha256}
      {current expiry : Datetime} {nonces : ℕ → Vector UInt8 32} {decisionTtl : ℤ}
      {event : RedactedEvent sha256} :
      current.add? decisionTtl.toNat = some expiry →
        event ∈ (projectExecutionReady items outbox current nonces decisionTtl).1 →
          event ∉ outbox → Emits event current (some expiry)
  | budget {config : Budget.BudgetConfig} {rows : List Budget.Row} {now : Budget.Timestamp}
      {status : Budget.BudgetStatus} {outbox : Outbox sha256} {current : Datetime}
      {event : RedactedEvent sha256} :
      Budget.status config rows now = .ok status →
        event ∈ (projectBudgetStatus status outbox current).1 → event ∉ outbox →
          Emits event current none
  | counter {previous : Option CounterSnapshot} {snapshot : CounterSnapshot}
      {outbox : Outbox sha256} {current : Datetime} {event : RedactedEvent sha256} :
      event ∈ (projectCounterSnapshot previous snapshot outbox current).1 → event ∉ outbox →
        Emits event current none
  | triage {event : CrashTriageEvent} {current : Datetime} :
      event.createdAt = timestamp current → Emits (.crashTriage event) current none

theorem validateEvent_budget {status : Budget.BudgetStatus} {outbox : Outbox sha256}
    {current : Datetime} {event : RedactedEvent sha256}
    (hmonth : isMonthOver isAsciiDigit status.month = true)
    (hevent : event ∈ (projectBudgetStatus status outbox current).1) (hnew : event ∉ outbox)
    (hsafe : ∀ n ∈ event.integers, n ≤ maxSafeInteger) (now : ℤ) :
    validateEvent event.toJson now = .ok () := by
  rcases mem_projectKeyed hevent with hold | ⟨threshold, -, hthreshold⟩
  · exact absurd hold hnew
  · obtain ⟨budgetEvent, hbudget, rfl⟩ := Option.map_eq_some_iff.mp hthreshold
    unfold budgetEvent? at hbudget
    split at hbudget
    · split at hbudget
      · cases hbudget
        exact validateEvent_budgetThreshold _ rfl hmonth hsafe now
      · cases hbudget
    · cases hbudget

theorem validateEvent_counter {previous : Option CounterSnapshot} {snapshot : CounterSnapshot}
    {outbox : Outbox sha256} {current : Datetime} {event : RedactedEvent sha256}
    (hevent : event ∈ (projectCounterSnapshot previous snapshot outbox current).1)
    (hnew : event ∉ outbox) (hsafe : ∀ n ∈ event.integers, n ≤ maxSafeInteger) (now : ℤ) :
    validateEvent event.toJson now = .ok () := by
  unfold projectCounterSnapshot at hevent
  split at hevent
  · exact absurd hevent hnew
  · split at hevent
    · exact absurd hevent hnew
    · rcases mem_projectKeyed hevent with hold | ⟨counter, -, hcounter⟩
      · exact absurd hold hnew
      · obtain ⟨counterEvent, hincrease, rfl⟩ := Option.map_eq_some_iff.mp hcounter
        unfold counterEvent? at hincrease
        split at hincrease
        · cases hincrease
          exact validateEvent_counterIncrease _ rfl hsafe now
        · cases hincrease

/-- The relay admits an event of the host, at any time before its expiry, exactly when its prompt,
if it has one, expires at most an hour after its creation, both to the second. -/
theorem validateEvent_iff {event : RedactedEvent sha256} {created : Datetime}
    {expiry : Option Datetime} (hevent : Emits event created expiry)
    (hsafe : ∀ n ∈ event.integers, n ≤ maxSafeInteger) {now : ℤ}
    (hnow : ∀ e ∈ expiry, now < e.secondMillis) :
    validateEvent event.toJson now = .ok ()
      ↔ ∀ e ∈ expiry, e.seconds - created.seconds ≤ 60 * 60 := by
  cases hevent with
  | @quarantine items outbox _ expiry nonces decisionTtl _ hexpiry hevent hnew =>
    rcases mem_projectPrompts hevent with hold | ⟨httl, expiry', hexpiry', item, -, -, nonce, rfl⟩
    · exact absurd hold hnew
    · obtain rfl : expiry = expiry' := Option.some.inj (hexpiry.symm.trans hexpiry')
      simp only [Option.mem_def, Option.some.injEq, forall_eq'] at hnow ⊢
      exact (validateEvent_proposalQuarantined
        (proposalEvent sha256 created expiry item nonce) rfl now).symm ▸
          validateLifetime_timestamp created expiry now _ _ hnow (seconds_add?_ge httl hexpiry)
  | @execution items outbox _ expiry nonces decisionTtl _ hexpiry hevent hnew =>
    rcases mem_projectPrompts hevent with hold | ⟨httl, expiry', hexpiry', item, -, -, nonce, rfl⟩
    · exact absurd hold hnew
    · obtain rfl : expiry = expiry' := Option.some.inj (hexpiry.symm.trans hexpiry')
      simp only [Option.mem_def, Option.some.injEq, forall_eq'] at hnow ⊢
      exact (validateEvent_executionReady
        (executionEvent sha256 created expiry item nonce) rfl now).symm ▸
          validateLifetime_timestamp created expiry now _ _ hnow (seconds_add?_ge httl hexpiry)
  | budget hstatus hevent hnew =>
    obtain ⟨⟨instant, hmonth⟩, -⟩ := Budget.status_eq_ok hstatus
    have hmonth : isMonthOver isAsciiDigit _ = true := hmonth ▸ isMonthOver_monthKey instant
    simp [validateEvent_budget hmonth hevent hnew hsafe now]
  | counter hevent hnew => simp [validateEvent_counter hevent hnew hsafe now]
  | triage htriage => simp [RedactedEvent.toJson, validateEvent_crashTriage _ htriage now]

/-! ## The deployed lifetime -/

def sampleDigest : Digest := ⟨"sha256:" ++ String.ofList (List.replicate 64 'a'), by decide⟩

def sampleItem : QuarantineItem where
  envelopeDigest := sampleDigest
  proposalHash := sampleDigest
  targetHashes := ⟨sampleDigest, sampleDigest, sampleDigest, sampleDigest⟩
  compiledArtifactHashes := []

def sampleSha256 : Sha256 := fun _ => Vector.replicate 32 0

/-- 2026-01-01T00:00:00Z. -/
def sampleCreated : Datetime := ⟨63902822400000000, by decide⟩

def samplePrompt (expiry : Datetime) : RedactedEvent sampleSha256 :=
  .proposalQuarantined (proposalEvent sampleSha256 sampleCreated expiry sampleItem
    (Vector.replicate 32 0))

theorem emits_samplePrompt (decisionTtl : ℤ) (expiry : Datetime)
    (httl : ttlAccepted decisionTtl = true)
    (hexpiry : sampleCreated.add? decisionTtl.toNat = some expiry) :
    Emits (samplePrompt expiry) sampleCreated (some expiry) := by
  have hprojected : (projectQuarantine [some sampleItem] ([] : Outbox sampleSha256)
      sampleCreated (fun _ => Vector.replicate 32 0) decisionTtl).1 = [samplePrompt expiry] := by
    rw [projectQuarantine, projectPrompts, httl]
    simp only [Bool.not_true, Bool.false_eq_true, if_false, hexpiry]
    rfl
  exact .quarantine hexpiry (by rw [hprojected]; exact List.mem_singleton_self _) (by simp)

/-- A prompt of thirty minutes, at the time of its creation. -/
theorem validateEvent_iff_halfHour :
    validateEvent (samplePrompt ⟨63902824200000000, by decide⟩).toJson
      sampleCreated.secondMillis = .ok () := by
  have hemits := emits_samplePrompt 1800000000 ⟨63902824200000000, by decide⟩ (by decide)
    (by decide)
  exact (validateEvent_iff hemits (by simp [samplePrompt, RedactedEvent.integers])
    (by simp [Datetime.secondMillis, Datetime.seconds, sampleCreated, microsPerSecond])).mpr
      (by simp [Datetime.seconds, sampleCreated, microsPerSecond])

/-- Under the deployed lifetime of twenty-four hours the relay refuses the prompt. -/
theorem not_validateEvent_day :
    ¬ ∀ (event : RedactedEvent sampleSha256) (created : Datetime) (expiry : Option Datetime)
      (now : ℤ), Emits event created expiry → (∀ n ∈ event.integers, n ≤ maxSafeInteger) →
        created.secondMillis ≤ now → (∀ e ∈ expiry, now < e.secondMillis) →
          validateEvent event.toJson now = .ok () := by
  intro h
  have hemits := emits_samplePrompt 86400000000 ⟨63902908800000000, by decide⟩ (by decide)
    (by decide)
  have haccepted := h _ _ _ sampleCreated.secondMillis hemits
    (by simp [samplePrompt, RedactedEvent.integers]) le_rfl
    (by simp [Datetime.secondMillis, Datetime.seconds, sampleCreated, microsPerSecond])
  simp only [samplePrompt, RedactedEvent.toJson] at haccepted
  rw [validateEvent_proposalQuarantined (proposalEvent sampleSha256 sampleCreated _ sampleItem _)
    rfl] at haccepted
  have hshort := (validateLifetime_timestamp _ _ _ _ _
    (by simp [Datetime.secondMillis, Datetime.seconds, sampleCreated, microsPerSecond])
    (by simp [Datetime.seconds, sampleCreated, microsPerSecond])).mp haccepted
  simp [Datetime.seconds, sampleCreated, microsPerSecond] at hshort

end IouAi.Relay
