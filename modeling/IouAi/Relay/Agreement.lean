import IouAi.Relay.Admission
import IouAi.Relay.Decisions
import IouAi.Wire.Messages
import IouAi.Wire.Texts

/-!
# The relay agrees with the host

The relay writes the message and the digest of an event once more. On an event that it accepts it
writes what the host wrote: every text of the event is printable ASCII, where the two encoders agree
(`printable_toJson`), and the templates are the same (`renderEvent_toJson`). So it reads every
submission of the host whose event is valid (`readSubmission_toJson`).
-/

namespace IouAi.Relay

open Calendar Checks Json Wire

variable {sha256 : Sha256}

/-! ## Printable texts -/

theorem isPrintableAscii_of_mem {c first last : Char} (hfirst : 0x20 ≤ first.toNat)
    (hlast : last.toNat ≤ 0x7e) (h : first ≤ c ∧ c ≤ last) : isPrintableAscii c = true := by
  have hle : ∀ d d' : Char, d ≤ d' → d.toNat ≤ d'.toNat := fun d d' hd => hd
  rw [isPrintableAscii, Bool.and_eq_true, decide_eq_true_eq, decide_eq_true_eq]
  exact ⟨hfirst.trans (hle _ _ h.1), (hle _ _ h.2).trans hlast⟩

theorem isPrintableAscii_of_isHexDigit {c : Char} (h : isHexDigit c = true) :
    isPrintableAscii c = true := by
  simp only [isHexDigit, Bool.or_eq_true, Bool.and_eq_true, decide_eq_true_eq] at h
  rcases h with h | h
  · exact isPrintableAscii_of_mem (by decide) (by decide) h
  · exact isPrintableAscii_of_mem (by decide) (by decide) h

theorem isPrintableAscii_of_isBase32Char {c : Char} (h : isBase32Char c = true) :
    isPrintableAscii c = true := by
  simp only [isBase32Char, Bool.or_eq_true, Bool.and_eq_true, decide_eq_true_eq] at h
  rcases h with h | h
  · exact isPrintableAscii_of_mem (by decide) (by decide) h
  · exact isPrintableAscii_of_mem (by decide) (by decide) h

theorem isPrintableAscii_of_isIdentifierHead {c : Char} (h : isIdentifierHead c = true) :
    isPrintableAscii c = true := by
  simp only [isIdentifierHead, Bool.or_eq_true, Bool.and_eq_true, decide_eq_true_eq] at h
  rcases h with h | h
  · exact isPrintableAscii_of_mem (by decide) (by decide) h
  · exact isPrintableAscii_of_mem (by decide) (by decide) h

theorem isPrintableAscii_of_isIdentifierChar {c : Char} (h : isIdentifierChar c = true) :
    isPrintableAscii c = true := by
  have hother : ∀ d ∈ ['.', '_', ':', '-'], isPrintableAscii d = true := by decide
  simp only [isIdentifierChar, Bool.or_eq_true, decide_eq_true_eq] at h
  exact h.elim isPrintableAscii_of_isIdentifierHead (hother c)

theorem isPrintableAscii_of_isDigit {c : Char} (h : c.isDigit = true) :
    isPrintableAscii c = true := by
  simp only [Char.isDigit, Bool.and_eq_true, decide_eq_true_eq] at h
  exact isPrintableAscii_of_mem (by decide) (by decide) h

theorem all_of_imp {p q : Char → Bool} (hpq : ∀ c, p c = true → q c = true) {cs : List Char}
    (h : cs.all p = true) : cs.all q = true := by
  rw [List.all_eq_true] at h ⊢
  exact fun c hc => hpq c (h c hc)

theorem isPrintable_digest (digest : Digest) : isPrintable digest.val = true := by
  obtain ⟨htake, hall⟩ : digest.val.toList.take 7 = "sha256:".toList
      ∧ (digest.val.toList.drop 7).all isHexDigit = true := by
    have h := digest.2
    simp only [isDigest, Bool.and_eq_true, decide_eq_true_eq] at h
    exact ⟨h.1.1, h.2⟩
  rw [isPrintable, ← List.take_append_drop 7 digest.val.toList, List.all_append, htake,
    all_of_imp (fun _ => isPrintableAscii_of_isHexDigit) hall]
  rfl

theorem isPrintable_nonce (nonce : Nonce256) : isPrintable nonce.val = true := by
  have h := nonce.2
  rw [isHex64, Bool.and_eq_true] at h
  exact all_of_imp (fun _ => isPrintableAscii_of_isHexDigit) h.2

theorem isPrintable_humanCode (code : HumanCode) : isPrintable code.val = true := by
  have h := code.2
  rw [isHumanCode, Bool.and_eq_true] at h
  exact all_of_imp (fun _ => isPrintableAscii_of_isBase32Char) h.2

theorem isPrintable_identifier (identifier : Identifier) :
    isPrintable identifier.val = true := by
  have h := identifier.2
  unfold isIdentifier at h
  split at h
  · cases h
  · rename_i c cs htext
    simp only [Bool.and_eq_true] at h
    rw [isPrintable, htext, List.all_cons, isPrintableAscii_of_isIdentifierHead h.1.1,
      all_of_imp (fun _ => isPrintableAscii_of_isIdentifierChar) h.2]
    rfl

/-! ## Printable timestamps -/

section Scan

variable {cs rest : List Char}

/-- What a step of a scan has taken is printable. -/
theorem all_of_takeDigits {n value : ℕ} (h : takeDigits n cs = some (value, rest))
    (hrest : rest.all isPrintableAscii = true) : cs.all isPrintableAscii = true := by
  unfold takeDigits at h
  split_ifs at h with hdigits
  cases h
  rw [← List.take_append_drop n cs, List.all_append, hrest,
    all_of_imp (fun _ => isPrintableAscii_of_isDigit) hdigits.2]
  rfl

theorem all_of_takeChar {c : Char} (hc : isPrintableAscii c = true)
    (h : takeChar c cs = some rest) (hrest : rest.all isPrintableAscii = true) :
    cs.all isPrintableAscii = true := by
  cases cs with
  | nil => cases h
  | cons d cs =>
    simp only [takeChar] at h
    split_ifs at h with hd
    cases h
    rw [List.all_cons, hd, hc, hrest]
    rfl

theorem all_of_takeFraction {value : ℕ} (h : takeFraction cs = some (value, rest))
    (hrest : rest.all isPrintableAscii = true) : cs.all isPrintableAscii = true := by
  unfold takeFraction at h
  split at h
  · rename_i cs
    dsimp only at h
    split_ifs at h with hlength
    simp only [Option.some.injEq, Prod.mk.injEq] at h
    have hsplit := List.prefix_iff_eq_append.mp (List.takeWhile_prefix (l := cs) Char.isDigit)
    have hdigits : (cs.takeWhile Char.isDigit).all isPrintableAscii = true :=
      all_of_imp (fun _ => isPrintableAscii_of_isDigit) List.all_takeWhile
    rw [List.all_cons, ← hsplit, h.2, List.all_append, hdigits, hrest]
    rfl
  · cases h
    exact hrest

theorem all_of_takeZone {zone : Zone} (h : takeZone cs = some zone) :
    cs.all isPrintableAscii = true := by
  unfold takeZone at h
  split at h
  · decide
  · rename_i sign cs hZ
    simp only [Option.bind_eq_bind, Option.bind_eq_some_iff, Option.guard_eq_some'] at h
    obtain ⟨_, hsign, ⟨hours, cs₁⟩, h₁, cs₂, h₂, ⟨minutes, cs₃⟩, h₃, _, hend, -⟩ := h
    have hend : cs₃ = [] := hend
    have hlast : cs₃.all isPrintableAscii = true := by
      rw [hend]
      rfl
    have hrest := all_of_takeDigits h₁ (all_of_takeChar (by decide) h₂ (all_of_takeDigits h₃ hlast))
    rw [List.all_cons, hrest]
    rcases hsign with rfl | rfl <;> rfl
  · cases h

end Scan

theorem isPrintable_of_timestampFields {text : String}
    (h : (timestampFields text).isSome = true) : isPrintable text = true := by
  obtain ⟨fields, h⟩ := Option.isSome_iff_exists.mp h
  simp only [timestampFields, Option.bind_eq_bind, Option.bind_eq_some_iff] at h
  obtain ⟨⟨year, cs₁⟩, h₁, cs₂, h₂, ⟨month, cs₃⟩, h₃, cs₄, h₄, ⟨day, cs₅⟩, h₅, cs₆, h₆, ⟨hour, cs₇⟩,
    h₇, cs₈, h₈, ⟨minute, cs₉⟩, h₉, cs₁₀, h₁₀, ⟨second, cs₁₁⟩, h₁₁, ⟨microsecond, cs₁₂⟩, h₁₂, zone,
    hzone, -⟩ := h
  have hseconds := all_of_takeDigits h₁₁ (all_of_takeFraction h₁₂ (all_of_takeZone hzone))
  have hminutes := all_of_takeDigits h₉ (all_of_takeChar (by decide) h₁₀ hseconds)
  have hhours := all_of_takeDigits h₇ (all_of_takeChar (by decide) h₈ hminutes)
  have hdays := all_of_takeDigits h₅ (all_of_takeChar (by decide) h₆ hhours)
  have hmonths := all_of_takeDigits h₃ (all_of_takeChar (by decide) h₄ hdays)
  exact all_of_takeDigits h₁ (all_of_takeChar (by decide) h₂ hmonths)

/-! ## Printable events -/

theorem all_of_consume {ps : List (Char → Bool)} {cs rest : List Char}
    (hps : ∀ p ∈ ps, ∀ c, p c = true → isPrintableAscii c = true)
    (h : consume ps cs = some rest) (hrest : rest.all isPrintableAscii = true) :
    cs.all isPrintableAscii = true := by
  induction ps generalizing cs with
  | nil =>
    cases h
    exact hrest
  | cons p ps ih =>
    cases cs with
    | nil => cases h
    | cons c cs =>
      rw [consume] at h
      split_ifs at h with hc
      have hcs := ih (fun q hq => hps q (List.mem_cons_of_mem _ hq)) h
      rw [List.all_cons, hps p List.mem_cons_self c hc, hcs]
      rfl

theorem isPrintable_month {text : String} (h : isMonthOver isAsciiDigit text = true) :
    isPrintable text = true := by
  have hps : ∀ p ∈ [isAsciiDigit, isAsciiDigit, isAsciiDigit, isAsciiDigit, isChar '-'],
      ∀ c, p c = true → isPrintableAscii c = true := by
    have hdash : ∀ c, isChar '-' c = true → isPrintableAscii c = true := by
      intro c hc
      rw [← of_decide_eq_true hc]
      rfl
    simp only [List.forall_mem_cons, List.not_mem_nil, false_implies, implies_true, and_true]
    exact ⟨fun _ => isPrintableAscii_of_isDigit, fun _ => isPrintableAscii_of_isDigit,
      fun _ => isPrintableAscii_of_isDigit, fun _ => isPrintableAscii_of_isDigit, hdash⟩
  unfold isMonthOver at h
  split at h
  · rename_i c hconsume
    simp only [Bool.and_eq_true, decide_eq_true_eq] at h
    refine all_of_consume hps hconsume ?_
    rw [List.all_cons, List.all_cons, isPrintableAscii_of_mem (by decide) (by decide) h]
    rfl
  · rename_i c hconsume
    simp only [Bool.and_eq_true, decide_eq_true_eq] at h
    refine all_of_consume hps hconsume ?_
    rw [List.all_cons, List.all_cons, isPrintableAscii_of_mem (by decide) (by decide) h]
    rfl
  · cases h

theorem printable_obj {fields : List (String × Json)} (keys : List String)
    (hkeys : fields.map Prod.fst = keys) (hprintable : keys.all isPrintable = true)
    (h : ∀ value ∈ fields.map Prod.snd, Printable value) : Printable (.obj fields) := by
  refine (printableFields_iff fields).mpr fun field hfield => ⟨?_, ?_⟩
  · exact List.all_eq_true.mp hprintable field.1 (hkeys ▸ List.mem_map_of_mem hfield)
  · exact h field.2 (List.mem_map_of_mem hfield)

theorem printable_targetHashes (hashes : TargetHashes) : Printable hashes.toJson := by
  refine printable_obj ["harness_hash", "compiler_hash", "op_table_hash", "fleet_config_hash"] rfl
    (by decide) ?_
  simp [Printable, isPrintable_digest]

theorem printable_promotionScope (scope : PromotionScope) : Printable scope.toJson := by
  have hversion : isPrintable "promotion-scope.v1" = true := by decide
  have hmode : isPrintable "afl_foreign_sync_seed" = true := by decide
  have hdestination : ∀ destination : Destination, isPrintable destination.text = true := by
    intro destination
    cases destination <;> decide
  have hworkers : ∀ workerSet : WorkerSet, isPrintable workerSet.text = true := by
    intro workerSet
    cases workerSet <;> decide
  refine printable_obj ["schema_version", "campaign_id", "destination_id", "worker_set", "mode",
    "max_artifacts"] rfl (by decide) ?_
  simp [Printable, hversion, hmode, hdestination, hworkers, isPrintable_identifier]

theorem printable_approval (challenge : ApprovalChallenge) {positiveAction : String}
    (haction : isPrintable positiveAction = true)
    (hexpiry : isPrintable challenge.expiresAt = true) :
    Printable (challenge.toJson positiveAction) := by
  have hdeny : isPrintable "deny" = true := by decide
  refine printable_obj ["nonce", "human_code", "expires_at", "binding_digest", "allowed_actions"]
    rfl (by decide) ?_
  simp [Printable, PrintableItems, haction, hexpiry, hdeny, isPrintable_digest, isPrintable_nonce,
    isPrintable_humanCode]

/-- The texts of the event that a host model leaves to the calendar are printable. -/
structure PrintableTimes (event : RedactedEvent sha256) : Prop where
  createdAt : isPrintable event.createdAt = true
  expiresAt : ∀ challenge, event.approval? = some challenge →
    isPrintable challenge.expiresAt = true
  month : ∀ budget, event = .budgetThreshold budget → isPrintable budget.month = true

theorem printable_schemas : isPrintable "redacted-event.v1" = true
    ∧ isPrintable "redacted-event.v2" = true := by decide

theorem printable_severities : isPrintable "action_required" = true
    ∧ isPrintable "attention" = true ∧ (∀ severity : BudgetSeverity, isPrintable severity.text = true)
    ∧ ∀ severity : TriageSeverity, isPrintable severity.text = true := by
  refine ⟨by decide, by decide, ?_, ?_⟩
  · intro severity
    cases severity <;> decide
  · intro severity
    cases severity <;> decide

theorem printable_kinds : isPrintable "proposal_quarantined" = true
    ∧ isPrintable "execution_ready" = true ∧ isPrintable "budget_threshold" = true
    ∧ isPrintable "crash_triage" = true
    ∧ ∀ counter : Counter, isPrintable counter.eventKind = true := by
  refine ⟨by decide, by decide, by decide, by decide, ?_⟩
  intro counter
  cases counter <;> decide

theorem printable_bugClass (bugClass : BugClass) : isPrintable bugClass.text = true := by
  cases bugClass <;> decide

/-- Every text of the event is printable when those of its times are. -/
theorem printable_toJson {event : RedactedEvent sha256} (h : PrintableTimes event) :
    Printable event.toJson := by
  have hcreated := h.createdAt
  cases event with
  | proposalQuarantined event =>
    have happroval : Printable (event.approval.toJson "approve_for_offline_validation") :=
      printable_approval _ (by decide) (h.expiresAt _ rfl)
    refine printable_obj ["schema_version", "created_at", "event_kind", "severity",
      "envelope_digest", "proposal_hash", "target_hashes", "approval"] rfl (by decide) ?_
    simp_all [Printable, printable_schemas, printable_kinds, printable_severities,
      isPrintable_digest, printable_targetHashes, RedactedEvent.createdAt]
  | executionReady event =>
    have happroval : Printable (event.approval.toJson "approve_for_live_execution") :=
      printable_approval _ (by decide) (h.expiresAt _ rfl)
    refine printable_obj ["schema_version", "event_kind", "created_at", "severity",
      "candidate_digest", "envelope_digest", "artifact_manifest_digest", "artifact_digest",
      "artifact_size_bytes", "validation_report_digest", "canary_report_digest", "target_hashes",
      "promotion_scope", "approval"] rfl (by decide) ?_
    simp_all [Printable, printable_schemas, printable_kinds, printable_severities,
      isPrintable_digest, printable_targetHashes, printable_promotionScope, RedactedEvent.createdAt]
  | budgetThreshold event =>
    have hmonth := h.month _ rfl
    refine printable_obj ["schema_version", "created_at", "event_kind", "severity", "month",
      "threshold_microdollars", "effective_spend_microdollars", "hard_limit_microdollars",
      "remaining_microdollars"] rfl (by decide) ?_
    simp_all [Printable, printable_schemas, printable_kinds, printable_severities,
      RedactedEvent.createdAt]
  | counterIncrease event =>
    refine printable_obj ["schema_version", "created_at", "severity", "campaign_id",
      "telemetry_packet_digest", "target_hashes", "previous_count", "current_count", "increase",
      "event_kind"] rfl (by decide) ?_
    simp_all [Printable, printable_schemas, printable_kinds, printable_severities,
      isPrintable_digest, isPrintable_identifier, printable_targetHashes, RedactedEvent.createdAt]
  | crashTriage event =>
    refine printable_obj ["schema_version", "created_at", "event_kind", "severity", "campaign_id",
      "telemetry_packet_digest", "target_hashes", "stack_signature", "bug_class", "reproductions",
      "kernel_context_confirmed", "potential_high_value"] rfl (by decide) ?_
    simp_all [Printable, printable_schemas, printable_kinds, printable_severities,
      printable_bugClass, isPrintable_digest, isPrintable_identifier, printable_targetHashes,
      RedactedEvent.createdAt]

/-! ## The digest -/

theorem timestampMillis_eq_ok {text label : String} {millis : ℤ}
    (h : timestampMillis (some (.str text)) label = .ok millis) : isPrintable text = true := by
  apply isPrintable_of_timestampFields
  simp only [timestampMillis] at h
  split at h
  · rename_i found hfound
    obtain ⟨fields, hfields, -⟩ := Option.bind_eq_some_iff.mp hfound
    rw [hfields]
    rfl
  · cases h

/-- The relay reads every time of an event that it accepts. -/
theorem printableTimes {event : RedactedEvent sha256} {now : ℤ}
    (h : validateEvent event.toJson now = .ok ()) : PrintableTimes event := by
  have hsteps := h
  simp only [validateEvent, bind_eq_ok] at hsteps
  obtain ⟨_, -, createdAt, hcreated, hkinds⟩ := hsteps
  have hfield : event.toJson.field? "created_at" = some (.str event.createdAt) := by
    cases event <;> rfl
  refine ⟨timestampMillis_eq_ok (hfield ▸ hcreated), ?_, ?_⟩
  · intro challenge hchallenge
    have happroval : isApprovalEvent event.toJson = true
        ∧ get (event.toJson.field? "approval") "expires_at"
          = some (.str challenge.expiresAt) := by
      cases event <;> cases hchallenge <;> exact ⟨rfl, rfl⟩
    obtain ⟨text, htext, hread⟩ := validateEvent_expiry h happroval.1
    obtain rfl : challenge.expiresAt.val = text := by
      rw [happroval.2] at htext
      simpa using htext
    obtain ⟨millis, hmillis⟩ := Option.isSome_iff_exists.mp hread
    obtain ⟨fields, hfields, -⟩ := Option.bind_eq_some_iff.mp hmillis
    exact isPrintable_of_timestampFields (by rw [hfields]; rfl)
  · rintro budget rfl
    have hbudget : validateBudgetThreshold budget.toJson = .ok () := hkinds
    simp only [validateBudgetThreshold, bind_eq_ok, raiseIf_eq_ok] at hbudget
    obtain ⟨_, -, _, hmetadata, -⟩ := hbudget
    have hmonth : test (isMonthOver isAsciiDigit) (budget.toJson.field? "month") = true := by
      simp only [Bool.or_eq_true, not_or, Bool.not_eq_true, Bool.not_eq_false'] at hmetadata
      exact hmetadata.2
    exact isPrintable_month hmonth

/-- The relay computes the digest of the host. -/
theorem digest_toJson {event : RedactedEvent sha256} {now : ℤ}
    (h : validateEvent event.toJson now = .ok ()) :
    "sha256:" ++ sha256Hex sha256 (canonical event.toJson) = event.digest.val := by
  have hencode := encode_python_eq_javascript event.toJson (printable_toJson (printableTimes h))
  rw [RedactedEvent.digest, jsonDigest, canonicalJson, hencode]
  rfl

/-! ## The message -/

theorem slice_digest (digest : Digest) :
    slice (some (.str digest.val)) 7 19 = .ok (shortReference digest) := by
  have hprefix : "sha256:".toList.isPrefixOf digest.val.toList = true := by
    have h := digest.2
    simp only [isDigest, Bool.and_eq_true, decide_eq_true_eq] at h
    rw [List.isPrefixOf_iff_prefix, ← h.1.1]
    exact List.take_prefix _ _
  have hlength : "sha256:".toList.length = 7 := rfl
  rw [slice, shortReference, removePrefix, if_pos hprefix, hlength, List.drop_take]

theorem template_num {n : ℕ} (h : n ≤ maxSafeInteger) : template (some (.num n)) = toString n := by
  have hsmall : (n : ℤ).natAbs < 10 ^ 21 := by
    rw [Int.natAbs_natCast]
    exact h.trans_lt (by decide)
  rw [template, Option.map_some, jsString, if_pos hsmall]
  rfl

theorem padTwo_toString {n : ℕ} (h : n < 100) : padTwo (toString n) = twoDigitText n := by
  have hlength : ∀ k < 100, textLength (toString k) < 2 ↔ k < 10 := by decide +kernel
  rw [padTwo, twoDigitText]
  exact if_congr (hlength n h) rfl rfl

/-- Both format an amount in cents, with halves rounded up. -/
theorem formatUsd_num {n : ℕ} (h : n ≤ maxSafeInteger) :
    formatUsd (some (.num n)) = .ok (Wire.formatUsd n) := by
  have hpad := padTwo_toString (Nat.mod_lt ((n + 5000) / 10000) (by decide : 0 < 100))
  rw [formatUsd, safeInteger?_num h]
  simp only
  rw [if_neg (by omega), Wire.formatUsd, ← hpad]
  rfl

/-- The code and the expiry of a challenge, as a template finds them. -/
theorem property_approval (challenge : ApprovalChallenge) (positiveAction : String) :
    property (some (challenge.toJson positiveAction)) "human_code"
        = .ok (some (.str challenge.humanCode))
      ∧ property (some (challenge.toJson positiveAction)) "expires_at"
        = .ok (some (.str challenge.expiresAt)) := ⟨rfl, rfl⟩

theorem renderEvent_proposalQuarantined (event : ProposalQuarantinedEvent sha256) :
    renderEvent event.toJson = .ok event.message := by
  have hreference : slice (event.toJson.field? "envelope_digest") 7 19
      = .ok (shortReference event.envelopeDigest) := slice_digest _
  have happroval : event.toJson.field? "approval"
      = some (event.approval.toJson "approve_for_offline_validation") := rfl
  obtain ⟨hcode, hexpiry⟩ := property_approval event.approval "approve_for_offline_validation"
  rw [renderEvent]
  change (slice _ _ _ >>= fun _ => property _ _ >>= fun _ => property _ _ >>= fun _ => _) = _
  rw [hreference, happroval, hcode, hexpiry]
  delta ProposalQuarantinedEvent.message
  rfl

theorem renderEvent_executionReady (event : ExecutionReadyEvent sha256) :
    renderEvent event.toJson = .ok event.message := by
  have hreference : slice (event.toJson.field? "artifact_digest") 7 19
      = .ok (shortReference event.binding.artifactDigest) := slice_digest _
  have happroval : event.toJson.field? "approval"
      = some (event.approval.toJson "approve_for_live_execution") := rfl
  have hdestination : property (event.toJson.field? "promotion_scope") "destination_id"
      = .ok (some (.str event.binding.promotionScope.destinationId.text)) := rfl
  have hsize : template (event.toJson.field? "artifact_size_bytes")
      = toString event.binding.artifactSizeBytes.val :=
    template_num (event.binding.artifactSizeBytes.2.2.trans (by decide))
  obtain ⟨hcode, hexpiry⟩ := property_approval event.approval "approve_for_live_execution"
  rw [renderEvent]
  change (slice _ _ _ >>= fun _ => property _ _ >>= fun _ => property _ _ >>= fun _ =>
    property _ _ >>= fun _ => _) = _
  rw [hreference, hdestination, happroval, hcode, hexpiry]
  delta ExecutionReadyEvent.message
  rw [← hsize]
  rfl

theorem renderEvent_budgetThreshold (event : BudgetThresholdEvent)
    (hthreshold : event.threshold ≤ maxSafeInteger) (hremaining : event.remaining ≤ maxSafeInteger)
    (hhardLimit : event.hardLimit ≤ maxSafeInteger) :
    renderEvent event.toJson = .ok event.message := by
  have hfields : formatUsd (event.toJson.field? "threshold_microdollars")
        = .ok (Wire.formatUsd event.threshold)
      ∧ formatUsd (event.toJson.field? "remaining_microdollars")
        = .ok (Wire.formatUsd event.remaining)
      ∧ formatUsd (event.toJson.field? "hard_limit_microdollars")
        = .ok (Wire.formatUsd event.hardLimit) :=
    ⟨formatUsd_num hthreshold, formatUsd_num hremaining, formatUsd_num hhardLimit⟩
  rw [renderEvent]
  change (formatUsd _ >>= fun _ => formatUsd _ >>= fun _ => formatUsd _ >>= fun _ => _) = _
  rw [hfields.1, hfields.2.1, hfields.2.2]
  rfl

theorem counterText_toJson (event : CounterIncreaseEvent)
    (hprevious : event.previousCount ≤ maxSafeInteger)
    (hcurrent : event.currentCount ≤ maxSafeInteger) (hincrease : event.increase ≤ maxSafeInteger) :
    counterText event.toJson event.counter.word = "IOU-AI " ++ event.counter.word
      ++ " COUNTER ALERT: campaign " ++ event.campaignId ++ " increased by "
      ++ toString event.increase ++ " (" ++ toString event.previousCount ++ " to "
      ++ toString event.currentCount ++ "). Untriaged" := by
  rw [← template_num hprevious, ← template_num hcurrent, ← template_num hincrease]
  rfl

theorem renderEvent_counterIncrease (event : CounterIncreaseEvent)
    (hprevious : event.previousCount ≤ maxSafeInteger)
    (hcurrent : event.currentCount ≤ maxSafeInteger) (hincrease : event.increase ≤ maxSafeInteger) :
    renderEvent event.toJson = .ok event.message := by
  have htext := counterText_toJson event hprevious hcurrent hincrease
  have hkind : event.toJson.field? "event_kind" = some (.str event.counter.eventKind) := rfl
  delta CounterIncreaseEvent.message
  rw [← htext, renderEvent]
  simp only [hkind, isText_str]
  cases event.counter with
  | crash => simp [Counter.eventKind, Counter.word, Counter.remark, pure, Except.pure]
  | hang => simp [Counter.eventKind, Counter.word, Counter.remark, pure, Except.pure]

theorem renderEvent_crashTriage (event : CrashTriageEvent) :
    renderEvent event.toJson = .ok event.message := by
  have hsignature : slice (event.toJson.field? "stack_signature") 7 19
      = .ok (shortReference event.stackSignature) := slice_digest _
  have hreproductions : template (event.toJson.field? "reproductions")
      = toString event.reproductions := template_num (event.reproductions_mem.2.trans (by decide))
  have hhigh : isTruthy (event.toJson.field? "potential_high_value") = event.potentialHighValue := by
    change isTruthy (some (.bool event.potentialHighValue)) = _
    cases event.potentialHighValue <;> rfl
  rw [renderEvent]
  change (slice _ _ _ >>= fun _ => _) = _
  rw [hsignature]
  delta CrashTriageEvent.message CrashTriageEvent.evidence
  rw [← hreproductions]
  change (if isTruthy _ = true then _ else _) = _
  rw [hhigh]
  cases event.potentialHighValue <;> rfl

/-! ## The length of a message -/

theorem textLength_append (text other : String) :
    textLength (text ++ other) = textLength text + textLength other := by
  rw [textLength, String.toList_append, List.flatMap_append, List.length_append]
  rfl

theorem textLength_le {text : String} {n : ℕ} (h : text.toList.length ≤ n) :
    textLength text ≤ 2 * n := by
  rw [textLength, List.length_flatMap]
  refine (List.sum_le_card_nsmul _ 2 ?_).trans ?_
  · intro k hk
    obtain ⟨c, -, rfl⟩ := List.mem_map.mp hk
    exact utf16Units_length_le c
  · simp only [List.length_map, Nat.nsmul_eq_mul]
    omega

theorem length_le_textLength (text : String) : text.length ≤ textLength text := by
  have hunit : ∀ c : Char, 1 ≤ (utf16Units c).length := by
    intro c
    unfold utf16Units
    dsimp only
    split <;> simp
  rw [textLength, List.length_flatMap, ← String.length_toList,
    ← List.length_map (fun c => (utf16Units c).length)]
  refine List.length_le_sum_of_one_le _ ?_
  intro k hk
  obtain ⟨c, -, rfl⟩ := List.mem_map.mp hk
  exact hunit c

theorem textLength_shortReference (digest : Digest) : textLength (shortReference digest) ≤ 24 := by
  refine textLength_le (n := 12) ?_
  rw [shortReference, String.toList_ofList, List.length_take]
  omega

theorem textLength_humanCode (code : HumanCode) : textLength code.val ≤ 16 := by
  have h := code.2
  simp only [isHumanCode, Bool.and_eq_true, decide_eq_true_eq] at h
  exact textLength_le h.1.le

theorem textLength_timestamp (text : Timestamp) : textLength text.val ≤ 70 := by
  have h := text.2
  simp only [isTimestamp, Bool.and_eq_true, decide_eq_true_eq] at h
  exact textLength_le h.1.2

theorem textLength_identifier (identifier : Identifier) : textLength identifier.val ≤ 192 := by
  have h := identifier.2
  unfold isIdentifier at h
  split at h
  · cases h
  · rename_i c cs htext
    simp only [Bool.and_eq_true, decide_eq_true_eq] at h
    refine textLength_le (n := 96) ?_
    rw [htext, List.length_cons]
    omega

theorem textLength_toString {n : ℕ} (h : n ≤ maxSafeInteger) : textLength (toString n) ≤ 32 :=
  textLength_le (Nat.repr_length n 16 (by decide) (h.trans_lt (by decide)))

theorem textLength_formatUsd {n : ℕ} (h : n ≤ maxSafeInteger) :
    textLength (Wire.formatUsd n) ≤ 37 := by
  have hmax : maxSafeInteger = 9007199254740991 := by decide
  have hcents : textLength (toString ((n + 5000) / 10000 / 100)) ≤ 32 :=
    textLength_toString (by omega)
  have htwo : ∀ k < 100, textLength (twoDigitText k) ≤ 4 := by decide +kernel
  have hpoint : textLength "." = 1 := by decide
  have hrest := htwo ((n + 5000) / 10000 % 100) (Nat.mod_lt _ (by decide))
  rw [Wire.formatUsd]
  simp only [textLength_append]
  omega

theorem isSome_of_mapM {α β : Type} {f : α → Option β} {xs : List α} {ys : List β}
    (h : xs.mapM f = some ys) : ∀ x ∈ xs, (f x).isSome = true := by
  induction xs generalizing ys with
  | nil => simp
  | cons x xs ih =>
    simp only [List.mapM_cons, Option.bind_eq_bind, Option.bind_eq_some_iff] at h
    obtain ⟨y, hy, ys', hys', -⟩ := h
    intro x' hx'
    rcases List.mem_cons.mp hx' with rfl | hx'
    · rw [hy]
      rfl
    · exact ih hys' x' hx'

theorem le_of_safeInteger? {n : ℕ} (h : (safeInteger? (some (.num n))).isSome = true) :
    n ≤ maxSafeInteger := by
  rw [safeInteger?] at h
  split_ifs at h with hle
  · rwa [Int.natAbs_natCast] at hle
  · cases h

/-- The integers of an event that the relay accepts are safe. -/
theorem safe_integers {event : RedactedEvent sha256} {now : ℤ}
    (h : validateEvent event.toJson now = .ok ()) : ∀ n ∈ event.integers, n ≤ maxSafeInteger := by
  simp only [validateEvent, bind_eq_ok] at h
  obtain ⟨_, -, createdAt, -, hkinds⟩ := h
  cases event with
  | proposalQuarantined event => simp [RedactedEvent.integers]
  | executionReady event =>
    simp only [RedactedEvent.integers, List.mem_singleton, forall_eq]
    exact event.binding.artifactSizeBytes.2.2.trans (by decide)
  | budgetThreshold event =>
    have hbudget : validateBudgetThreshold event.toJson = .ok () := hkinds
    simp only [validateBudgetThreshold, bind_eq_ok] at hbudget
    obtain ⟨_, -, _, -, hamounts⟩ := hbudget
    split at hamounts
    · rename_i effectiveSpend hardLimit remaining threshold hfound
      have hsome : ∀ key ∈ ["effective_spend_microdollars", "hard_limit_microdollars",
          "remaining_microdollars", "threshold_microdollars"],
          (safeInteger? (event.toJson.field? key)).isSome = true := fun key hkey =>
        Option.isSome_of_isSome_filter _ _ (isSome_of_mapM hfound key hkey)
      simp only [List.forall_mem_cons, List.not_mem_nil, false_implies, implies_true, and_true]
        at hsome
      obtain ⟨hspend, hlimit, hremaining, hthreshold⟩ := hsome
      simp only [RedactedEvent.integers, List.forall_mem_cons, List.not_mem_nil, false_implies,
        implies_true, and_true]
      exact ⟨le_of_safeInteger? hthreshold, le_of_safeInteger? hspend, le_of_safeInteger? hlimit,
        le_of_safeInteger? hremaining⟩
    · cases hamounts
  | counterIncrease event =>
    have hcounter : validateCounterIncrease event.toJson = .ok () := by
      simp only [RedactedEvent.toJson] at hkinds
      cases hkind : event.counter <;>
        simpa [field?, lookup, CounterIncreaseEvent.toJson, isOneOf, hkind, Counter.eventKind]
          using hkinds
    simp only [validateCounterIncrease, bind_eq_ok] at hcounter
    obtain ⟨_, -, _, -, _, -, hcounts⟩ := hcounter
    split at hcounts
    · rename_i previousCount currentCount increase hfound
      have hsome := isSome_of_mapM hfound
      simp only [List.forall_mem_cons, List.not_mem_nil, false_implies, implies_true, and_true]
        at hsome
      obtain ⟨hprevious, hcurrent, hincrease⟩ := hsome
      simp only [RedactedEvent.integers, List.forall_mem_cons, List.not_mem_nil, false_implies,
        implies_true, and_true]
      exact ⟨le_of_safeInteger? hprevious, le_of_safeInteger? hcurrent,
        le_of_safeInteger? hincrease⟩
    · cases hcounts
  | crashTriage event =>
    simp only [RedactedEvent.integers, List.mem_singleton, forall_eq]
    exact event.reproductions_mem.2.trans (by decide)

/-- The relay writes the message of the host. -/
theorem renderEvent_toJson {event : RedactedEvent sha256}
    (hsafe : ∀ n ∈ event.integers, n ≤ maxSafeInteger) :
    renderEvent event.toJson = .ok (renderFixedMessage event) := by
  cases event with
  | proposalQuarantined event => exact renderEvent_proposalQuarantined event
  | executionReady event => exact renderEvent_executionReady event
  | budgetThreshold event =>
    simp only [RedactedEvent.integers, List.forall_mem_cons] at hsafe
    exact renderEvent_budgetThreshold event hsafe.1 hsafe.2.2.2.1 hsafe.2.2.1
  | counterIncrease event =>
    simp only [RedactedEvent.integers, List.forall_mem_cons] at hsafe
    exact renderEvent_counterIncrease event hsafe.1 hsafe.2.1 hsafe.2.2.1
  | crashTriage event => exact renderEvent_crashTriage event

theorem textLength_message {event : RedactedEvent sha256}
    (hsafe : ∀ n ∈ event.integers, n ≤ maxSafeInteger) :
    1 ≤ textLength (renderFixedMessage event) ∧ textLength (renderFixedMessage event) ≤ 480 := by
  cases event with
  | proposalQuarantined event =>
    have hreference := textLength_shortReference event.envelopeDigest
    have hcode := textLength_humanCode event.approval.humanCode
    have hexpiry := textLength_timestamp event.approval.expiresAt
    have hfirst :
        textLength "IOU-AI APPROVAL: GPT plan passed Claude and local checks. Ref " = 62 := by decide
    have hlast : textLength ". Offline validation only; AFL/Nyx fleet unchanged." = 51 := by decide
    have hmiddle : textLength ". Reply APPROVE " + textLength " or DENY " + textLength " by " = 29 := by
      decide
    rw [renderFixedMessage]
    delta ProposalQuarantinedEvent.message
    simp only [textLength_append]
    omega
  | executionReady event =>
    have hreference := textLength_shortReference event.binding.artifactDigest
    have hsize : textLength (toString event.binding.artifactSizeBytes.val) ≤ 32 :=
      textLength_toString (event.binding.artifactSizeBytes.2.2.trans (by decide))
    have hdestination : textLength event.binding.promotionScope.destinationId.text ≤ 14 := by
      cases event.binding.promotionScope.destinationId <;> decide
    have hcode := textLength_humanCode event.approval.humanCode
    have hexpiry := textLength_timestamp event.approval.expiresAt
    have hfirst : textLength "IOU-AI LIVE EXECUTION APPROVAL: exact artifact " = 47 := by decide
    have hpassed : textLength " bytes) passed GPT planning, Claude review, "
        + textLength "deterministic checks, byte round-trip, and isolated Nyx canary. Scope="
          = 114 := by decide
    have hrest : textLength " (" + textLength "; one artifact. Reply EXECUTE "
        + textLength " or DENY " + textLength " by " + textLength "." = 46 := by decide
    rw [renderFixedMessage]
    delta ExecutionReadyEvent.message
    simp only [textLength_append]
    omega
  | budgetThreshold event =>
    simp only [RedactedEvent.integers, List.forall_mem_cons] at hsafe
    have hthreshold := textLength_formatUsd hsafe.1
    have hlimit := textLength_formatUsd hsafe.2.2.1
    have hremaining := textLength_formatUsd hsafe.2.2.2.1
    have hliterals : textLength "IOU-AI BUDGET: monthly spend crossed $" + textLength "; $"
        + textLength " remains of $" + textLength "." = 55 := by decide
    rw [renderFixedMessage]
    delta BudgetThresholdEvent.message
    simp only [textLength_append]
    omega
  | counterIncrease event =>
    simp only [RedactedEvent.integers, List.forall_mem_cons] at hsafe
    have hprevious := textLength_toString hsafe.1
    have hcurrent := textLength_toString hsafe.2.1
    have hincrease := textLength_toString hsafe.2.2.1
    have hcampaign := textLength_identifier event.campaignId
    have hword : textLength event.counter.word ≤ 5 ∧ textLength event.counter.remark ≤ 51 := by
      cases event.counter <;> decide
    have hliterals : textLength "IOU-AI " + textLength " COUNTER ALERT: campaign "
        + textLength " increased by " + textLength " (" + textLength " to "
        + textLength "). Untriaged" = 64 := by decide
    rw [renderFixedMessage]
    delta CounterIncreaseEvent.message
    simp only [textLength_append]
    omega
  | crashTriage event =>
    have hsignature := textLength_shortReference event.stackSignature
    have hreproductions : textLength (toString event.reproductions) ≤ 32 :=
      textLength_toString (event.reproductions_mem.2.trans (by decide))
    have hclass : textLength event.bugClass.text ≤ 31 := by
      cases event.bugClass <;> decide
    have hliterals : textLength "; reproductions=" + textLength "; signature=" = 28 := by decide
    have hhigh : textLength
        "POTENTIAL HIGH-VALUE SECURITY IMPACT - PRESERVE/REPRODUCE NOW. Class=" = 69
        ∧ textLength ". Not a confirmed bounty." = 25 := by decide
    have hlow : textLength "IOU-AI SECURITY TRIAGE: class=" = 30
        ∧ textLength "; high-value criteria not met." = 30 := by decide
    rw [renderFixedMessage]
    delta CrashTriageEvent.message CrashTriageEvent.evidence
    cases event.potentialHighValue <;> simp only [textLength_append, if_true, Bool.false_eq_true,
      if_false] <;> omega

/-! ## The binding of a challenge -/

theorem checkApprovalBinding_eq_ok {event material : Json} {fields : List (String × Option Json)}
    {bindingDigest : Digest} (hmaterial : approvalMaterial event = .ok (some fields))
    (hobject : object fields = .ok material)
    (hbinding : property (event.field? "approval") "binding_digest"
      = .ok (some (.str bindingDigest)))
    (hdigest : "sha256:" ++ sha256Hex sha256 (canonical material) = bindingDigest.val) :
    checkApprovalBinding sha256 event = .ok () := by
  rw [checkApprovalBinding, hmaterial]
  change (object fields >>= fun _ => property _ _ >>= fun _ => _) = _
  rw [hobject, hbinding]
  change raiseIf _ _ = _
  rw [raiseIf_eq_ok, isText_str, hdigest]
  simp

theorem digest_of_printable {value : Json} (h : Printable value) :
    "sha256:" ++ sha256Hex sha256 (canonical value) = (jsonDigest sha256 value).val := by
  rw [jsonDigest, canonicalJson, encode_python_eq_javascript value h]
  rfl

theorem checkApprovalBinding_proposalQuarantined (event : ProposalQuarantinedEvent sha256)
    (hexpiry : isPrintable event.approval.expiresAt = true) :
    checkApprovalBinding sha256 event.toJson = .ok () := by
  refine checkApprovalBinding_eq_ok rfl rfl rfl (?_ : _ = event.approval.bindingDigest.val)
  rw [event.challenge_binds_event]
  refine digest_of_printable ?_
  refine printable_obj ["envelope_digest", "expires_at", "human_code", "nonce", "target_hashes"] rfl
    (by decide) ?_
  simp [Printable, hexpiry, isPrintable_digest, isPrintable_nonce, isPrintable_humanCode,
    printable_targetHashes]

/-- What the relay hashes for the challenge of an execution, in its order. -/
def executionMaterial (event : ExecutionReadyEvent sha256) : List (String × Json) :=
  [("envelope_digest", .str event.binding.envelopeDigest),
    ("expires_at", .str event.approval.expiresAt), ("human_code", .str event.approval.humanCode),
    ("nonce", .str event.approval.nonce), ("target_hashes", event.binding.targetHashes.toJson),
    ("artifact_digest", .str event.binding.artifactDigest),
    ("artifact_manifest_digest", .str event.binding.artifactManifestDigest),
    ("artifact_size_bytes", .num event.binding.artifactSizeBytes.val),
    ("binding_version", .str "execution-approval-binding.v1"),
    ("candidate_digest", .str event.binding.candidateDigest),
    ("canary_report_digest", .str event.binding.canaryReportDigest),
    ("event_kind", .str "execution_ready"), ("positive_action", .str "approve_for_live_execution"),
    ("promotion_scope", event.binding.promotionScope.toJson),
    ("validation_report_digest", .str event.binding.validationReportDigest)]

theorem printable_executionMaterial (event : ExecutionReadyEvent sha256)
    (hexpiry : isPrintable event.approval.expiresAt = true) :
    Printable (.obj (executionMaterial event)) := by
  have hliterals : isPrintable "execution-approval-binding.v1" = true
      ∧ isPrintable "approve_for_live_execution" = true := by decide
  refine printable_obj ["envelope_digest", "expires_at", "human_code", "nonce", "target_hashes",
    "artifact_digest", "artifact_manifest_digest", "artifact_size_bytes", "binding_version",
    "candidate_digest", "canary_report_digest", "event_kind", "positive_action", "promotion_scope",
    "validation_report_digest"] rfl (by decide) ?_
  simp [executionMaterial, Printable, hexpiry, hliterals, printable_kinds, isPrintable_digest,
    isPrintable_nonce, isPrintable_humanCode, printable_targetHashes, printable_promotionScope]

/-- The host hashes the same fields. -/
theorem bindingDigest_executionReady (event : ExecutionReadyEvent sha256) :
    event.approval.bindingDigest = jsonDigest sha256 (.obj (executionMaterial event)) := by
  rw [event.challenge_binds_execution, executionApprovalBindingDigest, jsonDigest, jsonDigest,
    canonicalJson, canonicalJson]
  refine congrArg (fun text => contentDigest sha256 (utf8 text)) (python.encode_obj_congr ?_ ?_)
  · change python.sortKeys ["binding_version", "event_kind", "positive_action", "candidate_digest",
        "envelope_digest", "artifact_manifest_digest", "artifact_digest", "artifact_size_bytes",
        "validation_report_digest", "canary_report_digest", "target_hashes", "promotion_scope",
        "nonce", "human_code", "expires_at"]
      = python.sortKeys ["envelope_digest", "expires_at", "human_code", "nonce", "target_hashes",
        "artifact_digest", "artifact_manifest_digest", "artifact_size_bytes", "binding_version",
        "candidate_digest", "canary_report_digest", "event_kind", "positive_action",
        "promotion_scope", "validation_report_digest"]
    decide +kernel
  · intro key hkey
    simp only [List.map_cons, List.map_nil, List.mem_cons, List.not_mem_nil, or_false] at hkey
    rcases hkey with rfl | rfl | rfl | rfl | rfl | rfl | rfl | rfl | rfl | rfl | rfl | rfl | rfl
      | rfl | rfl <;> rfl

theorem checkApprovalBinding_executionReady (event : ExecutionReadyEvent sha256)
    (hexpiry : isPrintable event.approval.expiresAt = true) :
    checkApprovalBinding sha256 event.toJson = .ok () := by
  have hbinding : property (event.toJson.field? "approval") "binding_digest"
      = .ok (some (.str event.approval.bindingDigest)) := rfl
  have hobject : ∃ fields, approvalMaterial event.toJson = .ok (some fields)
      ∧ object fields = .ok (.obj (executionMaterial event)) := ⟨_, rfl, rfl⟩
  obtain ⟨fields, hmaterial, hobject⟩ := hobject
  refine checkApprovalBinding_eq_ok hmaterial hobject hbinding ?_
  rw [digest_of_printable (printable_executionMaterial event hexpiry),
    bindingDigest_executionReady]

theorem checkApprovalBinding_toJson {event : RedactedEvent sha256} (h : PrintableTimes event) :
    checkApprovalBinding sha256 event.toJson = .ok () := by
  cases event with
  | proposalQuarantined event =>
    exact checkApprovalBinding_proposalQuarantined event (h.expiresAt _ rfl)
  | executionReady event => exact checkApprovalBinding_executionReady event (h.expiresAt _ rfl)
  | counterIncrease event =>
    have hkind : isApprovalEvent event.toJson = false := by
      change (isText (some (.str event.counter.eventKind)) _
        || isText (some (.str event.counter.eventKind)) _) = false
      cases event.counter <;> rfl
    have hnone : approvalMaterial event.toJson = .ok none := by
      rw [approvalMaterial, hkind]
      rfl
    rw [RedactedEvent.toJson, checkApprovalBinding, hnone]
    rfl
  | _ => rfl

/-! ## Submissions -/

theorem submissionOf_eq_ok {event : RedactedEvent sha256}
    (hsafe : ∀ n ∈ event.integers, n ≤ maxSafeInteger) :
    ∃ submission, submissionOf event = .ok submission ∧ submission.event = event := by
  have hlength := textLength_message hsafe
  have hpos : 1 ≤ (renderFixedMessage event).length := by
    rw [Nat.one_le_iff_ne_zero]
    intro hzero
    have hnil : (renderFixedMessage event).toList = [] := by
      rw [← List.length_eq_zero_iff, String.length_toList, hzero]
    rw [textLength, hnil] at hlength
    exact absurd hlength.1 (by simp)
  have hmem := And.intro hpos ((length_le_textLength _).trans hlength.2)
  refine ⟨⟨event.digest, event, renderFixedMessage event, hmem, rfl, rfl⟩, ?_, rfl⟩
  rw [submissionOf, RelaySubmission.create, dif_pos hmem, dif_pos rfl, dif_pos rfl]

/-- Of a submission the relay can only refuse the event. -/
theorem readSubmission_toJson (submission : RelaySubmission sha256) {now : ℤ}
    (h : validateEvent submission.event.toJson now = .ok ()) (later : ℤ) :
    readSubmission sha256 later (some submission.toJson)
      = (validateEvent submission.event.toJson later).map fun _ =>
        ⟨submission.event.digest, submission.event.toJson, renderFixedMessage submission.event⟩ := by
  have hsafe := safe_integers h
  have hkeys : exactKeys (some submission.toJson)
      ["event", "event_digest", "fixed_message", "schema_version"] = .ok () :=
    exactKeys_obj ["schema_version", "event_digest", "event", "fixed_message"] rfl (by decide)
  have hversion : isText (submission.toJson.field? "schema_version") "relay-submission.v1" = true :=
    rfl
  have hdigest : submission.toJson.field? "event_digest" = some (.str submission.event.digest) := by
    rw [← submission.eventDigest_eq]
    rfl
  have hevent : (submission.toJson.field? "event").getD .null = submission.event.toJson := rfl
  have hmessage : submission.toJson.field? "fixed_message"
      = some (.str (renderFixedMessage submission.event)) := by
    rw [← submission.fixedMessage_eq]
    rfl
  have hlength := textLength_message hsafe
  rw [readSubmission]
  simp only [hkeys, hversion, hdigest, hevent, hmessage, digest_toJson h,
    renderEvent_toJson hsafe, checkApprovalBinding_toJson (printableTimes h), test_str, isText_str,
    submission.event.digest.2]
  cases validateEvent submission.event.toJson later with
  | error error => rfl
  | ok _ => simp [raiseIf, hlength.2.not_gt, bind, Except.bind, pure, Except.pure, Except.map]

/-- **Agreement.** Of an event that it accepts the relay writes the message and the digest that the
host writes. The host can submit the event, and at every time the relay refuses nothing of the
submission but its event. -/
theorem submission_agrees {event : RedactedEvent sha256} {now : ℤ}
    (h : validateEvent event.toJson now = .ok ()) :
    renderEvent event.toJson = .ok (renderFixedMessage event) ∧
      textLength (renderFixedMessage event) ≤ 480 ∧
      "sha256:" ++ sha256Hex sha256 (canonical event.toJson) = event.digest.val ∧
      ∃ submission, submissionOf event = .ok submission ∧
        ∀ later, readSubmission sha256 later (some submission.toJson)
          = (validateEvent event.toJson later).map fun _ =>
            ⟨event.digest, event.toJson, renderFixedMessage event⟩ := by
  have hsafe := safe_integers h
  obtain ⟨submission, hsubmission, rfl⟩ := submissionOf_eq_ok hsafe
  exact ⟨renderEvent_toJson hsafe, (textLength_message hsafe).2, digest_toJson h, submission,
    hsubmission, readSubmission_toJson submission h⟩

/-- An alert about two crashes. -/
def crashAlert : CounterIncreaseEvent where
  counter := .crash
  createdAt := timestamp sampleCreated
  campaignId := ⟨"campaign:io-uring-native", by decide⟩
  telemetryPacketDigest := sampleDigest
  targetHashes := ⟨sampleDigest, sampleDigest, sampleDigest, sampleDigest⟩
  previousCount := 1
  currentCount := 3
  increase := 2
  previousCount_lt := by decide
  increase_eq := rfl

theorem validateEvent_crashAlert (now : ℤ) :
    validateEvent (.counterIncrease crashAlert : RedactedEvent sampleSha256).toJson now
      = .ok () :=
  validateEvent_counterIncrease crashAlert rfl (by decide) now

/-- The relay reads the submission of the alert. -/
theorem submission_agrees_alert : ∃ submission : RelaySubmission sampleSha256,
    submissionOf (.counterIncrease crashAlert) = .ok submission ∧
      readSubmission sampleSha256 0 (some submission.toJson)
        = .ok ⟨submission.event.digest, submission.event.toJson, submission.fixedMessage⟩ := by
  obtain ⟨-, -, -, submission, hsubmission, hread⟩ := submission_agrees (validateEvent_crashAlert 0)
  have hevent : submission.event = .counterIncrease crashAlert := by
    obtain ⟨created, hcreated, hevent⟩ := submissionOf_eq_ok (safe_integers (validateEvent_crashAlert 0))
    rw [hsubmission, Except.ok.injEq] at hcreated
    rw [hcreated, hevent]
  refine ⟨submission, hsubmission, ?_⟩
  rw [hread 0, validateEvent_crashAlert, submission.fixedMessage_eq, hevent]
  rfl

end IouAi.Relay
