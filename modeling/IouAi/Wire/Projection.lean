import IouAi.Budget.Status
import IouAi.Wire.Records

/-!
# Projection of events

The create-only outbox of the host and the projectors that fill it: approval prompts for quarantined
envelopes and for execution candidates, crossings of budget thresholds, and increases of counters. A
projector that raises leaves the events in the outbox that it has put there before.
-/

namespace IouAi.Wire

open Calendar

variable {sha256 : Sha256}

inductive ProjectionError
  | decisionTtl
  | invalidItem
  | digestCollision
  | invalidExpiration
  | dateOverflow
  | invalidEvent
  deriving DecidableEq

/-! ## The outbox -/

abbrev Outbox (sha256 : Sha256) := List (RedactedEvent sha256)

/-- `EventOutbox.put`: an event is stored once under its digest. -/
def putEvent (outbox : Outbox sha256) (event : RedactedEvent sha256) :
    Except ProjectionError (Outbox sha256) :=
  match outbox.find? fun other => other.digest = event.digest with
  | none => .ok (outbox ++ [event])
  | some existing =>
    if canonicalJson existing.toJson = canonicalJson event.toJson then .ok outbox
    else .error .digestCollision

theorem mem_putEvent {outbox outbox' : Outbox sha256} {event other : RedactedEvent sha256}
    (h : putEvent outbox event = .ok outbox') (hother : other ∈ outbox') :
    other ∈ outbox ∨ other = event := by
  unfold putEvent at h
  split at h
  · cases h
    simpa using hother
  · split at h
    · cases h
      exact .inl hother
    · cases h

/-! ## Approval prompts -/

/-- `_challenge_has_expired`. -/
def challengeHasExpired (challenge : ApprovalChallenge) (current : Datetime) :
    Except ProjectionError Bool :=
  match (timestampFields challenge.expiresAt).bind fromIsoformat with
  | some expiry => .ok (expiry ≤ current)
  | none => .error .invalidExpiration

/-- A prompt is due when there is none yet, or a single one that has expired. -/
def promptDue (prior : List ApprovalChallenge) (current : Datetime) :
    Except ProjectionError Bool :=
  match prior with
  | [] => .ok true
  | [challenge] => challengeHasExpired challenge current
  | _ => .ok false

/-- What a projector of prompts does with its items: which of them it passes over, the digest that
an item is prompted under, the challenges of that digest among the events, and the prompt that it
makes from the random bytes of a nonce. -/
structure Prompter (sha256 : Sha256) (α : Type) where
  skip : α → Bool
  digest : α → Digest
  challenge? : RedactedEvent sha256 → Option (Digest × ApprovalChallenge)
  prompt : α → Vector UInt8 32 → RedactedEvent sha256

namespace Prompter

variable {α : Type} (prompter : Prompter sha256 α)

/-- The loop over the items. `challenges` are the prompts that are known, each with its digest; an
item that is none is unreadable; `nonces` is the source of random bytes. -/
def loop (current : Datetime) (nonces : ℕ → Vector UInt8 32) :
    List (Option α) → List (Digest × ApprovalChallenge) → Outbox sha256 → ℕ →
      Outbox sha256 × Except ProjectionError (List (RedactedEvent sha256))
  | [], _, outbox, _ => (outbox, .ok [])
  | none :: _, _, outbox, _ => (outbox, .error .invalidItem)
  | some item :: items, challenges, outbox, drawn =>
    if prompter.skip item then loop current nonces items challenges outbox drawn
    else
      let prior := (challenges.filter fun challenge => challenge.1 = prompter.digest item).map
        Prod.snd
      match promptDue prior current with
      | .error error => (outbox, .error error)
      | .ok false => loop current nonces items challenges outbox drawn
      | .ok true =>
        let event := prompter.prompt item (nonces drawn)
        match putEvent outbox event with
        | .error error => (outbox, .error error)
        | .ok outbox' =>
          let (final, result) := loop current nonces items
            (challenges ++ (prompter.challenge? event).toList) outbox' (drawn + 1)
          (final, (event :: ·) <$> result)

/-- Every new event of the loop is a prompt for one of the items. -/
theorem mem_loop {current : Datetime} {nonces : ℕ → Vector UInt8 32} {items : List (Option α)}
    {challenges : List (Digest × ApprovalChallenge)} {outbox : Outbox sha256} {drawn : ℕ}
    {event : RedactedEvent sha256}
    (h : event ∈ (prompter.loop current nonces items challenges outbox drawn).1) :
    event ∈ outbox ∨ ∃ item, some item ∈ items ∧ prompter.skip item = false
      ∧ ∃ nonce, event = prompter.prompt item nonce := by
  induction items generalizing challenges outbox drawn with
  | nil => exact .inl h
  | cons item items ih =>
    have hrest : ∀ {challenges outbox drawn},
        event ∈ (prompter.loop current nonces items challenges outbox drawn).1 →
          event ∈ outbox ∨ ∃ other, some other ∈ item :: items ∧ prompter.skip other = false
            ∧ ∃ nonce, event = prompter.prompt other nonce := by
      intro challenges outbox drawn h
      rcases ih h with h | ⟨other, hother, hprompt⟩
      · exact .inl h
      · exact .inr ⟨other, List.mem_cons_of_mem _ hother, hprompt⟩
    cases item with
    | none => exact .inl h
    | some item =>
      rw [loop] at h
      split at h
      · exact hrest h
      · rename_i hskip
        simp only at h
        split at h
        · exact .inl h
        · exact hrest h
        · split at h
          · exact .inl h
          · rename_i outbox' hput
            rcases hrest h with h | h
            · rcases mem_putEvent hput h with h | h
              · exact .inl h
              · exact .inr ⟨item, List.mem_cons_self, by simpa using hskip, _, h⟩
            · exact .inr h

end Prompter

/-- `decision_ttl` in microseconds, between five minutes and forty-eight hours. -/
def ttlAccepted (decisionTtl : ℤ) : Bool :=
  5 * 60 * 1000000 ≤ decisionTtl && decisionTtl ≤ 48 * 3600 * 1000000

/-- An accepted lifetime leaves at least five minutes between the two times as they are written. -/
theorem seconds_add?_ge {current expiry : Datetime} {decisionTtl : ℤ}
    (httl : ttlAccepted decisionTtl = true)
    (hexpiry : current.add? decisionTtl.toNat = some expiry) :
    current.seconds + 5 * 60 ≤ expiry.seconds := by
  simp only [ttlAccepted, Bool.and_eq_true, decide_eq_true_eq] at httl
  unfold Datetime.add? at hexpiry
  split at hexpiry
  · cases hexpiry
    simp only [Datetime.seconds, microsPerSecond]
    omega
  · cases hexpiry

/-- A projector of prompts: its instant, the expiry of its prompts, and the loop. -/
def projectPrompts {α : Type} (prompter : Datetime → Prompter sha256 α) (items : List (Option α))
    (outbox : Outbox sha256) (current : Datetime) (nonces : ℕ → Vector UInt8 32)
    (decisionTtl : ℤ) : Outbox sha256 × Except ProjectionError (List (RedactedEvent sha256)) :=
  if !ttlAccepted decisionTtl then (outbox, .error .decisionTtl)
  else
    match current.add? decisionTtl.toNat with
    | none => (outbox, .error .dateOverflow)
    | some expiry =>
      let prompter := prompter expiry
      prompter.loop current nonces items (outbox.filterMap prompter.challenge?) outbox 0

/-- What the projector reads of a quarantined envelope, under the digest of the envelope. -/
structure QuarantineItem where
  envelopeDigest : Digest
  proposalHash : Digest
  targetHashes : TargetHashes
  compiledArtifactHashes : List Digest

def newChallenge (sha256 : Sha256) (item : QuarantineItem) (nonce : Vector UInt8 32)
    (expiresAt : Timestamp) : ApprovalChallenge where
  nonce := nonceOf nonce
  humanCode := humanCode sha256 item.envelopeDigest nonce
  expiresAt := expiresAt
  bindingDigest := approvalBindingDigest sha256 item.envelopeDigest item.targetHashes
    (nonceOf nonce) (humanCode sha256 item.envelopeDigest nonce) expiresAt

def proposalEvent (sha256 : Sha256) (current expiry : Datetime) (item : QuarantineItem)
    (nonce : Vector UInt8 32) : ProposalQuarantinedEvent sha256 where
  createdAt := timestamp current
  envelopeDigest := item.envelopeDigest
  proposalHash := item.proposalHash
  targetHashes := item.targetHashes
  approval := newChallenge sha256 item nonce (timestamp expiry)
  challenge_binds_event := rfl

/-- Envelopes with compiled artifacts go on to the canary without a prompt. -/
def quarantinePrompter (sha256 : Sha256) (current expiry : Datetime) :
    Prompter sha256 QuarantineItem where
  skip item := !item.compiledArtifactHashes.isEmpty
  digest := QuarantineItem.envelopeDigest
  challenge?
    | .proposalQuarantined event => some (event.envelopeDigest, event.approval)
    | _ => none
  prompt item nonce := .proposalQuarantined (proposalEvent sha256 current expiry item nonce)

def projectQuarantine (items : List (Option QuarantineItem)) (outbox : Outbox sha256)
    (current : Datetime) (nonces : ℕ → Vector UInt8 32) (decisionTtl : ℤ) :
    Outbox sha256 × Except ProjectionError (List (RedactedEvent sha256)) :=
  projectPrompts (quarantinePrompter sha256 current) items outbox current nonces decisionTtl

/-- A stored candidate under the digest of its file. -/
structure CandidateItem where
  candidateDigest : Digest
  candidate : ExecutionCandidate

def newExecutionChallenge (sha256 : Sha256) (binding : ExecutionBinding) (nonce : Vector UInt8 32)
    (expiresAt : Timestamp) : ApprovalChallenge where
  nonce := nonceOf nonce
  humanCode := humanCode sha256 binding.candidateDigest nonce
  expiresAt := expiresAt
  bindingDigest := executionApprovalBindingDigest sha256 binding (nonceOf nonce)
    (humanCode sha256 binding.candidateDigest nonce) expiresAt

def executionEvent (sha256 : Sha256) (current expiry : Datetime) (item : CandidateItem)
    (nonce : Vector UInt8 32) : ExecutionReadyEvent sha256 where
  createdAt := timestamp current
  binding := item.candidate.binding item.candidateDigest
  approval := newExecutionChallenge sha256 (item.candidate.binding item.candidateDigest) nonce
    (timestamp expiry)
  challenge_binds_execution := rfl

def executionPrompter (sha256 : Sha256) (current expiry : Datetime) :
    Prompter sha256 CandidateItem where
  skip _ := false
  digest := CandidateItem.candidateDigest
  challenge?
    | .executionReady event => some (event.binding.candidateDigest, event.approval)
    | _ => none
  prompt item nonce := .executionReady (executionEvent sha256 current expiry item nonce)

def projectExecutionReady (items : List (Option CandidateItem)) (outbox : Outbox sha256)
    (current : Datetime) (nonces : ℕ → Vector UInt8 32) (decisionTtl : ℤ) :
    Outbox sha256 × Except ProjectionError (List (RedactedEvent sha256)) :=
  projectPrompts (executionPrompter sha256 current) items outbox current nonces decisionTtl

/-- Every new event of a projector of prompts is a prompt under an accepted lifetime. -/
theorem mem_projectPrompts {α : Type} {prompter : Datetime → Prompter sha256 α}
    {items : List (Option α)} {outbox : Outbox sha256} {current : Datetime}
    {nonces : ℕ → Vector UInt8 32} {decisionTtl : ℤ} {event : RedactedEvent sha256}
    (h : event ∈ (projectPrompts prompter items outbox current nonces decisionTtl).1) :
    event ∈ outbox ∨ ttlAccepted decisionTtl = true
      ∧ ∃ expiry, current.add? decisionTtl.toNat = some expiry
        ∧ ∃ item, some item ∈ items ∧ (prompter expiry).skip item = false
          ∧ ∃ nonce, event = (prompter expiry).prompt item nonce := by
  unfold projectPrompts at h
  split at h
  · exact .inl h
  · rename_i httl
    split at h
    · exact .inl h
    · rename_i expiry hexpiry
      rcases (prompter expiry).mem_loop h with h | h
      · exact .inl h
      · exact .inr ⟨by simpa using httl, expiry, hexpiry, h⟩

/-! ## Events without a prompt -/

/-- The loop that puts one event for each item that has none yet, by the key of the event. -/
def projectKeyed {α : Type} (isProjected : Outbox sha256 → α → Bool)
    (event? : α → Option (RedactedEvent sha256)) :
    List α → Outbox sha256 → Outbox sha256 × Except ProjectionError (List (RedactedEvent sha256))
  | [], outbox => (outbox, .ok [])
  | item :: items, outbox =>
    if isProjected outbox item then projectKeyed isProjected event? items outbox
    else
      match event? item with
      | none => (outbox, .error .invalidEvent)
      | some event =>
        match putEvent outbox event with
        | .error error => (outbox, .error error)
        | .ok outbox' =>
          let (final, result) := projectKeyed isProjected event? items outbox'
          (final, (event :: ·) <$> result)

theorem mem_projectKeyed {α : Type} {isProjected : Outbox sha256 → α → Bool}
    {event? : α → Option (RedactedEvent sha256)} {items : List α} {outbox : Outbox sha256}
    {event : RedactedEvent sha256} (h : event ∈ (projectKeyed isProjected event? items outbox).1) :
    event ∈ outbox ∨ ∃ item ∈ items, event? item = some event := by
  induction items generalizing outbox with
  | nil => exact .inl h
  | cons item items ih =>
    have hrest : ∀ {outbox}, event ∈ (projectKeyed isProjected event? items outbox).1 →
        event ∈ outbox ∨ ∃ other ∈ item :: items, event? other = some event := by
      intro outbox h
      rcases ih h with h | ⟨other, hother, hevent⟩
      · exact .inl h
      · exact .inr ⟨other, List.mem_cons_of_mem _ hother, hevent⟩
    rw [projectKeyed] at h
    split at h
    · exact hrest h
    · split at h
      · exact .inl h
      · rename_i new hnew
        split at h
        · exact .inl h
        · rename_i outbox' hput
          rcases hrest h with h | h
          · rcases mem_putEvent hput h with h | rfl
            · exact .inl h
            · exact .inr ⟨item, List.mem_cons_self, hnew⟩
          · exact .inr h

/-- The event of a crossed threshold; none when the amounts of the status are inconsistent. -/
def budgetEvent? (status : Budget.BudgetStatus) (createdAt : Datetime) (threshold : ℕ) :
    Option BudgetThresholdEvent :=
  if hmonth : isMonthOver isDecimalDigit status.month = true then
    if hamounts : threshold < status.hardLimit ∧ threshold ≤ status.effectiveSpend
        ∧ status.remaining = status.hardLimit - status.effectiveSpend then
      some {
        createdAt := timestamp createdAt
        severity := if status.warningLevel = .critical ∨ status.warningLevel = .exhausted then
          .critical else .warning
        month := ⟨status.month, hmonth⟩
        threshold := threshold
        effectiveSpend := status.effectiveSpend
        hardLimit := status.hardLimit
        remaining := status.remaining
        threshold_lt_hardLimit := hamounts.1
        threshold_le_effectiveSpend := hamounts.2.1
        remaining_eq := hamounts.2.2 }
    else none
  else none

/-- The crossing of the month and the threshold has an event. -/
def isBudgetProjected (month : String) (outbox : Outbox sha256) (threshold : ℕ) : Bool :=
  outbox.any fun
    | .budgetThreshold event => event.month = month && event.threshold = threshold
    | _ => false

def projectBudgetStatus (status : Budget.BudgetStatus) (outbox : Outbox sha256)
    (createdAt : Datetime) :
    Outbox sha256 × Except ProjectionError (List (RedactedEvent sha256)) :=
  projectKeyed (isBudgetProjected status.month)
    (fun threshold => (budgetEvent? status createdAt threshold).map .budgetThreshold)
    (status.crossedThresholds.dedup.insertionSort (· ≤ ·)) outbox

/-- The baseline of the counters of a campaign. -/
structure CounterSnapshot where
  campaignId : Identifier
  telemetryPacketDigest : Digest
  targetHashes : TargetHashes
  crashCount : ℕ
  hangCount : ℕ
  deriving DecidableEq

def CounterSnapshot.count (snapshot : CounterSnapshot) : Counter → ℕ
  | .crash => snapshot.crashCount
  | .hang => snapshot.hangCount

/-- The event of a counter that has grown. -/
def counterEvent? (previous current : CounterSnapshot) (createdAt : Datetime) (counter : Counter) :
    Option CounterIncreaseEvent :=
  if h : previous.count counter < current.count counter then
    some {
      counter := counter
      createdAt := timestamp createdAt
      campaignId := current.campaignId
      telemetryPacketDigest := current.telemetryPacketDigest
      targetHashes := current.targetHashes
      previousCount := previous.count counter
      currentCount := current.count counter
      increase := current.count counter - previous.count counter
      previousCount_lt := h
      increase_eq := rfl }
  else none

/-- The counter of the packet has an event. -/
def isCounterProjected (current : CounterSnapshot) (outbox : Outbox sha256) (counter : Counter) :
    Bool :=
  outbox.any fun
    | .counterIncrease event => event.counter = counter && event.campaignId = current.campaignId
        && event.telemetryPacketDigest = current.telemetryPacketDigest
    | _ => false

/-- The first observation, and a change of the campaign, the target or the direction of a counter,
only set the baseline. -/
def projectCounterSnapshot (previous : Option CounterSnapshot) (current : CounterSnapshot)
    (outbox : Outbox sha256) (createdAt : Datetime) :
    Outbox sha256 × Except ProjectionError (List (RedactedEvent sha256)) :=
  match previous with
  | none => (outbox, .ok [])
  | some previous =>
    if previous.campaignId ≠ current.campaignId ∨ previous.targetHashes ≠ current.targetHashes
        ∨ current.crashCount < previous.crashCount ∨ current.hangCount < previous.hangCount then
      (outbox, .ok [])
    else
      projectKeyed (isCounterProjected current)
        (fun counter => (counterEvent? previous current createdAt counter).map .counterIncrease)
        ([Counter.crash, Counter.hang].filter fun counter =>
          previous.count counter < current.count counter) outbox

end IouAi.Wire
