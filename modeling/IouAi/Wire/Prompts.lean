import IouAi.Foundations.Runs
import IouAi.Wire.Projection

/-!
# Prompts over runs of the projectors

The two projectors of prompts run again and again, at any times, while envelopes and candidates are
added. For one subject the outbox holds at most two prompts, and the second was created when the
first had expired (`Prompted`), so that no two can be answered at one time.
-/

namespace IouAi.Wire

open Calendar

variable {sha256 : Sha256}

/-! ## The prompts for a subject -/

/-- What a prompt asks about. -/
inductive Subject
  | envelope (digest : Digest)
  | candidate (digest : Digest)
  deriving DecidableEq

def RedactedEvent.subject? : RedactedEvent sha256 → Option Subject
  | .proposalQuarantined event => some (.envelope event.envelopeDigest)
  | .executionReady event => some (.candidate event.binding.candidateDigest)
  | _ => none

/-- The prompts for a subject, in the order of their creation. -/
def promptsOf (outbox : Outbox sha256) (subject : Subject) : Outbox sha256 :=
  outbox.filter fun event => event.subject? = some subject

/-- The instant that a timestamp names. -/
def instantOf (text : Timestamp) : Option Datetime := (timestampFields text).bind fromIsoformat

/-- The prompt has expired at an instant. -/
def RedactedEvent.ExpiredAt (event : RedactedEvent sha256) (instant : Datetime) : Prop :=
  ∃ challenge expiry, event.approval? = some challenge
    ∧ instantOf challenge.expiresAt = some expiry ∧ expiry ≤ instant

/-- A prompt can be answered from its creation to its expiry. -/
def RedactedEvent.OutstandingAt (event : RedactedEvent sha256) (instant : Datetime) : Prop :=
  ∃ created, instantOf event.createdAt = some created ∧ created ≤ instant
    ∧ event.approval?.isSome ∧ ¬ event.ExpiredAt instant

/-- A prompt as a projector writes it at `current`, with its expiry after that. -/
structure RedactedEvent.Minted (event : RedactedEvent sha256) (current : Datetime) : Prop where
  createdAt_eq : event.createdAt = timestamp current
  expires : ∃ challenge expiry, event.approval? = some challenge
    ∧ challenge.expiresAt = timestamp expiry ∧ current.seconds < expiry.seconds

/-- What the prompts for one subject can be: none, one, or two of which the first had expired when
the second was created. -/
inductive Prompted : Outbox sha256 → Prop
  | none : Prompted []
  | once {first : RedactedEvent sha256} {current : Datetime} (h : first.Minted current) :
      Prompted [first]
  | reissued {first second : RedactedEvent sha256} {current current' : Datetime}
      (h : first.Minted current) (h' : second.Minted current') (hexpired : first.ExpiredAt current') :
      Prompted [first, second]

theorem Prompted.length_le {prompts : Outbox sha256} (h : Prompted prompts) :
    prompts.length ≤ 2 := by
  cases h <;> simp

theorem instantOf_timestamp (instant : Datetime) :
    instantOf (timestamp instant) = some instant.floorSecond :=
  fromIsoformat_timestampText instant

theorem le_floorSecond {instant current : Datetime} (h : instant.floorSecond ≤ current) :
    instant.floorSecond ≤ current.floorSecond := by
  have hmicros : instant.seconds * microsPerSecond ≤ current.micros := h
  change instant.seconds * microsPerSecond ≤ current.seconds * microsPerSecond
  exact Nat.mul_le_mul_right _ ((Nat.le_div_iff_mul_le (by decide)).mpr hmicros)

namespace RedactedEvent

theorem ExpiredAt.mono {event : RedactedEvent sha256} {instant later : Datetime}
    (h : event.ExpiredAt instant) (hle : instant ≤ later) : event.ExpiredAt later := by
  obtain ⟨challenge, expiry, hchallenge, hexpiry, hpast⟩ := h
  exact ⟨challenge, expiry, hchallenge, hexpiry, Nat.le_trans hpast hle⟩

/-- A prompt expires at a whole second. -/
theorem ExpiredAt.floor {event : RedactedEvent sha256} {current instant : Datetime}
    (h : event.ExpiredAt instant) (hminted : event.Minted current) :
    event.ExpiredAt instant.floorSecond := by
  obtain ⟨challenge, expiry, hchallenge, hexpiry, hpast⟩ := h
  obtain ⟨challenge', written, hchallenge', hwritten, -⟩ := hminted.expires
  obtain rfl : challenge = challenge' := Option.some.inj (hchallenge.symm.trans hchallenge')
  have hread : instantOf challenge.expiresAt = some written.floorSecond := by
    rw [hwritten, instantOf_timestamp]
  obtain rfl : expiry = written.floorSecond := Option.some.inj (hexpiry.symm.trans hread)
  exact ⟨challenge, _, hchallenge, hread, le_floorSecond hpast⟩

end RedactedEvent

namespace Prompted

theorem reissued_after {prompts : Outbox sha256} (h : Prompted prompts) :
    prompts.Pairwise fun first second =>
      ∃ created, instantOf second.createdAt = some created ∧ first.ExpiredAt created := by
  cases h with
  | none => exact List.Pairwise.nil
  | once _ => exact List.pairwise_singleton _ _
  | reissued hfirst hsecond hexpired =>
    rw [List.pairwise_pair]
    refine ⟨_, ?_, hexpired.floor hfirst⟩
    rw [hsecond.createdAt_eq, instantOf_timestamp]

theorem exclusive {prompts : Outbox sha256} (h : Prompted prompts) :
    prompts.Pairwise fun first second =>
      ∀ instant, ¬ (first.OutstandingAt instant ∧ second.OutstandingAt instant) := by
  refine h.reissued_after.imp ?_
  rintro first second ⟨created, hcreated, hexpired⟩ instant ⟨⟨-, -, -, -, hnot⟩, hsecond⟩
  obtain ⟨created', hcreated', hle, -, -⟩ := hsecond
  obtain rfl : created = created' := Option.some.inj (hcreated.symm.trans hcreated')
  exact hnot (hexpired.mono hle)

end Prompted

theorem challengeHasExpired_eq_true {challenge : ApprovalChallenge} {current : Datetime}
    (h : challengeHasExpired challenge current = .ok true) :
    ∃ expiry, instantOf challenge.expiresAt = some expiry ∧ expiry ≤ current := by
  unfold challengeHasExpired at h
  split at h
  · rename_i expiry hexpiry
    exact ⟨expiry, hexpiry, by simpa using h⟩
  · cases h

/-! ## Prompts under puts -/

theorem putEvent_eq_ok {outbox outbox' : Outbox sha256} {event : RedactedEvent sha256}
    (h : putEvent outbox event = .ok outbox') : outbox' = outbox ∨ outbox' = outbox ++ [event] := by
  unfold putEvent at h
  split at h
  · exact .inr (Except.ok.inj h).symm
  · split at h
    · exact .inl (Except.ok.inj h).symm
    · cases h

theorem promptsOf_append (outbox : Outbox sha256) (event : RedactedEvent sha256)
    (subject : Subject) : promptsOf (outbox ++ [event]) subject
      = promptsOf outbox subject ++ if event.subject? = some subject then [event] else [] := by
  simp [promptsOf, List.filter_append, List.filter_cons]

/-- An event about another subject, or about none, adds no prompt. -/
theorem promptsOf_putEvent {outbox outbox' : Outbox sha256} {event : RedactedEvent sha256}
    {subject : Subject} (h : putEvent outbox event = .ok outbox')
    (hsubject : event.subject? ≠ some subject) :
    promptsOf outbox' subject = promptsOf outbox subject := by
  rcases putEvent_eq_ok h with rfl | rfl
  · rfl
  · rw [promptsOf_append, if_neg hsubject, List.append_nil]

theorem approval?_of_subject? {event : RedactedEvent sha256} {subject : Subject}
    (h : event.subject? = some subject) : ∃ challenge, event.approval? = some challenge := by
  cases event with
  | proposalQuarantined event => exact ⟨_, rfl⟩
  | executionReady event => exact ⟨_, rfl⟩
  | budgetThreshold event => cases h
  | counterIncrease event => cases h
  | crashTriage event => cases h

/-- The challenges of the prompts for a subject. -/
def challengesOf (outbox : Outbox sha256) (subject : Subject) : List ApprovalChallenge :=
  (promptsOf outbox subject).filterMap RedactedEvent.approval?

theorem challengesOf_eq_nil {outbox : Outbox sha256} {subject : Subject}
    (h : challengesOf outbox subject = []) : promptsOf outbox subject = [] := by
  rw [challengesOf, List.filterMap_eq_nil_iff] at h
  rw [List.eq_nil_iff_forall_not_mem]
  intro event hevent
  have hsubject : event.subject? = some subject := by simpa using (List.mem_filter.mp hevent).2
  obtain ⟨challenge, hchallenge⟩ := approval?_of_subject? hsubject
  rw [h event hevent] at hchallenge
  cases hchallenge

theorem challengesOf_eq_singleton {outbox : Outbox sha256} {subject : Subject}
    {challenge : ApprovalChallenge} (h : challengesOf outbox subject = [challenge]) :
    ∃ event, promptsOf outbox subject = [event] ∧ event.approval? = some challenge := by
  have hall : ∀ event ∈ promptsOf outbox subject, (event.approval?).isSome := by
    intro event hevent
    have hsubject : event.subject? = some subject := by simpa using (List.mem_filter.mp hevent).2
    exact Option.isSome_iff_exists.mpr (approval?_of_subject? hsubject)
  rw [challengesOf] at h
  cases hprompts : promptsOf outbox subject with
  | nil => simp [hprompts] at h
  | cons event rest =>
    rw [hprompts] at h hall
    obtain ⟨first, hfirst⟩ := Option.isSome_iff_exists.mp (hall event List.mem_cons_self)
    rw [List.filterMap_cons_some hfirst] at h
    obtain ⟨rfl, hrest⟩ := List.cons.inj h
    cases rest with
    | nil => exact ⟨event, rfl, hfirst⟩
    | cons other rest =>
      obtain ⟨second, hsecond⟩ := Option.isSome_iff_exists.mp
        (hall other (List.mem_cons_of_mem _ List.mem_cons_self))
      rw [List.filterMap_cons_some hsecond] at hrest
      cases hrest

/-! ## One run of a projector -/

/-- The projector asks about one kind of subject: it knows the challenges of that kind, and mints
its prompts at `current`. -/
structure Prompter.Asks {α : Type} (prompter : Prompter sha256 α) (kind : Digest → Subject)
    (current : Datetime) : Prop where
  kind_injective : Function.Injective kind
  challenge?_eq_some : ∀ event digest challenge, prompter.challenge? event = some (digest, challenge)
    ↔ event.subject? = some (kind digest) ∧ event.approval? = some challenge
  prompt_subject : ∀ item nonce,
    (prompter.prompt item nonce).subject? = some (kind (prompter.digest item))
  prompt_minted : ∀ item nonce, (prompter.prompt item nonce).Minted current

/-- The challenges under a digest, among those that a run knows. -/
def knownOf (challenges : List (Digest × ApprovalChallenge)) (digest : Digest) :
    List ApprovalChallenge :=
  (challenges.filter fun challenge => challenge.1 = digest).map Prod.snd

theorem knownOf_append (challenges challenges' : List (Digest × ApprovalChallenge))
    (digest : Digest) :
    knownOf (challenges ++ challenges') digest
      = knownOf challenges digest ++ knownOf challenges' digest := by
  simp [knownOf]

namespace Prompter.Asks

variable {α : Type} {prompter : Prompter sha256 α} {kind : Digest → Subject} {current : Datetime}

/-- What a run knows of one event. -/
theorem knownOf_toList (h : prompter.Asks kind current) (event : RedactedEvent sha256)
    (digest : Digest) :
    knownOf (prompter.challenge? event).toList digest
      = if event.subject? = some (kind digest) then event.approval?.toList else [] := by
  cases hknown : prompter.challenge? event with
  | none =>
    split
    · rename_i hsubject
      obtain ⟨challenge, hchallenge⟩ := approval?_of_subject? hsubject
      rw [(h.challenge?_eq_some event digest challenge).mpr ⟨hsubject, hchallenge⟩] at hknown
      cases hknown
    · rfl
  | some known =>
    obtain ⟨hsubject, hchallenge⟩ := (h.challenge?_eq_some event known.1 known.2).mp hknown
    by_cases hdigest : known.1 = digest
    · subst hdigest
      simp [knownOf, hsubject, hchallenge]
    · have hother : kind known.1 ≠ kind digest := fun heq => hdigest (h.kind_injective heq)
      simp [knownOf, hsubject, hdigest, hother]

/-- A run knows at first the challenges of the outbox. -/
theorem knownOf_filterMap (h : prompter.Asks kind current) (outbox : Outbox sha256)
    (digest : Digest) :
    knownOf (outbox.filterMap prompter.challenge?) digest = challengesOf outbox (kind digest) := by
  induction outbox with
  | nil => rfl
  | cons event outbox ih =>
    have hcons : (event :: outbox).filterMap prompter.challenge?
        = (prompter.challenge? event).toList ++ outbox.filterMap prompter.challenge? := by
      cases hknown : prompter.challenge? event <;> simp [hknown]
    rw [hcons, knownOf_append, ih, h.knownOf_toList]
    by_cases hsubject : event.subject? = some (kind digest)
    · obtain ⟨challenge, hchallenge⟩ := approval?_of_subject? hsubject
      simp [challengesOf, promptsOf, hsubject, hchallenge]
    · simp [challengesOf, promptsOf, hsubject]

/-- What a run knows of a subject covers the prompts of the outbox, and these are as they may be. -/
def Covered (kind : Digest → Subject) (challenges : List (Digest × ApprovalChallenge))
    (outbox : Outbox sha256) : Prop :=
  (∀ digest, (challengesOf outbox (kind digest)).Sublist (knownOf challenges digest))
    ∧ ∀ subject, Prompted (promptsOf outbox subject)

/-- A prompt that is due keeps the prompts of its subject as they may be. -/
theorem prompted_append (h : prompter.Asks kind current) {item : α} {nonce : Vector UInt8 32}
    {challenges : List (Digest × ApprovalChallenge)} {outbox : Outbox sha256}
    (hcovered : (challengesOf outbox (kind (prompter.digest item))).Sublist
      (knownOf challenges (prompter.digest item)))
    (hprompted : Prompted (promptsOf outbox (kind (prompter.digest item))))
    (hdue : promptDue (knownOf challenges (prompter.digest item)) current = .ok true) :
    Prompted (promptsOf outbox (kind (prompter.digest item)) ++ [prompter.prompt item nonce]) := by
  have hminted := h.prompt_minted item nonce
  cases hknown : knownOf challenges (prompter.digest item) with
  | nil =>
    rw [hknown, List.sublist_nil] at hcovered
    rw [challengesOf_eq_nil hcovered]
    exact .once hminted
  | cons challenge rest =>
    cases rest with
    | nil =>
      rw [hknown] at hcovered hdue
      rcases List.sublist_singleton.mp hcovered with hnone | hone
      · rw [challengesOf_eq_nil hnone]
        exact .once hminted
      · obtain ⟨first, hfirst, hchallenge⟩ := challengesOf_eq_singleton hone
        rw [hfirst] at hprompted ⊢
        obtain ⟨expiry, hexpiry, hpast⟩ := challengeHasExpired_eq_true hdue
        have hexpired : first.ExpiredAt current := ⟨challenge, expiry, hchallenge, hexpiry, hpast⟩
        cases hprompted with
        | once hold => exact .reissued hold hminted hexpired
    | cons other rest =>
      rw [hknown] at hdue
      cases hdue

theorem covered_loop (h : prompter.Asks kind current) {nonces : ℕ → Vector UInt8 32}
    {items : List (Option α)} {challenges : List (Digest × ApprovalChallenge)}
    {outbox : Outbox sha256} {drawn : ℕ} (hcovered : Covered kind challenges outbox)
    (subject : Subject) :
    Prompted (promptsOf (prompter.loop current nonces items challenges outbox drawn).1 subject) := by
  induction items generalizing challenges outbox drawn with
  | nil => exact hcovered.2 subject
  | cons item items ih =>
    cases item with
    | none => exact hcovered.2 subject
    | some item =>
      rw [loop]
      split
      · exact ih hcovered
      · simp only
        split
        · exact hcovered.2 subject
        · exact ih hcovered
        · rename_i hdue
          split
          · exact hcovered.2 subject
          · rename_i outbox' hput
            refine ih ⟨fun digest => ?_, fun subject => ?_⟩
            · rw [knownOf_append, h.knownOf_toList]
              rcases putEvent_eq_ok hput with rfl | rfl
              · exact (hcovered.1 digest).trans (List.sublist_append_left _ _)
              · rw [challengesOf, promptsOf_append, List.filterMap_append]
                refine (hcovered.1 digest).append ?_
                split
                · cases happroval : (prompter.prompt item (nonces drawn)).approval? <;>
                    simp [happroval]
                · exact List.Sublist.refl _
            · by_cases hsubject : kind (prompter.digest item) = subject
              · subst hsubject
                rcases putEvent_eq_ok hput with rfl | rfl
                · exact hcovered.2 _
                · rw [promptsOf_append, if_pos (h.prompt_subject item _)]
                  exact h.prompted_append (hcovered.1 _) (hcovered.2 _) hdue
              · rw [promptsOf_putEvent hput]
                · exact hcovered.2 subject
                · rw [h.prompt_subject item]
                  exact fun heq => hsubject (Option.some.inj heq)

end Prompter.Asks

theorem prompted_projectPrompts {α : Type} {prompter : Datetime → Prompter sha256 α}
    {kind : Digest → Subject} {items : List (Option α)} {outbox : Outbox sha256}
    {current : Datetime} {nonces : ℕ → Vector UInt8 32} {decisionTtl : ℤ}
    (hasks : ∀ expiry, current.seconds < expiry.seconds → (prompter expiry).Asks kind current)
    (h : ∀ subject, Prompted (promptsOf outbox subject)) (subject : Subject) :
    Prompted (promptsOf (projectPrompts prompter items outbox current nonces decisionTtl).1
      subject) := by
  unfold projectPrompts
  split
  · exact h subject
  · rename_i httl
    split
    · exact h subject
    · rename_i expiry hexpiry
      have hlife := seconds_add?_ge (by simpa using httl) hexpiry
      have hask := hasks expiry (by omega)
      exact hask.covered_loop ⟨fun digest => by rw [hask.knownOf_filterMap], h⟩ subject

theorem quarantinePrompter_asks (current expiry : Datetime) (h : current.seconds < expiry.seconds) :
    (quarantinePrompter sha256 current expiry).Asks .envelope current where
  kind_injective _ _ heq := Subject.envelope.inj heq
  challenge?_eq_some event digest challenge := by
    cases event <;> simp [quarantinePrompter, RedactedEvent.subject?, RedactedEvent.approval?]
  prompt_subject _ _ := rfl
  prompt_minted _ _ := ⟨rfl, _, expiry, rfl, rfl, h⟩

theorem executionPrompter_asks (current expiry : Datetime) (h : current.seconds < expiry.seconds) :
    (executionPrompter sha256 current expiry).Asks .candidate current where
  kind_injective _ _ heq := Subject.candidate.inj heq
  challenge?_eq_some event digest challenge := by
    cases event <;> simp [executionPrompter, RedactedEvent.subject?, RedactedEvent.approval?]
  prompt_subject _ _ := rfl
  prompt_minted _ _ := ⟨rfl, _, expiry, rfl, rfl, h⟩

/-! ## Any sequence of runs -/

/-- What the projectors of prompts read and write. An item that is none is unreadable. -/
structure PromptHost (sha256 : Sha256) where
  quarantine : List (Option QuarantineItem)
  candidates : List (Option CandidateItem)
  outbox : Outbox sha256

namespace PromptHost

/-- One event of the host: an item is added, a projector runs at some time over the items in some
order, or another event is put. -/
inductive Step : PromptHost sha256 → Option Datetime → PromptHost sha256 → Prop
  | addEnvelope {host : PromptHost sha256} (item : QuarantineItem)
      (hnew : ∀ other, some other ∈ host.quarantine →
        other.envelopeDigest ≠ item.envelopeDigest) :
      Step host none { host with quarantine := host.quarantine ++ [some item] }
  | addUnreadableEnvelope {host : PromptHost sha256} :
      Step host none { host with quarantine := host.quarantine ++ [none] }
  | addCandidate {host : PromptHost sha256} (item : Option CandidateItem) :
      Step host none { host with candidates := host.candidates ++ [item] }
  | putOther {host : PromptHost sha256} {event : RedactedEvent sha256} {outbox : Outbox sha256}
      (hother : event.subject? = none) (hput : putEvent host.outbox event = .ok outbox) :
      Step host none { host with outbox := outbox }
  | projectQuarantine {host : PromptHost sha256} {items : List (Option QuarantineItem)}
      (hitems : items.Perm host.quarantine) (current : Datetime) (nonces : ℕ → Vector UInt8 32)
      (decisionTtl : ℤ) :
      Step host (some current) { host with
        outbox := (projectQuarantine items host.outbox current nonces decisionTtl).1 }
  | projectExecutionReady {host : PromptHost sha256} {items : List (Option CandidateItem)}
      (hitems : items.Perm host.candidates) (current : Datetime) (nonces : ℕ → Vector UInt8 32)
      (decisionTtl : ℤ) :
      Step host (some current) { host with
        outbox := (projectExecutionReady items host.outbox current nonces decisionTtl).1 }

/-- The hosts of runs from empty directories. -/
def Reachable (host : PromptHost sha256) : Prop :=
  Relation.ReflTransGen (fun host host' => ∃ at?, Step host at? host') ⟨[], [], []⟩ host

/-- The digest of a challenge is the one of its event. -/
def Binds : RedactedEvent sha256 → Prop
  | .proposalQuarantined event => event.approval.bindingDigest = approvalBindingDigest sha256
      event.envelopeDigest event.targetHashes event.approval.nonce event.approval.humanCode
      event.approval.expiresAt
  | .executionReady event => event.approval.bindingDigest = executionApprovalBindingDigest sha256
      event.binding event.approval.nonce event.approval.humanCode event.approval.expiresAt
  | _ => True

/-- What the runs keep. -/
structure Inv (host : PromptHost sha256) : Prop where
  prompted : ∀ subject, Prompted (promptsOf host.outbox subject)
  unique : ∀ item other, some item ∈ host.quarantine → some other ∈ host.quarantine →
    item.envelopeDigest = other.envelopeDigest → item = other
  uncompiled : ∀ event ∈ host.outbox, ∀ digest, event.subject? = some (.envelope digest) →
    ∃ item, some item ∈ host.quarantine ∧ item.envelopeDigest = digest
      ∧ item.compiledArtifactHashes = []

/-- No subject has more than two prompts, the second made when the first had expired; no two can be
answered at one time; the challenges are bound to their events; and no envelope with compiled
artifacts has a prompt. -/
structure Safe (host : PromptHost sha256) : Prop where
  length_le : ∀ subject, (promptsOf host.outbox subject).length ≤ 2
  reissued : ∀ subject, (promptsOf host.outbox subject).Pairwise fun first second =>
    ∃ created, instantOf second.createdAt = some created ∧ first.ExpiredAt created
  exclusive : ∀ subject, (promptsOf host.outbox subject).Pairwise fun first second =>
    ∀ instant, ¬ (first.OutstandingAt instant ∧ second.OutstandingAt instant)
  binds : ∀ event ∈ host.outbox, Binds event
  uncompiled : ∀ item, some item ∈ host.quarantine → item.compiledArtifactHashes ≠ [] →
    promptsOf host.outbox (.envelope item.envelopeDigest) = []

theorem mem_promptsOf {outbox : Outbox sha256} {subject : Subject} {event : RedactedEvent sha256} :
    event ∈ promptsOf outbox subject ↔ event ∈ outbox ∧ event.subject? = some subject := by
  simp [promptsOf]

theorem inv_step {host host' : PromptHost sha256} {at? : Option Datetime} (h : Inv host)
    (hstep : Step host at? host') : Inv host' := by
  cases hstep with
  | addEnvelope item hnew =>
    refine ⟨h.prompted, ?_, ?_⟩
    · intro first second hfirst hsecond hdigest
      rcases List.mem_append.mp hfirst with hfirst | hfirst <;>
        rcases List.mem_append.mp hsecond with hsecond | hsecond
      · exact h.unique first second hfirst hsecond hdigest
      · have heq : second = item := Option.some.inj (List.mem_singleton.mp hsecond)
        exact absurd (heq ▸ hdigest) (hnew first hfirst)
      · have heq : first = item := Option.some.inj (List.mem_singleton.mp hfirst)
        exact absurd (heq ▸ hdigest.symm) (hnew second hsecond)
      · have heq : first = item := Option.some.inj (List.mem_singleton.mp hfirst)
        exact heq.trans (Option.some.inj (List.mem_singleton.mp hsecond)).symm
    · intro event hevent digest hdigest
      obtain ⟨other, hother, hrest⟩ := h.uncompiled event hevent digest hdigest
      exact ⟨other, List.mem_append_left _ hother, hrest⟩
  | addUnreadableEnvelope =>
    refine ⟨h.prompted, ?_, ?_⟩
    · simpa using h.unique
    · intro event hevent digest hdigest
      obtain ⟨other, hother, hrest⟩ := h.uncompiled event hevent digest hdigest
      exact ⟨other, List.mem_append_left _ hother, hrest⟩
  | addCandidate item => exact ⟨h.prompted, h.unique, h.uncompiled⟩
  | putOther hother hput =>
    refine ⟨fun subject => ?_, h.unique, ?_⟩
    · rw [promptsOf_putEvent hput (by simp [hother])]
      exact h.prompted subject
    · intro event hevent digest hdigest
      rcases mem_putEvent hput hevent with hevent | rfl
      · exact h.uncompiled event hevent digest hdigest
      · rw [hother] at hdigest
        cases hdigest
  | projectQuarantine hitems current nonces decisionTtl =>
    refine ⟨?_, h.unique, ?_⟩
    · exact prompted_projectPrompts (quarantinePrompter_asks current) h.prompted
    · intro event hevent digest hdigest
      rcases mem_projectPrompts hevent with hold | ⟨-, expiry, -, item, hitem, hskip, nonce, rfl⟩
      · exact h.uncompiled event hold digest hdigest
      · refine ⟨item, hitems.mem_iff.mp hitem, Subject.envelope.inj (Option.some.inj hdigest), ?_⟩
        simpa [quarantinePrompter] using hskip
  | projectExecutionReady hitems current nonces decisionTtl =>
    refine ⟨?_, h.unique, ?_⟩
    · exact prompted_projectPrompts (executionPrompter_asks current) h.prompted
    · intro event hevent digest hdigest
      rcases mem_projectPrompts hevent with hold | ⟨-, expiry, -, item, -, -, nonce, rfl⟩
      · exact h.uncompiled event hold digest hdigest
      · cases hdigest

theorem inv_of_reachable {host : PromptHost sha256} (h : Reachable host) : Inv host := by
  refine Runs.reflTransGen_preserves ?_ h ?_
  · rintro host host' ⟨at?, hstep⟩ hinv
    exact inv_step hinv hstep
  · exact ⟨fun _ => .none, by simp, by simp⟩

theorem binds (event : RedactedEvent sha256) : Binds event := by
  cases event with
  | proposalQuarantined event => exact event.challenge_binds_event
  | executionReady event => exact event.challenge_binds_execution
  | budgetThreshold event => exact trivial
  | counterIncrease event => exact trivial
  | crashTriage event => exact trivial

/-- An envelope that is named once and was prompted for has no compiled artifacts. -/
theorem promptsOf_compiled {host : PromptHost sha256} (h : Inv host) {item : QuarantineItem}
    (hitem : some item ∈ host.quarantine) (hcompiled : item.compiledArtifactHashes ≠ []) :
    promptsOf host.outbox (.envelope item.envelopeDigest) = [] := by
  rw [List.eq_nil_iff_forall_not_mem]
  intro event hevent
  obtain ⟨hmem, hsubject⟩ := mem_promptsOf.mp hevent
  obtain ⟨other, hother, hdigest, hnone⟩ := h.uncompiled event hmem _ hsubject
  rw [h.unique other item hother hitem hdigest] at hnone
  exact hcompiled hnone

theorem safe_of_inv {host : PromptHost sha256} (h : Inv host) : Safe host where
  length_le subject := (h.prompted subject).length_le
  reissued subject := (h.prompted subject).reissued_after
  exclusive subject := (h.prompted subject).exclusive
  binds event _ := PromptHost.binds event
  uncompiled _ := promptsOf_compiled h

/-- The events of a run of a projector are minted at its instant. -/
theorem minted_of_step {host host' : PromptHost sha256} {current : Datetime}
    (hstep : Step host (some current) host') {event : RedactedEvent sha256}
    (hevent : event ∈ host'.outbox) (hnew : event ∉ host.outbox) : event.Minted current := by
  cases hstep with
  | projectQuarantine hitems _ nonces decisionTtl =>
    rcases mem_projectPrompts hevent with hold | ⟨httl, expiry, hexpiry, item, -, -, nonce, rfl⟩
    · exact absurd hold hnew
    · have hlife := seconds_add?_ge httl hexpiry
      exact (quarantinePrompter_asks current expiry (by omega)).prompt_minted item nonce
  | projectExecutionReady hitems _ nonces decisionTtl =>
    rcases mem_projectPrompts hevent with hold | ⟨httl, expiry, hexpiry, item, -, -, nonce, rfl⟩
    · exact absurd hold hnew
    · have hlife := seconds_add?_ge httl hexpiry
      exact (executionPrompter_asks current expiry (by omega)).prompt_minted item nonce

/-- Over any sequence of runs at any times the prompts are safe, and a run only reissues a prompt
that has expired at its instant. -/
theorem prompts_safe {host : PromptHost sha256} (h : Reachable host) :
    Safe host ∧ ∀ current host', Step host (some current) host' → ∀ subject first second,
      promptsOf host'.outbox subject = [first, second] → second ∉ host.outbox →
        first.ExpiredAt current := by
  have hinv := inv_of_reachable h
  refine ⟨safe_of_inv hinv, ?_⟩
  intro current host' hstep subject first second hprompts hnew
  have hinv' := inv_step hinv hstep
  have hsecond : second ∈ host'.outbox :=
    (mem_promptsOf.mp (hprompts ▸ List.mem_cons_of_mem _ List.mem_cons_self)).1
  have hminted := minted_of_step hstep hsecond hnew
  have hprompted := hinv'.prompted subject
  rw [hprompts] at hprompted
  cases hprompted with
  | reissued hfirst hdated hexpired =>
    have htime := hminted.createdAt_eq.symm.trans hdated.createdAt_eq
    have hfloor := congrArg instantOf htime
    rw [instantOf_timestamp, instantOf_timestamp, Option.some.injEq] at hfloor
    refine (hexpired.floor hfirst).mono ?_
    rw [← hfloor]
    exact Nat.div_mul_le_self _ _

/-! ## One prompt -/

def zeroBytes : Sha256 := fun _ => Vector.replicate 32 0

def promptedItem : QuarantineItem where
  envelopeDigest := contentDigest zeroBytes []
  proposalHash := contentDigest zeroBytes []
  targetHashes := ⟨contentDigest zeroBytes [], contentDigest zeroBytes [],
    contentDigest zeroBytes [], contentDigest zeroBytes []⟩
  compiledArtifactHashes := []

/-- The host after one run, on 2026-01-01, with a prompt of thirty minutes. -/
def promptedHost : PromptHost zeroBytes :=
  ⟨[some promptedItem], [], (Wire.projectQuarantine [some promptedItem] []
    ⟨63902822400000000, newYear_lt⟩ (fun _ => Vector.replicate 32 0) 1800000000).1⟩

theorem promptedHost_reachable : Reachable promptedHost :=
  (Relation.ReflTransGen.single ⟨none, .addEnvelope promptedItem (by simp)⟩).tail
    ⟨_, .projectQuarantine (List.Perm.refl _) _ _ _⟩

theorem promptedHost_outbox : promptedHost.outbox = [.proposalQuarantined (proposalEvent zeroBytes
    ⟨63902822400000000, by decide⟩ ⟨63902824200000000, by decide⟩ promptedItem
    (Vector.replicate 32 0))] := by
  have hexpiry : (Datetime.mk 63902822400000000 (by decide)).add? (1800000000 : ℤ).toNat
      = some ⟨63902824200000000, by decide⟩ := by decide
  have httl : ttlAccepted 1800000000 = true := by decide
  simp only [promptedHost, Wire.projectQuarantine, projectPrompts, httl, Bool.not_true,
    Bool.false_eq_true, if_false, hexpiry]
  rfl

theorem prompts_safe_promptedHost : promptedHost.outbox.length = 1 ∧ Safe promptedHost :=
  ⟨by rw [promptedHost_outbox]; rfl, (prompts_safe promptedHost_reachable).1⟩

end PromptHost

end IouAi.Wire
