import IouAi.Authority.Scan

/-!
# Retired artifacts

An envelope is done when one of its artifacts passes, or when it was tried often enough. Its other
artifacts are retired with it, so a run can retire an artifact for the success of another one
(`pair_retired_unfairly`). When no run does, every retired artifact has passed or was tried often
enough (`scan_fair`).
-/

namespace IouAi.Authority

open Checks Runs Storage
open Wire hiding TargetHashes

/-! ## Retired artifacts -/

/-- How often the canary of an artifact of an envelope has ended with an outcome. -/
def tries (visits : List Visit) (digest artifact : Digest) : ℕ :=
  ((visits.filter fun visit => visit.envelopeDigest = digest).flatMap Visit.results).countP
    fun result => result.1 = artifact

/-- The artifact of the envelope has passed a canary. -/
def HasPassed (visits : List Visit) (digest artifact : Digest) : Prop :=
  ∃ visit ∈ visits, visit.envelopeDigest = digest ∧
    ∃ result ∈ visit.results, result.1 = artifact ∧ result.2.outcome = .candidateReady

section Fair

variable (sha256 : Sha256) (loads : Bytes → Option Json)
  (parseEnvelope : QuarantineStore.Envelope → Option QuarantineEnvelope) (maxAttempts : ℤ)

/-- No artifact is retired before it has passed a canary or was tried often enough. -/
def Fair (host : ScanHost) : Prop :=
  ∀ digest envelope,
    loadEnvelope sha256 loads parseEnvelope host.quarantine digest = .ok envelope →
    isDone host.processedDir digest →
    ∀ artifact ∈ envelope.fields.compiledArtifactHashes,
      HasPassed host.visits digest artifact ∨ maxAttempts ≤ tries host.visits digest artifact

/-- The run gets as far as the target. -/
def Reaches (process : Digest → Visit) (targets : List Digest) (digest : Digest) : Prop :=
  ∃ before after, targets = before ++ digest :: after ∧
    ∀ earlier ∈ before, (process earlier).stops = none

/-- When the visit of a target finds that an artifact passes, each other one passes as well, or has
passed before, or is tried for the last time. -/
def UniformVisit (host : ScanHost) (visit : Visit) (target : Digest) : Prop :=
  ∀ envelope, loadEnvelope sha256 loads parseEnvelope host.quarantine target = .ok envelope →
    visit.passed = true → ∀ artifact ∈ envelope.fields.compiledArtifactHashes,
      HasPassed [visit] target artifact ∨ HasPassed host.visits target artifact ∨
        maxAttempts ≤ tries host.visits target artifact
          + envelope.fields.compiledArtifactHashes.count artifact

/-- A run that retires no artifact for the success of another one. The envelopes that it is given are
in the quarantine. -/
structure Uniform (host : ScanHost) (args : ScanArgs) (attempt : Attempt) : Prop where
  stored : ∀ digest ∈ args.envelopes, (host.quarantine.get? digest).isSome
  together : ∀ targets, host.targets sha256 loads maxAttempts args = .ok targets →
    ∀ target, Reaches (host.process sha256 loads parseEnvelope attempt) targets target →
    UniformVisit sha256 loads parseEnvelope maxAttempts host
      (host.process sha256 loads parseEnvelope attempt target) target

/-- The inputs of hosts on which every run is uniform. -/
def UniformInput (host : ScanHost) : ScanInput → Prop
  | .publish _ _ => True
  | .run args attempt => Uniform sha256 loads parseEnvelope maxAttempts host args attempt

end Fair

section Tries

variable {visits : List Visit} {visit : Visit} {digest artifact : Digest}

theorem tries_append (visits others : List Visit) (digest artifact : Digest) :
    tries (visits ++ others) digest artifact
      = tries visits digest artifact + tries others digest artifact := by
  simp only [tries, List.filter_append, List.flatMap_append, List.countP_append]

theorem tries_singleton (h : visit.envelopeDigest = digest) :
    tries [visit] digest artifact = (visit.results.map Prod.fst).count artifact := by
  have hfilter : [visit].filter (fun visit => visit.envelopeDigest = digest) = [visit] := by
    simp [h]
  rw [tries, hfilter, List.flatMap_singleton, List.count, List.countP_map]
  exact List.countP_congr fun result _ => by simp [Subtype.ext_iff]

theorem HasPassed.append_right (h : HasPassed visits digest artifact) (others : List Visit) :
    HasPassed (visits ++ others) digest artifact := by
  obtain ⟨visit, hmem, hvisit⟩ := h
  exact ⟨visit, List.mem_append_left _ hmem, hvisit⟩

theorem HasPassed.append_left (h : HasPassed visits digest artifact) (others : List Visit) :
    HasPassed (others ++ visits) digest artifact := by
  obtain ⟨visit, hmem, hvisit⟩ := h
  exact ⟨visit, List.mem_append_right _ hmem, hvisit⟩

end Tries

section Invariant

variable (sha256 : Sha256) (loads : Bytes → Option Json)
  (parseEnvelope : QuarantineStore.Envelope → Option QuarantineEnvelope) (maxAttempts : ℤ)

/-- The invariant: markers are about stored envelopes, what was counted was tried, and what is done
was tried often enough. -/
structure Accounted (host : ScanHost) : Prop where
  stored : ∀ digest, isDone host.processedDir digest ∨ 0 < attempts host.processedDir digest →
    (host.quarantine.get? digest).isSome
  counted : ∀ digest envelope,
    loadEnvelope sha256 loads parseEnvelope host.quarantine digest = .ok envelope →
    ∀ artifact ∈ envelope.fields.compiledArtifactHashes,
      attempts host.processedDir digest ≤ tries host.visits digest artifact
  fair : Fair sha256 loads parseEnvelope maxAttempts host

variable {sha256 loads parseEnvelope maxAttempts} {host : ScanHost}

theorem accounted_fresh (quarantine : Quarantine) :
    Accounted sha256 loads parseEnvelope maxAttempts (.fresh quarantine) where
  stored := by
    rintro digest (⟨markers, hmarkers, hdone⟩ | h)
    · cases Option.some.inj hmarkers
      cases hdone
    · exact absurd h (Nat.lt_irrefl 0)
  counted _ _ _ _ _ := Nat.zero_le _
  fair := by
    rintro digest envelope - ⟨markers, hmarkers, hdone⟩
    cases Option.some.inj hmarkers
    cases hdone

/-- More visits do no harm. -/
theorem Accounted.visited (h : Accounted sha256 loads parseEnvelope maxAttempts host)
    (visits : List Visit) :
    Accounted sha256 loads parseEnvelope maxAttempts
      { host with visits := host.visits ++ visits } where
  stored := h.stored
  counted := by
    intro digest envelope hload artifact hmem
    refine (h.counted digest envelope hload artifact hmem).trans ?_
    exact (tries_append _ _ _ _).symm ▸ Nat.le_add_right _ _
  fair := by
    intro digest envelope hload hdone artifact hmem
    refine (h.fair digest envelope hload hdone artifact hmem).imp (·.append_right visits) fun hle => ?_
    refine hle.trans ?_
    rw [tries_append]
    exact_mod_cast Nat.le_add_right _ _

/-- **A visit that does not end its run.** -/
theorem Accounted.recorded (h : Accounted sha256 loads parseEnvelope maxAttempts host)
    {attempt : Attempt} {target : Digest} {visit : Visit}
    (hvisit : host.process sha256 loads parseEnvelope attempt target = visit)
    (hstored : (host.quarantine.get? target).isSome) (hstops : visit.stops = none)
    (huniform : UniformVisit sha256 loads parseEnvelope maxAttempts host visit target) :
    Accounted sha256 loads parseEnvelope maxAttempts
      { host with
        processedDir := recordAttempt host.processedDir target visit.passed maxAttempts
        visits := host.visits ++ [visit] } := by
  have hafter := h.visited [visit]
  have hdigest : visit.envelopeDigest = target := hvisit ▸ envelopeDigest_processEnvelope
  -- A loaded target has a result for each of its artifacts.
  have htries : ∀ envelope,
      loadEnvelope sha256 loads parseEnvelope host.quarantine target = .ok envelope →
      ∀ artifact, tries (host.visits ++ [visit]) target artifact = tries host.visits target artifact
        + envelope.fields.compiledArtifactHashes.count artifact := by
    intro envelope hload artifact
    have hnone : visit.error? = none := by
      refine (Visit.stops_eq_none.mp hstops).resolve_right fun ⟨error, herror⟩ => ?_
      rw [← hvisit, ScanHost.process, error?_processEnvelope_eq_service, hload] at herror
      cases herror
    subst hvisit
    rw [tries_append, tries_singleton hdigest]
    exact congrArg (fun digests => _ + List.count artifact digests) (map_fst_results hload hnone)
  constructor
  case stored =>
    intro digest hmarked
    by_cases heq : digest = target
    · exact heq ▸ hstored
    · exact h.stored digest (hmarked.imp (isDone_of_recordAttempt heq)
        (attempts_recordAttempt_of_ne heq ▸ ·))
  case counted =>
    intro digest envelope hload artifact hmem
    by_cases heq : digest = target
    · subst heq
      refine attempts_recordAttempt_le.trans ?_
      rw [htries envelope hload]
      exact Nat.add_le_add (h.counted _ envelope hload artifact hmem) (List.count_pos_iff.mpr hmem)
    · exact (attempts_recordAttempt_of_ne heq).le.trans
        (hafter.counted digest envelope hload artifact hmem)
  case fair =>
    intro digest envelope hload hdone artifact hmem
    by_cases heq : digest = target
    swap
    · exact hafter.fair digest envelope hload (isDone_of_recordAttempt heq hdone) artifact hmem
    subst heq
    cases hpassed : visit.passed with
    | true =>
      rcases huniform envelope hload hpassed artifact hmem with hnow | hbefore | hlast
      · exact .inl (hnow.append_left _)
      · exact .inl (hbefore.append_right _)
      · refine .inr (hlast.trans ?_)
        rw [htries envelope hload]
        push_cast
        exact le_rfl
    | false =>
      change isDone (recordAttempt host.processedDir digest visit.passed maxAttempts) digest at hdone
      rw [hpassed] at hdone
      cases hdir : host.processedDir with
      | none =>
        rw [hdir] at hdone
        obtain ⟨_, hmarkers, -⟩ := hdone
        cases hmarkers
      | some markers =>
        rw [hdir] at hdone
        rcases recordAttempt_of_not_passed.2.mp hdone with hbefore | hlast
        · exact hafter.fair digest envelope hload ⟨markers, hdir, hbefore⟩ artifact hmem
        · right
          have hcounted := h.counted digest envelope hload artifact hmem
          have hpos : 1 ≤ envelope.fields.compiledArtifactHashes.count artifact :=
            List.count_pos_iff.mpr hmem
          rw [hdir] at hcounted
          change markers.attempts digest ≤ _ at hcounted
          change maxAttempts ≤ tries (host.visits ++ [visit]) digest artifact
          rw [htries envelope hload]
          omega

theorem UniformVisit.append {visit : Visit} {target : Digest}
    (h : UniformVisit sha256 loads parseEnvelope maxAttempts host visit target) (processedDir : ProcessedDir)
    (visits : List Visit) :
    UniformVisit sha256 loads parseEnvelope maxAttempts
      ⟨host.quarantine, processedDir, host.visits ++ visits⟩ visit target := by
  intro envelope hload hpassed artifact hmem
  refine (h envelope hload hpassed artifact hmem).imp_right (Or.imp (·.append_right visits) ?_)
  intro hle
  refine hle.trans ?_
  rw [tries_append]
  push_cast
  omega

/-- **The loop of a run**, by induction on its targets. -/
theorem Accounted.scanned {attempt : Attempt} {targets : List Digest}
    (h : Accounted sha256 loads parseEnvelope maxAttempts host)
    (hstored : ∀ target ∈ targets, (host.quarantine.get? target).isSome)
    (huniform : ∀ target, Reaches (host.process sha256 loads parseEnvelope attempt) targets target →
      UniformVisit sha256 loads parseEnvelope maxAttempts host
        (host.process sha256 loads parseEnvelope attempt target) target) :
    Accounted sha256 loads parseEnvelope maxAttempts
      { host with
        processedDir := (scanTargets maxAttempts (host.process sha256 loads parseEnvelope attempt)
          host.processedDir targets).processedDir
        visits := host.visits ++ (scanTargets maxAttempts
          (host.process sha256 loads parseEnvelope attempt) host.processedDir targets).visits } := by
  induction targets generalizing host with
  | nil => exact h.visited []
  | cons target targets ih =>
    rw [scanTargets]
    cases hstops : (host.process sha256 loads parseEnvelope attempt target).stops with
    | some ending => exact h.visited _
    | none =>
      have hrecorded := h.recorded rfl (hstored target List.mem_cons_self) hstops
        (huniform target ⟨[], targets, rfl, by simp⟩)
      have hrest := ih hrecorded (fun other hmem => hstored other (List.mem_cons_of_mem _ hmem))
        fun other ⟨before, after, heq, hbefore⟩ =>
          (huniform other ⟨target :: before, after, by rw [heq, List.cons_append],
            List.forall_mem_cons.mpr ⟨hstops, hbefore⟩⟩).append _ _
      rw [List.append_assoc] at hrest
      exact hrest

/-- The targets of a run are stored, when those that it is given are. -/
theorem stored_of_targets {args : ScanArgs} {targets : List Digest}
    (hargs : ∀ digest ∈ args.envelopes, (host.quarantine.get? digest).isSome)
    (htargets : host.targets sha256 loads maxAttempts args = .ok targets) :
    ∀ target ∈ targets, (host.quarantine.get? target).isSome := by
  intro target hmem
  rw [ScanHost.targets, targetsOf] at htargets
  split_ifs at htargets with hscan
  · obtain ⟨pending, hpending, heq⟩ := bind_eq_ok.mp htargets
    cases heq
    rw [List.mem_eraseDups, List.mem_append] at hmem
    rcases hmem with hmem | hmem
    · exact hargs target hmem
    · obtain ⟨found, hfound, heq⟩ := bind_eq_ok.mp hpending
      cases heq
      obtain ⟨⟨_, raw⟩, hitem, rfl⟩ := List.mem_map.mp (List.mem_of_mem_take hmem)
      have hget := (QuarantineStore.mem_iterVerified hfound).mp (List.mem_filter.mp hitem).1
      exact QuarantineStore.mem_names.mp (QuarantineStore.mem_names_of_get _ _ _ hget)
  · cases htargets
    exact hargs target (List.mem_eraseDups.mp hmem)

theorem Accounted.published (h : Accounted sha256 loads parseEnvelope maxAttempts host)
    {quarantine : Quarantine} {digest : Digest} {payload : Bytes}
    (hput : host.quarantine.put digest payload = some quarantine) :
    Accounted sha256 loads parseEnvelope maxAttempts { host with quarantine := quarantine } := by
  -- What is about a stored envelope is about the same envelope later.
  have hsame : ∀ other, (host.quarantine.get? other).isSome →
      quarantine.get? other = host.quarantine.get? other := by
    intro other hsome
    obtain ⟨value, hvalue⟩ := Option.isSome_iff_exists.mp hsome
    rw [hvalue]
    exact Archive.get?_of_put hput hvalue
  constructor
  case stored =>
    intro other hmarked
    have hsome := h.stored other hmarked
    exact (hsame other hsome).symm ▸ hsome
  case counted =>
    intro other envelope hload artifact hmem
    rcases Nat.eq_zero_or_pos (attempts host.processedDir other) with hzero | hpos
    · exact hzero.le.trans (Nat.zero_le _)
    · rw [loadEnvelope_congr (hsame other (h.stored other (.inr hpos)))] at hload
      exact h.counted other envelope hload artifact hmem
  case fair =>
    intro other envelope hload hdone artifact hmem
    rw [loadEnvelope_congr (hsame other (h.stored other (.inl hdone)))] at hload
    exact h.fair other envelope hload hdone artifact hmem

theorem Accounted.step {input : ScanInput}
    (h : Accounted sha256 loads parseEnvelope maxAttempts host)
    (huniform : UniformInput sha256 loads parseEnvelope maxAttempts host input) :
    Accounted sha256 loads parseEnvelope maxAttempts
      (scanStep sha256 loads parseEnvelope maxAttempts host input) := by
  cases input with
  | publish digest payload =>
    cases hput : host.quarantine.put digest payload with
    | none =>
      rw [scanStep, hput]
      exact h
    | some quarantine =>
      rw [scanStep, hput]
      exact h.published hput
  | run args attempt =>
    rw [scanStep]
    cases htargets : host.targets sha256 loads maxAttempts args with
    | error error =>
      rw [ScanHost.run, htargets]
      exact h
    | ok targets =>
      rw [ScanHost.run, htargets]
      exact h.scanned (stored_of_targets huniform.stored htargets) (huniform.together targets htargets)

end Invariant

section Retired

variable (sha256 : Sha256) (loads : Bytes → Option Json)
  (parseEnvelope : QuarantineStore.Envelope → Option QuarantineEnvelope) (maxAttempts : ℤ)

/-- **Retired artifacts.** When all runs are uniform, no artifact is retired before it has passed a
canary or was tried often enough. -/
theorem scan_fair (quarantine : Quarantine) {host : ScanHost}
    (h : Reachable (.fresh quarantine) (UniformInput sha256 loads parseEnvelope maxAttempts)
      (scanStep sha256 loads parseEnvelope maxAttempts) host) :
    Fair sha256 loads parseEnvelope maxAttempts host :=
  (h.invariant (P := Accounted sha256 loads parseEnvelope maxAttempts)
    (accounted_fresh quarantine) fun _ _ hhost huniform => hhost.step huniform).fair

end Retired

/-- What the canaries of the two artifacts end with. -/
def pairAttempt (outcomes : ℕ → ServiceOutcome) : Attempt :=
  fun _ _ position _ => .ok ⟨outcomes position, digestOf 0, none⟩

/-- The queue is scanned once. -/
def pairHost (envelope : QuarantineEnvelope) (outcomes : ℕ → ServiceOutcome) : ScanHost :=
  scanStep zeroHash pairLoads (fun _ => some envelope) 4 (.fresh pairQuarantine)
    (.run scanQueue (pairAttempt outcomes))

def pairVisit (outcomes : ℕ → ServiceOutcome) : Visit :=
  ⟨pairDigest, [(digestOf 0, ⟨outcomes 0, digestOf 0, none⟩),
    (digestOf 1, ⟨outcomes 1, digestOf 0, none⟩)], none⟩

section Pair

variable {envelope : QuarantineEnvelope} (outcomes : ℕ → ServiceOutcome)

theorem process_pairQuarantine
    (henvelope : envelope.fields.compiledArtifactHashes = [digestOf 0, digestOf 1]) :
    (ScanHost.fresh pairQuarantine).process zeroHash pairLoads (fun _ => some envelope)
      (pairAttempt outcomes) pairDigest = pairVisit outcomes := by
  change processEnvelope _ _ _ _ pairQuarantine _ = _
  rw [processEnvelope_of_load (load_pairQuarantine envelope), henvelope]
  rfl

theorem pairHost_eq
    (henvelope : envelope.fields.compiledArtifactHashes = [digestOf 0, digestOf 1]) :
    pairHost envelope outcomes = ⟨pairQuarantine,
      recordAttempt .empty pairDigest (pairVisit outcomes).passed 4, [pairVisit outcomes]⟩ := by
  rw [pairHost, scanStep, ScanHost.run, targets_pairQuarantine]
  change (⟨pairQuarantine, (scanTargets 4 _ _ [pairDigest]).processedDir,
    [] ++ (scanTargets 4 _ _ [pairDigest]).visits⟩ : ScanHost) = _
  rw [scanTargets, process_pairQuarantine outcomes henvelope]
  rfl

end Pair

/-- Both artifacts pass, and are retired. -/
theorem scan_fair_pair : ∃ envelope, Fair zeroHash pairLoads (fun _ => some envelope) 4
    (pairHost envelope fun _ => .candidateReady) := by
  obtain ⟨envelope, henvelope⟩ := exists_pairEnvelope
  refine ⟨envelope, scan_fair _ _ _ _ pairQuarantine (.step .init ⟨?_, ?_⟩)⟩
  · rintro _ ⟨⟩
  · rintro targets htargets target ⟨before, after, rfl, -⟩ envelope' hload - artifact hmem
    obtain rfl : target = pairDigest := by
      have heq := Except.ok.inj (targets_pairQuarantine.symm.trans htargets)
      have hmem : target ∈ [pairDigest] := heq ▸ List.mem_append_right _ List.mem_cons_self
      exact List.mem_singleton.mp hmem
    obtain rfl := Except.ok.inj ((load_pairQuarantine envelope).symm.trans hload)
    rw [process_pairQuarantine _ henvelope]
    rw [henvelope] at hmem
    refine .inl ⟨_, List.mem_cons_self, rfl, ?_⟩
    rcases List.mem_pair.mp hmem with rfl | rfl
    · exact ⟨_, List.mem_cons_self, rfl, rfl⟩
    · exact ⟨_, List.mem_cons_of_mem _ List.mem_cons_self, rfl, rfl⟩

/-- The first artifact passes and the second one is rejected, and both are retired. -/
theorem pair_retired_unfairly :
    ¬ ∀ (sha256 : Sha256) (loads : Bytes → Option Json)
      (parseEnvelope : QuarantineStore.Envelope → Option QuarantineEnvelope) (maxAttempts : ℤ)
      (quarantine : Quarantine) (host : ScanHost),
      Reachable (.fresh quarantine) (fun _ _ => True)
        (scanStep sha256 loads parseEnvelope maxAttempts) host →
      Fair sha256 loads parseEnvelope maxAttempts host := by
  intro hall
  obtain ⟨envelope, henvelope⟩ := exists_pairEnvelope
  set outcomes : ℕ → ServiceOutcome := fun position =>
    if position = 0 then .candidateReady else .rejected with houtcomes
  have hhost := pairHost_eq outcomes henvelope
  have hfair := hall zeroHash pairLoads (fun _ => some envelope) 4 pairQuarantine
    (pairHost envelope outcomes) (.step .init trivial)
  rw [hhost] at hfair
  have hdone : isDone (recordAttempt .empty pairDigest (pairVisit outcomes).passed 4) pairDigest :=
    ⟨_, rfl, List.mem_cons_self⟩
  rcases hfair pairDigest envelope (load_pairQuarantine envelope) hdone (digestOf 1)
    (henvelope ▸ by simp) with hpassed | htries
  · obtain ⟨visit, hvisit, -, result, hresult, hartifact, hready⟩ := hpassed
    obtain rfl := List.mem_singleton.mp hvisit
    rcases List.mem_pair.mp hresult with rfl | rfl
    · exact absurd hartifact (by decide +kernel)
    · cases hready
  · exact absurd htries (by decide +kernel)

end IouAi.Authority
