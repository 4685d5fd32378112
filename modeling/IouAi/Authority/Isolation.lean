import IouAi.Authority.Scan

/-!
# Envelopes that fail

An envelope that cannot be loaded is counted, and the run goes on. What the processing of an artifact
raises ends the run with nothing counted, so the envelope is met first again. A run counts every
failure and comes to every envelope exactly when nothing but a disturbed fleet stops an artifact
(`scan_isolated_iff`).
-/

namespace IouAi.Authority

open Calendar Checks Runs Storage
open Wire hiding TargetHashes

/-! ## The loop -/

section Loop

variable {process : Digest → Visit} {processedDir : ProcessedDir} {targets before rest : List Digest}
  {digest target : Digest} {maxAttempts : ℤ}

/-- The markers when no visit ends the run. -/
def recordAll (process : Digest → Visit) (maxAttempts : ℤ) (processedDir : ProcessedDir)
    (targets : List Digest) : ProcessedDir :=
  targets.foldl (fun processedDir target =>
    recordAttempt processedDir target (process target).passed maxAttempts) processedDir

theorem scanTargets_append (h : ∀ target ∈ before, (process target).stops = none) :
    (scanTargets maxAttempts process processedDir (before ++ rest)).visits
        = before.map process ++ (scanTargets maxAttempts process
          (recordAll process maxAttempts processedDir before) rest).visits ∧
      (scanTargets maxAttempts process processedDir (before ++ rest)).processedDir
        = (scanTargets maxAttempts process
          (recordAll process maxAttempts processedDir before) rest).processedDir := by
  induction before generalizing processedDir with
  | nil => exact ⟨rfl, rfl⟩
  | cons target before ih =>
    obtain ⟨hstops, hbefore⟩ := List.forall_mem_cons.mp h
    obtain ⟨hvisits, hdir⟩ := @ih
      (recordAttempt processedDir target (process target).passed maxAttempts) hbefore
    rw [List.cons_append, scanTargets, hstops]
    exact ⟨congrArg (process target :: ·) hvisits, hdir⟩

theorem scanTargets_of_stops {ending : Ending} (h : (process target).stops = some ending) :
    scanTargets maxAttempts process processedDir (target :: targets)
      = ⟨[process target], processedDir, ending⟩ := by
  rw [scanTargets, h]

theorem scanTargets_of_not_stops (h : (process target).stops = none) :
    (scanTargets maxAttempts process processedDir (target :: targets)).visits
        = process target :: (scanTargets maxAttempts process
          (recordAttempt processedDir target (process target).passed maxAttempts) targets).visits ∧
      (scanTargets maxAttempts process processedDir (target :: targets)).processedDir
        = (scanTargets maxAttempts process
          (recordAttempt processedDir target (process target).passed maxAttempts)
          targets).processedDir := by
  rw [scanTargets, h]
  exact ⟨rfl, rfl⟩

theorem attempts_recordAll (h : digest ∉ targets) :
    attempts (recordAll process maxAttempts processedDir targets) digest
      = attempts processedDir digest := by
  induction targets generalizing processedDir with
  | nil => rfl
  | cons target targets ih =>
    rw [List.mem_cons, not_or] at h
    exact (ih h.2).trans (attempts_recordAttempt_of_ne h.1)

/-- The markers of an envelope change at its own visit only. -/
theorem attempts_scanTargets (h : digest ∉ targets) :
    attempts (scanTargets maxAttempts process processedDir targets).processedDir digest
      = attempts processedDir digest := by
  induction targets generalizing processedDir with
  | nil => rfl
  | cons target targets ih =>
    rw [List.mem_cons, not_or] at h
    cases hstops : (process target).stops with
    | some ending => rw [scanTargets_of_stops hstops]
    | none =>
      rw [(scanTargets_of_not_stops hstops).2, ih h.2]
      exact attempts_recordAttempt_of_ne h.1

theorem isDone_scanTargets (h : isDone processedDir digest) :
    isDone (scanTargets maxAttempts process processedDir targets).processedDir digest := by
  induction targets generalizing processedDir with
  | nil => exact h
  | cons target targets ih =>
    cases hstops : (process target).stops with
    | some ending => rwa [scanTargets_of_stops hstops]
    | none =>
      rw [(scanTargets_of_not_stops hstops).2]
      exact ih (isDone_recordAttempt_of_isDone h)

/-- Without a directory nothing is marked. -/
theorem scanTargets_none :
    (scanTargets maxAttempts process none targets).processedDir = none := by
  induction targets with
  | nil => rfl
  | cons target targets ih =>
    cases hstops : (process target).stops with
    | some ending => rw [scanTargets_of_stops hstops]
    | none => exact (scanTargets_of_not_stops hstops).2.trans ih

theorem isSome_recordAttempt {passed : Bool} :
    (recordAttempt processedDir digest passed maxAttempts).isSome = processedDir.isSome :=
  Option.isSome_map

theorem isSome_scanTargets :
    (scanTargets maxAttempts process processedDir targets).processedDir.isSome
      = processedDir.isSome := by
  induction targets generalizing processedDir with
  | nil => rfl
  | cons target targets ih =>
    cases hstops : (process target).stops with
    | some ending => rw [scanTargets_of_stops hstops]
    | none => rw [(scanTargets_of_not_stops hstops).2, ih, isSome_recordAttempt]

theorem isSome_recordAll :
    (recordAll process maxAttempts processedDir targets).isSome = processedDir.isSome := by
  induction targets generalizing processedDir with
  | nil => rfl
  | cons target targets ih => exact ih.trans isSome_recordAttempt

end Loop

/-! ## Failures -/

/-- The error of a canary that found the fleet changed. -/
def fleetDisturbed : ProcessError := .canary (.canaryRun .fleetDisturbed)

/-- The live fleet was disturbed while the envelope was processed. -/
def Visit.Disturbed (visit : Visit) : Prop := visit.error? = some (.process fleetDisturbed)

/-- The processing of the envelope failed for another reason. -/
def Visit.Fails (visit : Visit) : Prop := visit.error? ≠ none ∧ ¬ visit.Disturbed

instance (visit : Visit) : Decidable visit.Disturbed := inferInstanceAs (Decidable (_ = _))

instance (visit : Visit) : Decidable visit.Fails := inferInstanceAs (Decidable (_ ∧ _))

section Isolated

variable (sha256 : Sha256) (loads : Bytes → Option Json)
  (parseEnvelope : QuarantineStore.Envelope → Option QuarantineEnvelope) (maxAttempts : ℤ)

/-- The target is to be processed: the live fleet is not disturbed before its turn. -/
def Due (process : Digest → Visit) (targets : List Digest) (target : Digest) : Prop :=
  ∃ before after, targets = before ++ target :: after ∧
    ∀ earlier ∈ before, ¬ (process earlier).Disturbed

/-- The attempt is counted, and the envelope is done when it was the last one. -/
def Counts (processedDir left : ProcessedDir) (digest : Digest) : Prop :=
  ∃ markers, left = some markers ∧ markers.attempts digest = attempts processedDir digest + 1 ∧
    (maxAttempts ≤ attempts processedDir digest + 1 → digest ∈ markers.done)

/-- Every target that is due is processed, and counted when it fails. -/
def Isolated (host : ScanHost) (args : ScanArgs) (attempt : Attempt) : Prop :=
  ∀ targets, host.targets sha256 loads maxAttempts args = .ok targets →
    ∀ target, Due (host.process sha256 loads parseEnvelope attempt) targets target →
      host.process sha256 loads parseEnvelope attempt target
          ∈ (scanTargets maxAttempts (host.process sha256 loads parseEnvelope attempt)
            host.processedDir targets).visits ∧
        ((host.process sha256 loads parseEnvelope attempt target).Fails →
          Counts maxAttempts host.processedDir (scanTargets maxAttempts
            (host.process sha256 loads parseEnvelope attempt) host.processedDir
            targets).processedDir target)

/-- The processing of an artifact by the bridge. -/
def CanaryBridge.attempt (bridge : CanaryBridge) (turns : Digest → ℕ → Turn) : Attempt :=
  fun digest envelope position manifestDigest =>
    bridge.processArtifact sha256 loads (turns digest position) digest envelope manifestDigest

/-- Each artifact that the bridge comes to is processed or disturbs the live fleet. -/
def Sound (bridge : CanaryBridge) (turns : Digest → ℕ → Turn) (digest : Digest)
    (envelope : QuarantineEnvelope) : Prop :=
  ∀ position artifact, envelope.fields.compiledArtifactHashes[position]? = some artifact →
    (∀ earlier < position, ∀ other,
      envelope.fields.compiledArtifactHashes[earlier]? = some other → ∃ program,
        Processable sha256 loads bridge (turns digest earlier) digest envelope other program) →
    (∃ program, Processable sha256 loads bridge (turns digest position) digest envelope artifact
      program) ∨
    ∃ program, Disturbs sha256 bridge (turns digest position) digest envelope artifact program

/-- The artifacts of every envelope that is due are sound; and where nothing can be marked, every
envelope that is due can be loaded. -/
def Contained (bridge : CanaryBridge) (turns : Digest → ℕ → Turn) (host : ScanHost)
    (args : ScanArgs) : Prop :=
  ∀ targets, host.targets sha256 loads maxAttempts args = .ok targets →
    ∀ target, Due (host.process sha256 loads parseEnvelope (bridge.attempt sha256 loads turns))
      targets target →
      (∀ envelope, loadEnvelope sha256 loads parseEnvelope host.quarantine target = .ok envelope →
        Sound sha256 loads bridge turns target envelope) ∧
      (host.processedDir = none →
        ∃ envelope, loadEnvelope sha256 loads parseEnvelope host.quarantine target = .ok envelope)

end Isolated

/-! ## What a visit raises -/

/-- What the processing of the artifacts raises is raised by the first one that raises. -/
theorem processArtifacts_raises_iff {P : ProcessError → Prop}
    {attempt : ℕ → Digest → Except ProcessError ArtifactResult} {start : ℕ}
    {digests : List Digest} :
    (∀ error, (processArtifacts attempt start digests).2 = some error → P error)
      ↔ ∀ position artifact, digests[position]? = some artifact →
        (∀ earlier < position, ∀ other, digests[earlier]? = some other →
          ∃ result, attempt (start + earlier) other = .ok result) →
        ∀ error, attempt (start + position) artifact = .error error → P error := by
  induction digests generalizing start with
  | nil => exact iff_of_true (fun _ h => nomatch h) fun _ _ h => nomatch h
  | cons digest digests ih =>
    rw [processArtifacts]
    cases hattempt : attempt start digest with
    | error error =>
      constructor
      · intro h position artifact hartifact hbefore error' herror'
        cases position with
        | zero =>
          cases hartifact
          rw [Nat.add_zero, hattempt] at herror'
          exact Except.error.inj herror' ▸ h error rfl
        | succ position =>
          -- the first artifact has raised
          obtain ⟨result, hresult⟩ := hbefore 0 (Nat.succ_pos _) digest rfl
          rw [Nat.add_zero, hattempt] at hresult
          cases hresult
      · intro h error' herror'
        cases herror'
        exact h 0 digest rfl (fun _ hlt => nomatch hlt) error hattempt
    | ok result =>
      change (∀ error, (processArtifacts attempt (start + 1) digests).2 = some error → P error) ↔ _
      rw [ih]
      constructor
      · intro h position artifact hartifact hbefore
        cases position with
        | zero =>
          cases hartifact
          intro error herror
          rw [Nat.add_zero, hattempt] at herror
          cases herror
        | succ position =>
          have hshift : ∀ n, start + (n + 1) = start + 1 + n := fun n => by omega
          rw [hshift]
          refine h position artifact hartifact fun earlier hlt other hother => ?_
          rw [← hshift]
          exact hbefore (earlier + 1) (Nat.succ_lt_succ hlt) other hother
      · intro h position artifact hartifact hbefore
        have hshift : ∀ n, start + 1 + n = start + (n + 1) := fun n => by omega
        rw [hshift]
        refine h (position + 1) artifact hartifact fun earlier hlt other hother => ?_
        cases earlier with
        | zero =>
          cases hother
          exact ⟨result, hattempt⟩
        | succ earlier =>
          rw [← hshift]
          exact hbefore earlier (Nat.lt_of_succ_lt_succ hlt) other hother

section Visits

variable {sha256 : Sha256} {loads : Bytes → Option Json}
  {parseEnvelope : QuarantineStore.Envelope → Option QuarantineEnvelope} {maxAttempts : ℤ}
  {bridge : CanaryBridge} {turns : Digest → ℕ → Turn} {quarantine : Quarantine} {digest : Digest}
  {envelope : QuarantineEnvelope}

/-- A loaded envelope is processed to its end, or to a disturbed fleet, exactly when it is sound. -/
theorem sound_iff
    (hload : loadEnvelope sha256 loads parseEnvelope quarantine digest = .ok envelope) :
    Sound sha256 loads bridge turns digest envelope ↔
      ¬ (processEnvelope sha256 loads parseEnvelope (bridge.attempt sha256 loads turns) quarantine
        digest).Fails := by
  have hraises : (¬ (processEnvelope sha256 loads parseEnvelope (bridge.attempt sha256 loads turns)
      quarantine digest).Fails) ↔ ∀ error, (processArtifacts
        (bridge.attempt sha256 loads turns digest envelope) 0
        envelope.fields.compiledArtifactHashes).2 = some error → error = fleetDisturbed := by
    rw [processEnvelope_of_load hload]
    cases hresult : (processArtifacts (bridge.attempt sha256 loads turns digest envelope) 0
        envelope.fields.compiledArtifactHashes).2 with
    | none => simp [Visit.Fails]
    | some error => simp [Visit.Fails, Visit.Disturbed]
  rw [hraises, processArtifacts_raises_iff]
  refine forall₃_congr fun position artifact _ => ?_
  simp only [Nat.zero_add]
  refine imp_congr ?_ ?_
  · exact forall₄_congr fun earlier _ other _ => processArtifact_isOk_iff.symm
  · rw [← processArtifact_isOk_iff, ← processArtifact_disturbed_iff]
    change _ ↔ ∀ error, bridge.processArtifact sha256 loads (turns digest position) digest envelope
      artifact = .error error → error = fleetDisturbed
    cases bridge.processArtifact sha256 loads (turns digest position) digest envelope artifact with
    | ok result => simp
    | error error => simp [fleetDisturbed]

theorem Visit.Disturbed.stops {visit : Visit} (h : visit.Disturbed) :
    visit.stops = some .aborted := by
  rw [Visit.stops, h]
  rfl

theorem Visit.not_disturbed_of_stops {visit : Visit} (h : visit.stops = none) :
    ¬ visit.Disturbed := by
  intro hdisturbed
  rw [hdisturbed.stops] at h
  cases h

/-- What stops a run and is no failure is a disturbed fleet. -/
theorem Visit.disturbed_of_stops {visit : Visit} (hfails : ¬ visit.Fails)
    (hstops : visit.stops ≠ none) : visit.Disturbed := by
  by_contra hne
  refine hfails ⟨fun hnone => hstops (Visit.stops_eq_none.mpr (.inl hnone)), hne⟩

theorem Visit.passed_of_fails {visit : Visit} (h : visit.Fails) : visit.passed = false := by
  rw [Visit.passed, Bool.and_eq_false_iff]
  exact .inl (Option.isNone_eq_false_iff.mpr (Option.isSome_iff_ne_none.mpr h.1))

end Visits

/-! ## Every failure is counted -/

section Isolated

variable {sha256 : Sha256} {loads : Bytes → Option Json}
  {parseEnvelope : QuarantineStore.Envelope → Option QuarantineEnvelope} {maxAttempts : ℤ}
  {host : ScanHost} {args : ScanArgs} {targets before after : List Digest} {target : Digest}

theorem nodup_eraseDups {α : Type} [BEq α] [LawfulBEq α] (items : List α) :
    items.eraseDups.Nodup := by
  induction hlength : items.length using Nat.strong_induction_on generalizing items with
  | _ n ih =>
    cases items with
    | nil => exact List.nodup_nil
    | cons item items =>
      rw [List.eraseDups_cons, List.nodup_cons]
      refine ⟨by simp, ih _ ?_ _ rfl⟩
      rw [← hlength]
      exact Nat.lt_succ_of_le (List.length_filter_le _ _)

theorem nodup_targets (htargets : host.targets sha256 loads maxAttempts args = .ok targets) :
    targets.Nodup := by
  rw [ScanHost.targets, targetsOf] at htargets
  split_ifs at htargets with hscan
  · obtain ⟨pending, -, heq⟩ := bind_eq_ok.mp htargets
    cases heq
    exact nodup_eraseDups _
  · cases htargets
    exact nodup_eraseDups _

section Forward

variable {attempt : Attempt}
  (hisolated : Isolated sha256 loads parseEnvelope maxAttempts host args attempt)
  (htargets : host.targets sha256 loads maxAttempts args = .ok targets)
include hisolated htargets

/-- In an isolated run nothing stops the run before a target that is due. -/
theorem stops_of_isolated (heq : targets = before ++ after)
    (hbefore : ∀ earlier ∈ before,
      ¬ (host.process sha256 loads parseEnvelope attempt earlier).Disturbed) :
    ∀ earlier ∈ before, (host.process sha256 loads parseEnvelope attempt earlier).stops = none := by
  induction before using List.reverseRecOn generalizing after with
  | nil => exact fun _ h => nomatch h
  | append_singleton before target ih =>
    rw [List.append_assoc, List.singleton_append] at heq
    have hearlier := ih heq fun earlier hmem => hbefore earlier (List.mem_append_left _ hmem)
    have hfresh := hbefore target (List.mem_append_right _ List.mem_cons_self)
    intro earlier hmem
    rcases List.mem_append.mp hmem with hmem | hmem
    · exact hearlier earlier hmem
    obtain rfl := List.mem_singleton.mp hmem
    by_contra hstops
    obtain ⟨ending, hending⟩ := Option.ne_none_iff_exists'.mp hstops
    have hfails : (host.process sha256 loads parseEnvelope attempt earlier).Fails :=
      ⟨fun hnone => hstops (Visit.stops_eq_none.mpr (.inl hnone)), hfresh⟩
    -- The run stops there, so that nothing is counted.
    obtain ⟨markers, hmarkers, hcount, -⟩ := (hisolated targets htargets earlier ⟨before, after, heq,
      fun other hother => Visit.not_disturbed_of_stops (hearlier other hother)⟩).2 hfails
    have hnotMem : earlier ∉ before := by
      have hnodup := heq ▸ nodup_targets htargets
      exact fun h => (List.nodup_append.mp hnodup).2.2 earlier h earlier List.mem_cons_self rfl
    rw [heq, (scanTargets_append hearlier).2, scanTargets_of_stops hending] at hmarkers
    change recordAll (host.process sha256 loads parseEnvelope attempt) maxAttempts
      host.processedDir before = some markers at hmarkers
    have hsame : attempts (some markers) earlier = attempts host.processedDir earlier :=
      hmarkers ▸ attempts_recordAll hnotMem
    change markers.attempts earlier = _ at hsame
    omega

/-- In an isolated run with a directory of markers, a target that is due does not stop the run unless
it disturbs the fleet. -/
theorem not_stops_of_isolated (hdue : Due (host.process sha256 loads parseEnvelope attempt) targets target)
    (hdisturbed : ¬ (host.process sha256 loads parseEnvelope attempt target).Disturbed) :
    (host.process sha256 loads parseEnvelope attempt target).stops = none := by
  obtain ⟨before, after, heq, hbefore⟩ := hdue
  have hsplit : targets = before ++ [target] ++ after := by
    rw [heq, List.append_assoc, List.singleton_append]
  refine stops_of_isolated hisolated htargets hsplit ?_ target (by simp)
  intro earlier hmem
  rcases List.mem_append.mp hmem with hmem | hmem
  · exact hbefore earlier hmem
  · exact (List.mem_singleton.mp hmem).symm ▸ hdisturbed

end Forward

section Contained

variable {bridge : CanaryBridge} {turns : Digest → ℕ → Turn}

/-- In a contained run, what stops the run is a disturbed fleet. -/
theorem Contained.stops
    (h : Contained sha256 loads parseEnvelope maxAttempts bridge turns host args)
    (htargets : host.targets sha256 loads maxAttempts args = .ok targets)
    (hdue : Due (host.process sha256 loads parseEnvelope (bridge.attempt sha256 loads turns)) targets
      target) :
    (host.process sha256 loads parseEnvelope (bridge.attempt sha256 loads turns) target).stops = none
      ∨ (host.process sha256 loads parseEnvelope (bridge.attempt sha256 loads turns)
        target).Disturbed := by
  cases hload : loadEnvelope sha256 loads parseEnvelope host.quarantine target with
  | error error =>
    exact .inl (Visit.stops_eq_none.mpr (.inr ⟨error, error?_processEnvelope_eq_service.mpr hload⟩))
  | ok envelope =>
    have hfails := (sound_iff hload).mp ((h targets htargets target hdue).1 envelope hload)
    by_contra hneither
    rw [not_or] at hneither
    exact hneither.2 (Visit.disturbed_of_stops hfails hneither.1)

theorem counts_of_fails {process : Digest → Visit} {processedDir : ProcessedDir}
    (hsome : processedDir.isSome) (hpassed : (process target).passed = false)
    (hafter : target ∉ after) (hbefore : target ∉ before) :
    Counts maxAttempts processedDir (scanTargets maxAttempts process
      (recordAttempt (recordAll process maxAttempts processedDir before) target
        (process target).passed maxAttempts) after).processedDir target := by
  rw [hpassed]
  have hcount : attempts (recordAll process maxAttempts processedDir before) target
      = attempts processedDir target := attempts_recordAll hbefore
  obtain ⟨markers, hmarkers⟩ := Option.isSome_iff_exists.mp
    ((@isSome_recordAll process processedDir before maxAttempts).trans hsome)
  rw [hmarkers] at hcount ⊢
  change markers.attempts target = _ at hcount
  obtain ⟨hattempts, hdone⟩ := @recordAttempt_of_not_passed target maxAttempts markers
  obtain ⟨left, hleft⟩ := Option.isSome_iff_exists.mp ((@isSome_scanTargets process
    (recordAttempt (some markers) target false maxAttempts) after maxAttempts).trans rfl)
  refine ⟨left, hleft, ?_, fun hlast => ?_⟩
  · have hsame : attempts (some left) target
        = attempts (recordAttempt (some markers) target false maxAttempts) target :=
      hleft ▸ attempts_scanTargets hafter
    rw [hattempts] at hsame
    exact hsame.trans (congrArg (· + 1) hcount)
  · have hmarked : isDone (recordAttempt (some markers) target false maxAttempts) target :=
      hdone.mpr (.inr (by rwa [hcount]))
    have hkept : isDone (some left) target := hleft ▸ isDone_scanTargets hmarked
    obtain ⟨_, hsame, hmem⟩ := hkept
    exact Option.some.inj hsame ▸ hmem

/-- **Which runs count every failure and come to every envelope.** -/
theorem isolated_iff_contained :
    Isolated sha256 loads parseEnvelope maxAttempts host args (bridge.attempt sha256 loads turns)
      ↔ Contained sha256 loads parseEnvelope maxAttempts bridge turns host args := by
  constructor
  · intro h targets htargets target hdue
    constructor
    · intro envelope hload
      rw [sound_iff hload]
      intro hfails
      have hstops := not_stops_of_isolated h htargets hdue hfails.2
      rcases Visit.stops_eq_none.mp hstops with hnone | ⟨error, herror⟩
      · exact hfails.1 hnone
      · rw [ScanHost.process, error?_processEnvelope_eq_service, hload] at herror
        cases herror
    · intro hnone
      cases hresult : loadEnvelope sha256 loads parseEnvelope host.quarantine target with
      | ok envelope => exact ⟨envelope, rfl⟩
      | error error =>
        have hfails : (host.process sha256 loads parseEnvelope (bridge.attempt sha256 loads turns)
            target).Fails := by
          rw [Visit.Fails, Visit.Disturbed, ScanHost.process,
            error?_processEnvelope_eq_service.mpr hresult]
          simp
        obtain ⟨markers, hmarkers, -⟩ := (h targets htargets target hdue).2 hfails
        rw [hnone, scanTargets_none] at hmarkers
        cases hmarkers
  · intro h targets htargets target hdue
    obtain ⟨before, after, heq, hbefore⟩ := id hdue
    have hnodup := heq ▸ nodup_targets htargets
    rw [List.nodup_append, List.nodup_cons] at hnodup
    have hearlier : ∀ earlier ∈ before, (host.process sha256 loads parseEnvelope
        (bridge.attempt sha256 loads turns) earlier).stops = none := by
      intro earlier hmem
      obtain ⟨first, last, rfl⟩ := List.append_of_mem hmem
      have hdueEarlier : Due (host.process sha256 loads parseEnvelope
          (bridge.attempt sha256 loads turns)) targets earlier :=
        ⟨first, last ++ target :: after, by rw [heq, List.append_assoc, List.cons_append],
          fun other hother => hbefore other (List.mem_append_left _ hother)⟩
      exact (h.stops htargets hdueEarlier).resolve_right (hbefore earlier hmem)
    rw [heq, (scanTargets_append hearlier).1, (scanTargets_append hearlier).2]
    rcases h.stops htargets hdue with hstops | hdisturbed
    · rw [(scanTargets_of_not_stops hstops).1, (scanTargets_of_not_stops hstops).2]
      refine ⟨List.mem_append_right _ List.mem_cons_self, fun hfails => ?_⟩
      refine counts_of_fails ?_ (Visit.passed_of_fails hfails) hnodup.2.1.1
        fun hmem => hnodup.2.2 target hmem target List.mem_cons_self rfl
      -- What fails cannot be loaded, so there is a directory.
      rw [Option.isSome_iff_ne_none]
      intro hnone
      obtain ⟨envelope, hload⟩ := (h targets htargets target hdue).2 hnone
      exact (sound_iff hload).mp ((h targets htargets target hdue).1 envelope hload) hfails
    · rw [scanTargets_of_stops hdisturbed.stops]
      exact ⟨List.mem_append_right _ List.mem_cons_self, fun hfails => absurd hdisturbed hfails.2⟩

end Contained

end Isolated

/-! ## Failing envelopes leave the queue -/

/-- How often the processing of an envelope has failed, other than by a disturbed fleet. -/
def failures (visits : List Visit) (digest : Digest) : ℕ :=
  visits.countP fun visit => visit.envelopeDigest = digest ∧ visit.Fails

/-- Every failure was counted, and what was tried often enough is done. -/
structure Retiring (maxAttempts : ℤ) (processedDir : ProcessedDir) (visits : List Visit) : Prop where
  markers : processedDir.isSome
  counted : ∀ digest, failures visits digest ≤ attempts processedDir digest
  retired : ∀ digest, 0 < attempts processedDir digest →
    maxAttempts ≤ attempts processedDir digest → isDone processedDir digest

section Retiring

variable {maxAttempts : ℤ} {processedDir : ProcessedDir} {visits : List Visit} {visit : Visit}
  {digest target : Digest}

theorem failures_append (visits others : List Visit) (digest : Digest) :
    failures (visits ++ others) digest = failures visits digest + failures others digest :=
  List.countP_append

theorem failures_singleton : failures [visit] digest
    = if visit.envelopeDigest = digest ∧ visit.Fails then 1 else 0 := by
  rw [failures, List.countP_singleton]
  simp only [decide_eq_true_eq]

theorem retiring_empty : Retiring maxAttempts .empty [] where
  markers := rfl
  counted _ := Nat.zero_le _
  retired _ h := absurd h (Nat.lt_irrefl 0)

/-- A visit that is no failure changes no count. -/
theorem Retiring.visited (h : Retiring maxAttempts processedDir visits) (hfails : ¬ visit.Fails) :
    Retiring maxAttempts processedDir (visits ++ [visit]) where
  markers := h.markers
  counted digest := by
    rw [failures_append, failures_singleton, if_neg fun hboth => hfails hboth.2, Nat.add_zero]
    exact h.counted digest
  retired := h.retired

/-- A visit that does not end its run. -/
theorem Retiring.recorded (h : Retiring maxAttempts processedDir visits)
    (htarget : visit.envelopeDigest = target) :
    Retiring maxAttempts (recordAttempt processedDir target visit.passed maxAttempts)
      (visits ++ [visit]) := by
  obtain ⟨markers, rfl⟩ := Option.isSome_iff_exists.mp h.markers
  constructor
  case markers => rfl
  case counted =>
    intro digest
    rw [failures_append, failures_singleton]
    by_cases heq : digest = target
    · subst heq
      cases hpassed : visit.passed with
      | true =>
        have hfails : ¬ visit.Fails := fun hfails => by
          rw [Visit.passed_of_fails hfails] at hpassed
          cases hpassed
        rw [if_neg fun hboth => hfails hboth.2, recordAttempt_of_passed]
        exact h.counted digest
      | false =>
        rw [recordAttempt_of_not_passed.1]
        have hcounted : failures visits digest ≤ markers.attempts digest := h.counted digest
        split_ifs <;> omega
    · rw [if_neg fun hboth => heq (hboth.1.symm.trans htarget), attempts_recordAttempt_of_ne heq]
      exact h.counted digest
  case retired =>
    intro digest hpos hle
    by_cases heq : digest = target
    · subst heq
      cases hpassed : visit.passed with
      | true =>
        rw [hpassed, recordAttempt_of_passed] at hpos hle
        exact isDone_recordAttempt_of_isDone (h.retired digest hpos hle)
      | false =>
        rw [hpassed, recordAttempt_of_not_passed.1] at hle
        refine recordAttempt_of_not_passed.2.mpr (.inr ?_)
        exact_mod_cast hle
    · rw [attempts_recordAttempt_of_ne heq] at hpos hle
      exact isDone_recordAttempt_of_isDone (h.retired digest hpos hle)

/-- **The loop of a contained run**, by induction on its targets. -/
theorem Retiring.scanned {process : Digest → Visit} {targets : List Digest}
    (h : Retiring maxAttempts processedDir visits)
    (hdigest : ∀ target, (process target).envelopeDigest = target)
    (hstops : ∀ target, Due process targets target →
      (process target).stops = none ∨ (process target).Disturbed) :
    Retiring maxAttempts (scanTargets maxAttempts process processedDir targets).processedDir
      (visits ++ (scanTargets maxAttempts process processedDir targets).visits) := by
  induction targets generalizing processedDir visits with
  | nil => rwa [scanTargets, List.append_nil]
  | cons target targets ih =>
    rcases hstops target ⟨[], targets, rfl, by simp⟩ with hnone | hdisturbed
    · rw [(scanTargets_of_not_stops hnone).1, (scanTargets_of_not_stops hnone).2,
        List.append_cons]
      refine ih (h.recorded (hdigest target)) fun other ⟨before, after, heq, hbefore⟩ => ?_
      exact hstops other ⟨target :: before, after, by rw [heq, List.cons_append],
        List.forall_mem_cons.mpr ⟨Visit.not_disturbed_of_stops hnone, hbefore⟩⟩
    · rw [scanTargets_of_stops hdisturbed.stops]
      exact h.visited fun hfails => hfails.2 hdisturbed

end Retiring

section Queue

variable (sha256 : Sha256) (loads : Bytes → Option Json)
  (parseEnvelope : QuarantineStore.Envelope → Option QuarantineEnvelope) (maxAttempts : ℤ)

/-- The inputs of hosts on which every run of the bridge is contained. -/
def ContainedInput (host : ScanHost) : ScanInput → Prop
  | .publish _ _ => True
  | .run args attempt => ∃ bridge turns,
    attempt = CanaryBridge.attempt sha256 loads bridge turns ∧
      Contained sha256 loads parseEnvelope maxAttempts bridge turns host args

/-- The envelope is done, and no scan finds it in the queue. -/
def Retired (host : ScanHost) (digest : Digest) : Prop :=
  isDone host.processedDir digest ∧ ∀ pending, pendingEnvelopes sha256 loads maxAttempts
    host.quarantine host.processedDir = .ok pending → digest ∉ pending

variable {sha256 loads parseEnvelope maxAttempts} {host : ScanHost}

theorem notMem_pending {digest : Digest} (h : isDone host.processedDir digest) {pending : List Digest}
    (hpending : pendingEnvelopes sha256 loads maxAttempts host.quarantine host.processedDir
      = .ok pending) : digest ∉ pending := by
  obtain ⟨found, -, heq⟩ := bind_eq_ok.mp hpending
  cases heq
  intro hmem
  obtain ⟨⟨_, raw⟩, hitem, rfl⟩ := List.mem_map.mp hmem
  have hkept := of_decide_eq_true (List.mem_filter.mp hitem).2
  exact hkept.2.1 h

theorem Retiring.step {input : ScanInput} (h : Retiring maxAttempts host.processedDir host.visits)
    (hinput : ContainedInput sha256 loads parseEnvelope maxAttempts host input) :
    Retiring maxAttempts (scanStep sha256 loads parseEnvelope maxAttempts host input).processedDir
      (scanStep sha256 loads parseEnvelope maxAttempts host input).visits := by
  cases input with
  | publish digest payload => exact h
  | run args attempt =>
    obtain ⟨bridge, turns, rfl, hcontained⟩ := hinput
    rw [scanStep]
    cases htargets : host.targets sha256 loads maxAttempts args with
    | error error =>
      rw [ScanHost.run, htargets]
      exact h
    | ok targets =>
      rw [ScanHost.run, htargets]
      exact h.scanned (fun _ => envelopeDigest_processEnvelope) fun target hdue =>
        hcontained.stops htargets hdue

end Queue

/-- **Runs that fail envelopes.** A run counts every failure, and comes to every envelope before the
fleet is disturbed, exactly when it is contained. When all runs are contained, an envelope that has
failed often enough is retired. -/
theorem scan_isolated_iff (sha256 : Sha256) (loads : Bytes → Option Json)
    (parseEnvelope : QuarantineStore.Envelope → Option QuarantineEnvelope) (maxAttempts : ℤ) :
    (∀ (host : ScanHost) (args : ScanArgs) (bridge : CanaryBridge) (turns : Digest → ℕ → Turn),
      Isolated sha256 loads parseEnvelope maxAttempts host args (bridge.attempt sha256 loads turns)
        ↔ Contained sha256 loads parseEnvelope maxAttempts bridge turns host args) ∧
    ∀ (quarantine : Quarantine) (host : ScanHost),
      Reachable (.fresh quarantine) (ContainedInput sha256 loads parseEnvelope maxAttempts)
        (scanStep sha256 loads parseEnvelope maxAttempts) host →
      ∀ digest, 0 < failures host.visits digest → maxAttempts ≤ failures host.visits digest →
        Retired sha256 loads maxAttempts host digest := by
  refine ⟨fun _ _ _ _ => isolated_iff_contained, fun quarantine host hhost digest hpos hle => ?_⟩
  have hretiring : Retiring maxAttempts host.processedDir host.visits := by
    refine hhost.invariant (P := fun host => Retiring maxAttempts host.processedDir host.visits)
      retiring_empty fun _ _ h hinput => h.step hinput
  have hcounted := hretiring.counted digest
  have hdone := hretiring.retired digest (by omega) (by omega)
  exact ⟨hdone, fun _ => notMem_pending hdone⟩

/-- A bridge whose artifacts are gone. -/
def emptyBridge : CanaryBridge where
  artifacts := ⟨.empty, .empty⟩
  canaryConfig := cleanConfig
  promotionScope := ⟨⟨"campaign", by decide⟩, .nativeAiSync, .nativeStable, rfl⟩
  allowedRunnerHashes := []

def cleanTurn : Turn where
  createdAt := nopsTime
  seedPath := "candidate.seed"
  world := cleanWorld
  readyAt := nopsTime
  raises _ := false

/-- A stored object that is no envelope is counted, although its artifacts are gone. -/
theorem scan_isolated_invalid : Isolated zeroHash pairLoads (fun _ => none) 4
    (.fresh pairQuarantine) scanQueue
    (emptyBridge.attempt zeroHash pairLoads fun _ _ => cleanTurn) := by
  refine ((scan_isolated_iff zeroHash pairLoads (fun _ => none) 4).1 _ _ _ _).mpr
    fun targets htargets target hdue => ⟨fun envelope hload => ?_, fun hnone => nomatch hnone⟩
  unfold loadEnvelope at hload
  split at hload <;> cases hload

/-- The artifacts of the first envelope are gone, and its failure is not counted. -/
theorem missing_artifact_not_counted :
    ¬ ∀ (sha256 : Sha256) (loads : Bytes → Option Json)
      (parseEnvelope : QuarantineStore.Envelope → Option QuarantineEnvelope) (maxAttempts : ℤ)
      (quarantine : Quarantine) (args : ScanArgs) (bridge : CanaryBridge)
      (turns : Digest → ℕ → Turn),
      Isolated sha256 loads parseEnvelope maxAttempts (.fresh quarantine) args
        (bridge.attempt sha256 loads turns) := by
  intro hall
  obtain ⟨envelope, henvelope⟩ := exists_pairEnvelope
  have hisolated := hall zeroHash pairLoads (fun _ => some envelope) 4 pairQuarantine scanQueue
    emptyBridge fun _ _ => cleanTurn
  have hvisit : (ScanHost.fresh pairQuarantine).process zeroHash pairLoads (fun _ => some envelope)
      (emptyBridge.attempt zeroHash pairLoads fun _ _ => cleanTurn) pairDigest
      = ⟨pairDigest, [], some (.process (.artifact .unavailable))⟩ := by
    change processEnvelope _ _ _ _ pairQuarantine _ = _
    rw [processEnvelope_of_load (load_pairQuarantine envelope), henvelope]
    rfl
  have hdue : Due ((ScanHost.fresh pairQuarantine).process zeroHash pairLoads
      (fun _ => some envelope) (emptyBridge.attempt zeroHash pairLoads fun _ _ => cleanTurn))
      [pairDigest] pairDigest := ⟨[], [], rfl, fun _ h => nomatch h⟩
  have hstops := not_stops_of_isolated hisolated targets_pairQuarantine hdue (by
    rw [hvisit]
    simp [Visit.Disturbed, fleetDisturbed])
  rw [hvisit] at hstops
  cases hstops

end IouAi.Authority
