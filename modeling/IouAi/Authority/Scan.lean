import IouAi.Authority.Processing
import IouAi.Foundations.Runs

/-!
# Canary scans

A run of the canary command picks envelopes that carry artifacts, processes them one after the other,
and keeps two kinds of marker files: how often an envelope was tried without success, and that it is
done. A disturbed fleet ends the run at once. An envelope that cannot be loaded is counted and passed
over; what an artifact raises otherwise ends the run with nothing counted.

Markers are kept for envelopes, while outcomes and exceptions are those of artifacts.
-/

namespace IouAi.Authority

open Calendar Checks Runs Storage
open Wire hiding TargetHashes

/-! ## Markers -/

/-- The files of the directory of markers: `<hex>.done` and `<hex>.attempts`. -/
structure Markers where
  done : List Digest
  attempts : Digest → ℕ

/-- The directory of markers, when there is one. -/
abbrev ProcessedDir := Option Markers

def ProcessedDir.empty : ProcessedDir := some ⟨[], fun _ => 0⟩

/-- `_attempts`. -/
def attempts (processedDir : ProcessedDir) (digest : Digest) : ℕ :=
  processedDir.elim 0 fun markers => markers.attempts digest

def isDone (processedDir : ProcessedDir) (digest : Digest) : Prop :=
  ∃ markers ∈ processedDir, digest ∈ markers.done

instance (processedDir : ProcessedDir) (digest : Digest) : Decidable (isDone processedDir digest) :=
  match processedDir with
  | none => isFalse fun ⟨_, h, _⟩ => nomatch h
  | some markers => decidable_of_iff (digest ∈ markers.done)
      ⟨fun h => ⟨markers, rfl, h⟩, fun ⟨_, h, hdone⟩ => Option.some.inj h ▸ hdone⟩

/-- `_record_attempt`. -/
def recordAttempt (processedDir : ProcessedDir) (digest : Digest) (passed : Bool)
    (maxAttempts : ℤ) : ProcessedDir :=
  processedDir.map fun markers =>
    if passed then { markers with done := digest :: markers.done }
    else
      let count := markers.attempts digest + 1
      let counted := Function.update markers.attempts digest count
      if maxAttempts ≤ count then ⟨digest :: markers.done, counted⟩
      else { markers with attempts := counted }

/-! ## The queue -/

/-- Python's truth of a JSON value. -/
def truthy : Json → Bool
  | .null => false
  | .bool value => value
  | .num value => value ≠ 0
  | .real text => text ≠ "0.0" ∧ text ≠ "-0.0"
  | .str value => value ≠ ""
  | .arr items => !items.isEmpty
  | .obj fields => !fields.isEmpty

/-- The stored object names compiled artifacts. -/
def carriesArtifacts (raw : QuarantineStore.Envelope) : Bool :=
  ((Json.lookup raw "compiled_artifact_hashes").map truthy).getD false

/-- The default limit of `iter_verified`. -/
def maxEnvelopes : ℕ := 1024

section Scan

variable (sha256 : Sha256) (loads : Bytes → Option Json)
  (parseEnvelope : QuarantineStore.Envelope → Option QuarantineEnvelope) (maxAttempts : ℤ)

/-- `_pending_envelopes`. -/
def pendingEnvelopes (quarantine : Quarantine) (processedDir : ProcessedDir) :
    Except QuarantineError (List Digest) := do
  let found ← QuarantineStore.iterVerified sha256 loads maxEnvelopes maxEnvelopeBytes quarantine
  return (found.filter fun (digest, raw) => carriesArtifacts raw ∧ ¬ isDone processedDir digest ∧
    ¬ maxAttempts ≤ attempts processedDir digest).map Prod.fst

/-- The arguments of a run: the envelopes that are named, whether the queue is scanned as well, and
how much of it is taken. -/
structure ScanArgs where
  envelopes : List Digest
  scan : Bool
  max : ℤ

/-- The targets of a run, each once. -/
def targetsOf (args : ScanArgs) (quarantine : Quarantine) (processedDir : ProcessedDir) :
    Except QuarantineError (List Digest) :=
  if args.scan then do
    let pending ← pendingEnvelopes sha256 loads maxAttempts quarantine processedDir
    return (args.envelopes ++ pending.take args.max.toNat).eraseDups
  else .ok args.envelopes.eraseDups

/-! ## A run -/

inductive Ending
  | complete
  | aborted
  | raised (error : ProcessError)
  deriving DecidableEq

/-- How a run ends at a visit, if it does. -/
def Visit.stops (visit : Visit) : Option Ending :=
  match visit.error? with
  | some (.process (.canary (.canaryRun _))) => some .aborted
  | some (.process error) => some (.raised error)
  | _ => none

def Visit.ready (visit : Visit) : Bool :=
  visit.results.any fun result => result.2.outcome = .candidateReady

def Visit.passed (visit : Visit) : Bool := visit.error?.isNone && visit.ready

/-- What a run leaves: its visits, the markers and its end. -/
structure Progress where
  visits : List Visit
  processedDir : ProcessedDir
  ending : Ending

/-- The loop of `main`. -/
def scanTargets (process : Digest → Visit) : ProcessedDir → List Digest → Progress
  | processedDir, [] => ⟨[], processedDir, .complete⟩
  | processedDir, target :: targets =>
    let visit := process target
    match visit.stops with
    | some ending => ⟨[visit], processedDir, ending⟩
    | none =>
      let rest := scanTargets process
        (recordAttempt processedDir target visit.passed maxAttempts) targets
      { rest with visits := visit :: rest.visits }

/-- The host: its quarantine, its markers, and the visits of all runs so far. -/
structure ScanHost where
  quarantine : Quarantine
  processedDir : ProcessedDir
  visits : List Visit

/-- The processing of an envelope of the host. -/
def ScanHost.process (host : ScanHost) (attempt : Attempt) : Digest → Visit :=
  processEnvelope sha256 loads parseEnvelope attempt host.quarantine

/-- What happens on the host: the pipeline stores an object in the quarantine, or the command runs. -/
inductive ScanInput
  | publish (digest : Digest) (payload : Bytes)
  | run (args : ScanArgs) (attempt : Attempt)

def ScanHost.targets (host : ScanHost) (args : ScanArgs) : Except QuarantineError (List Digest) :=
  targetsOf sha256 loads maxAttempts args host.quarantine host.processedDir

/-- One run of the command; a queue that cannot be read ends it before it begins. -/
def ScanHost.run (host : ScanHost) (args : ScanArgs) (attempt : Attempt) :
    Except QuarantineError Progress := do
  let targets ← host.targets sha256 loads maxAttempts args
  return scanTargets maxAttempts (host.process sha256 loads parseEnvelope attempt) host.processedDir
    targets

def scanStep (host : ScanHost) : ScanInput → ScanHost
  | .publish digest payload =>
    { host with quarantine := (host.quarantine.put digest payload).getD host.quarantine }
  | .run args attempt =>
    match host.run sha256 loads parseEnvelope maxAttempts args attempt with
    | .error _ => host
    | .ok progress =>
      { host with
        processedDir := progress.processedDir
        visits := host.visits ++ progress.visits }

/-- A host with nothing visited and an empty directory of markers. -/
def ScanHost.fresh (quarantine : Quarantine) : ScanHost := ⟨quarantine, .empty, []⟩

end Scan

/-! ## Single steps -/

section Steps

variable {processedDir : ProcessedDir} {digest other : Digest} {passed : Bool} {maxAttempts : ℤ}

theorem isDone_recordAttempt_of_isDone (h : isDone processedDir other) :
    isDone (recordAttempt processedDir digest passed maxAttempts) other := by
  obtain ⟨markers, rfl, hdone⟩ := h
  refine ⟨_, rfl, ?_⟩
  dsimp only
  split_ifs
  · exact List.mem_cons_of_mem _ hdone
  · exact List.mem_cons_of_mem _ hdone
  · exact hdone

theorem isDone_of_recordAttempt (hne : other ≠ digest)
    (h : isDone (recordAttempt processedDir digest passed maxAttempts) other) :
    isDone processedDir other := by
  obtain ⟨_, hmarkers, hdone⟩ := h
  obtain ⟨markers, rfl, rfl⟩ := Option.map_eq_some_iff.mp hmarkers
  refine ⟨markers, rfl, ?_⟩
  dsimp only at hdone
  split_ifs at hdone
  · exact (List.mem_cons.mp hdone).resolve_left hne
  · exact (List.mem_cons.mp hdone).resolve_left hne
  · exact hdone

theorem attempts_recordAttempt_of_ne (hne : other ≠ digest) :
    attempts (recordAttempt processedDir digest passed maxAttempts) other
      = attempts processedDir other := by
  cases processedDir with
  | none => rfl
  | some markers =>
    simp only [attempts, recordAttempt, Option.map_some, Option.elim_some]
    split_ifs
    · rfl
    · exact Function.update_of_ne hne _ _
    · exact Function.update_of_ne hne _ _

theorem recordAttempt_of_passed :
    attempts (recordAttempt processedDir digest true maxAttempts) digest
      = attempts processedDir digest := by
  cases processedDir <;> rfl

theorem attempts_recordAttempt_le :
    attempts (recordAttempt processedDir digest passed maxAttempts) digest
      ≤ attempts processedDir digest + 1 := by
  cases processedDir with
  | none => exact Nat.zero_le _
  | some markers =>
    simp only [attempts, recordAttempt, Option.map_some, Option.elim_some]
    split_ifs
    · exact Nat.le_succ _
    · exact (Function.update_self _ _ _).le
    · exact (Function.update_self _ _ _).le

/-- A try without success is counted. -/
theorem recordAttempt_of_not_passed {markers : Markers} :
    attempts (recordAttempt (some markers) digest false maxAttempts) digest
        = markers.attempts digest + 1 ∧
      (isDone (recordAttempt (some markers) digest false maxAttempts) digest
        ↔ digest ∈ markers.done ∨ maxAttempts ≤ markers.attempts digest + 1) := by
  simp only [attempts, isDone, recordAttempt, Option.map_some, Option.elim_some, Bool.false_eq_true,
    if_false, Option.mem_some_iff, exists_eq_left']
  split_ifs with hmax
  · refine ⟨Function.update_self _ _ _, iff_of_true List.mem_cons_self (.inr ?_)⟩
    exact_mod_cast hmax
  · refine ⟨Function.update_self _ _ _, ?_⟩
    push_cast at hmax
    exact ⟨.inl, fun h => h.resolve_right hmax⟩

theorem Visit.stops_eq_none {visit : Visit} :
    visit.stops = none ↔ visit.error? = none ∨ ∃ error, visit.error? = some (.service error) := by
  obtain ⟨digest, results, error?⟩ := visit
  rcases error? with _ | error | error
  · exact iff_of_true rfl (.inl rfl)
  · exact iff_of_true rfl (.inr ⟨error, rfl⟩)
  · refine iff_of_false ?_ (by simp)
    cases error with
    | canary error => cases error <;> exact Option.some_ne_none _
    | _ => exact Option.some_ne_none _

/-- A processing that raises nothing has a result for each artifact. -/
theorem map_fst_processArtifacts {attempt : ℕ → Digest → Except ProcessError ArtifactResult}
    {position : ℕ} {digests : List Digest}
    (h : (processArtifacts attempt position digests).2 = none) :
    (processArtifacts attempt position digests).1.map Prod.fst = digests := by
  induction digests generalizing position with
  | nil => rfl
  | cons digest digests ih =>
    unfold processArtifacts at h ⊢
    cases hattempt : attempt position digest with
    | error error =>
      rw [hattempt] at h
      cases h
    | ok result =>
      rw [hattempt] at h
      exact congrArg (digest :: ·) (ih h)

end Steps

section Process

variable {sha256 : Sha256} {loads : Bytes → Option Json}
  {parseEnvelope : QuarantineStore.Envelope → Option QuarantineEnvelope} {attempt : Attempt}
  {quarantine : Quarantine} {digest : Digest} {envelope : QuarantineEnvelope}

theorem processEnvelope_of_load
    (h : loadEnvelope sha256 loads parseEnvelope quarantine digest = .ok envelope) :
    processEnvelope sha256 loads parseEnvelope attempt quarantine digest
      = ⟨digest, (processArtifacts (attempt digest envelope) 0
            envelope.fields.compiledArtifactHashes).1,
          (processArtifacts (attempt digest envelope) 0
            envelope.fields.compiledArtifactHashes).2.map .process⟩ := by
  rw [processEnvelope, h]

theorem envelopeDigest_processEnvelope :
    (processEnvelope sha256 loads parseEnvelope attempt quarantine digest).envelopeDigest
      = digest := by
  unfold processEnvelope
  split <;> rfl

/-- A visit that could not load its envelope. -/
theorem error?_processEnvelope_eq_service {error : CanaryServiceError} :
    (processEnvelope sha256 loads parseEnvelope attempt quarantine digest).error?
        = some (.service error)
      ↔ loadEnvelope sha256 loads parseEnvelope quarantine digest = .error error := by
  unfold processEnvelope
  split
  · rename_i error' herror
    simp [herror]
  · rename_i envelope henvelope
    simp [henvelope]

/-- A visit that raised nothing, of an envelope that was loaded. -/
theorem map_fst_results (h : loadEnvelope sha256 loads parseEnvelope quarantine digest = .ok envelope)
    (hvisit : (processEnvelope sha256 loads parseEnvelope attempt quarantine digest).error? = none) :
    (processEnvelope sha256 loads parseEnvelope attempt quarantine digest).results.map Prod.fst
      = envelope.fields.compiledArtifactHashes := by
  rw [processEnvelope_of_load h] at hvisit ⊢
  exact map_fst_processArtifacts (Option.map_eq_none_iff.mp hvisit)

theorem isSome_get?_of_load
    (h : loadEnvelope sha256 loads parseEnvelope quarantine digest = .ok envelope) :
    (quarantine.get? digest).isSome := by
  unfold loadEnvelope at h
  split at h
  · cases h
  · rename_i raw hget
    exact QuarantineStore.mem_names.mp (QuarantineStore.mem_names_of_get _ _ _ hget)

/-- Nothing but the file of an envelope decides how it is loaded. -/
theorem loadEnvelope_congr {other : Quarantine} (h : quarantine.get? digest = other.get? digest) :
    loadEnvelope sha256 loads parseEnvelope quarantine digest
      = loadEnvelope sha256 loads parseEnvelope other digest := by
  rw [loadEnvelope, loadEnvelope, QuarantineStore.get, QuarantineStore.get, h]

end Process

/-! ## A queue of one envelope -/

/-- A stored object that carries artifacts. -/
def pairRaw : QuarantineStore.Envelope := [("compiled_artifact_hashes", .arr [.null, .null])]

def pairDigest : Digest := contentDigest zeroHash (canonicalJson (.obj pairRaw))

def pairQuarantine : Quarantine :=
  ⟨[(pairDigest, canonicalJson (.obj pairRaw))], List.nodup_singleton _⟩

def pairLoads : Bytes → Option Json := fun _ => some (.obj pairRaw)

/-- A run that scans the queue. -/
def scanQueue : ScanArgs := ⟨[], true, 8⟩

theorem get_pairQuarantine :
    QuarantineStore.get zeroHash pairLoads maxEnvelopeBytes pairQuarantine pairDigest
      = .ok pairRaw := by
  have hfile : pairQuarantine.get? pairDigest = some (canonicalJson (.obj pairRaw)) :=
    Archive.get?_eq_some.mpr List.mem_cons_self
  have hlength : ¬ maxEnvelopeBytes < (canonicalJson (.obj pairRaw)).length := by decide +kernel
  have hdigest : ¬ contentDigest zeroHash (canonicalJson (.obj pairRaw)) ≠ pairDigest :=
    not_not.mpr rfl
  rw [QuarantineStore.get, hfile, QuarantineStore.decode]
  simp only [raiseIf_bind_of_not hlength, raiseIf_bind_of_not hdigest, pairLoads]
  rw [raiseIf_bind_of_not (not_not.mpr rfl)]
  rfl

theorem targets_pairQuarantine : (ScanHost.fresh pairQuarantine).targets zeroHash pairLoads 4 scanQueue
    = .ok [pairDigest] := by
  have hfound : QuarantineStore.iterVerified zeroHash pairLoads maxEnvelopes maxEnvelopeBytes
      pairQuarantine = .ok [(pairDigest, pairRaw)] :=
    QuarantineStore.iterVerified_eq_ok.mpr
      ⟨by decide, .cons ⟨rfl, get_pairQuarantine⟩ .nil⟩
  rw [ScanHost.targets, targetsOf, if_pos (show scanQueue.scan = true from rfl), pendingEnvelopes]
  change (QuarantineStore.iterVerified zeroHash pairLoads maxEnvelopes maxEnvelopeBytes
    pairQuarantine >>= fun found => _) >>= (fun pending => _) = _
  rw [hfound]
  rfl

/-- An envelope of two artifacts. -/
theorem exists_pairEnvelope : ∃ envelope : QuarantineEnvelope,
    envelope.fields.compiledArtifactHashes = [digestOf 0, digestOf 1] := by
  obtain ⟨-, store, envelope, -⟩ := exists_nopsEnvelope
  have htwo : 2 ≤ 128 := by decide
  refine ⟨⟨{ envelope.fields with compiledArtifactHashes := [digestOf 0, digestOf 1] }, ?_⟩, rfl⟩
  exact { envelope.valid with artifacts_le := htwo }

theorem load_pairQuarantine (envelope : QuarantineEnvelope) :
    loadEnvelope zeroHash pairLoads (fun _ => some envelope) pairQuarantine pairDigest
      = .ok envelope := by
  rw [loadEnvelope, get_pairQuarantine]

end IouAi.Authority
