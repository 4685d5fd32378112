import IouAi.Lkml.Collector

/-!
# The cursor of the collector

What a run does with the feed is a function of the entries that are new to it (`fresh`): it asks for
the first of them, as many as the limit allows (`loop_advances`). The cursor holds the digests of the
messages that some run has decided on, and a message in it is asked for by no later run
(`collector_run`).
-/

namespace IouAi.Lkml

open Checks

/-! ## Artifacts stay -/

/-- Every artifact of `files` is in `files'` as it was. -/
def Extends (files files' : Artifacts) : Prop :=
  ∀ path content, files path = some content → files' path = some content

theorem Extends.refl (files : Artifacts) : Extends files files := fun _ _ h => h

theorem Extends.trans {files files' files'' : Artifacts} (h : Extends files files')
    (h' : Extends files' files'') : Extends files files'' :=
  fun path content hpath => h' path content (h path content hpath)

/-- A message that was stored has its two artifacts. -/
def Decision.Kept (files : Artifacts) : Decision → Prop
  | .stored artifact =>
    (files artifact.rawPath).isSome = true ∧ (files artifact.evidencePath).isSome = true
  | .outOfScope => True
  | .malformed => True

theorem Extends.isSome {files files' : Artifacts} (h : Extends files files') {path : ArtifactPath}
    (hpath : (files path).isSome = true) : (files' path).isSome = true := by
  obtain ⟨content, hcontent⟩ := Option.isSome_iff_exists.mp hpath
  rw [h path content hcontent]
  rfl

theorem Decision.Kept.mono {files files' : Artifacts} {decision : Decision}
    (h : decision.Kept files) (hextends : Extends files files') : decision.Kept files' := by
  cases decision with
  | stored artifact => exact ⟨hextends.isSome h.1, hextends.isSome h.2⟩
  | outOfScope => trivial
  | malformed => trivial

theorem extends_update {files : Artifacts} {path : ArtifactPath} (hpath : files path = none)
    (content : Wire.Bytes) : Extends files (Function.update files path (some content)) := by
  intro path' content' h
  rw [Function.update_of_ne, h]
  rintro rfl
  rw [hpath] at h
  cases h

theorem linkArtifact_spec (lib : Library) (kind : ArtifactKind) (content : Wire.Bytes)
    (files : Artifacts) :
    Extends files (linkArtifact lib kind content files).1
      ∧ ∀ digest path, (linkArtifact lib kind content files).2 = .ok (digest, path) →
        ((linkArtifact lib kind content files).1 path).isSome = true := by
  unfold linkArtifact
  split
  · rename_i existing hexisting
    split_ifs
    · refine ⟨.refl _, fun _ _ h => ?_⟩
      cases h
      simp only [hexisting, Option.isSome_some]
    · exact ⟨.refl _, fun _ _ h => nomatch h⟩
  · rename_i hnone
    refine ⟨extends_update hnone _, fun _ _ h => ?_⟩
    cases h
    simp only [Function.update_self, Option.isSome_some]

theorem storeImmutable_spec {lib : Library} {fault : WriteFault} {kind : ArtifactKind}
    {content : Wire.Bytes} {files files' : Artifacts}
    {result : Except LkmlError (String × ArtifactPath)}
    (h : storeImmutable lib fault kind content files = (files', result)) :
    Extends files files' ∧ ∀ digest path, result = .ok (digest, path) →
      (files' path).isSome = true := by
  cases fault with
  | none =>
    obtain ⟨rfl, rfl⟩ := Prod.mk.inj h
    exact linkArtifact_spec lib kind content files
  | beforeLink e =>
    cases h
    exact ⟨.refl _, fun _ _ h => nomatch h⟩
  | afterLink e =>
    obtain ⟨rfl, rfl⟩ := Prod.mk.inj h
    refine ⟨(linkArtifact_spec lib kind content files).1, fun _ _ h => ?_⟩
    obtain ⟨_, -, h⟩ := bind_eq_ok.mp h
    cases h

theorem store_spec {lib : Library} {fault : ArtifactKind → WriteFault} {raw : Wire.Bytes}
    {evidence : LkmlEvidence} {files files' : Artifacts}
    {result : Except LkmlError StoredLkmlEvidence}
    (h : store lib fault raw evidence files = (files', result)) :
    Extends files files' ∧ ∀ artifact, result = .ok artifact →
      (Decision.stored artifact).Kept files' := by
  unfold store at h
  split at h
  · rename_i hraw
    cases h
    exact ⟨(storeImmutable_spec hraw).1, fun _ h => nomatch h⟩
  · rename_i hraw
    obtain ⟨hextends, hrawPath⟩ := storeImmutable_spec hraw
    split_ifs at h
    · cases h
      exact ⟨hextends, fun _ h => nomatch h⟩
    · split at h
      · rename_i hevidence
        cases h
        exact ⟨hextends.trans (storeImmutable_spec hevidence).1, fun _ h => nomatch h⟩
      · rename_i hevidence
        obtain ⟨hextends', hevidencePath⟩ := storeImmutable_spec hevidence
        cases h
        refine ⟨hextends.trans hextends', fun _ h => ?_⟩
        cases h
        exact ⟨hextends'.isSome (hrawPath _ _ rfl), hevidencePath _ _ rfl⟩

/-! ## One message -/

/-- What becomes of a message, besides the counts. -/
structure Classified (entry : FeedEntry) (s s' : LoopState) (error : Option LkmlError) : Prop where
  considered : s'.considered = s.considered
  inRun : s'.inRun = s.inRun
  requests : s'.requests = s.requests
  files : Extends s.files s'.files
  failed : ∀ e, error = some e → s'.seen = s.seen ∧ s'.decided = s.decided
  decided : error = none → s'.seen = insert entry.messageIdSha256 s.seen
    ∧ ∃ decision : Decision, s'.decided = s.decided ++ [(entry, decision)]
      ∧ decision.Kept s'.files

theorem classified_classify (lib : Library) (env : Surroundings) (entry : FeedEntry)
    (body : Wire.Bytes) (s : LoopState) :
    Classified entry s (classify lib env entry body s).1 (classify lib env entry body s).2 := by
  unfold classify
  split
  · exact ⟨rfl, rfl, rfl, .refl _, fun _ h => (nomatch h), fun _ => ⟨rfl, _, rfl, trivial⟩⟩
  · exact ⟨rfl, rfl, rfl, .refl _, fun _ _ => ⟨rfl, rfl⟩, fun h => nomatch h⟩
  · exact ⟨rfl, rfl, rfl, .refl _, fun _ h => (nomatch h), fun _ => ⟨rfl, _, rfl, trivial⟩⟩
  · split
    · rename_i hstore
      exact ⟨rfl, rfl, rfl, (store_spec hstore).1, fun _ _ => ⟨rfl, rfl⟩, fun h => nomatch h⟩
    · rename_i hstore
      exact ⟨rfl, rfl, rfl, (store_spec hstore).1, fun _ h => (nomatch h),
        fun _ => ⟨rfl, _, rfl, (store_spec hstore).2 _ rfl⟩⟩

/-- A visit asks for its message and decides on it, or it fails. -/
structure Visited (entry : FeedEntry) (s s' : LoopState) (error : Option LkmlError) : Prop where
  considered : s'.considered = s.considered + 1
  inRun : s'.inRun = insert entry.messageIdSha256 s.inRun
  files : Extends s.files s'.files
  failed : ∀ e, error = some e → s'.seen = s.seen ∧ s'.decided = s.decided
    ∧ (s'.requests = s.requests ∨ s'.requests = s.requests ++ [entry])
  decided : error = none → s'.requests = s.requests ++ [entry]
    ∧ s'.seen = insert entry.messageIdSha256 s.seen
    ∧ ∃ decision : Decision, s'.decided = s.decided ++ [(entry, decision)]
      ∧ decision.Kept s'.files

theorem visited_visit (lib : Library) (config : CollectorConfig) (env : Surroundings)
    (entry : FeedEntry) (s : LoopState) :
    Visited entry s (visit lib config env entry s).1 (visit lib config env entry s).2 := by
  unfold visit
  split
  · exact ⟨rfl, rfl, .refl _, fun _ _ => ⟨rfl, rfl, .inl rfl⟩, fun h => nomatch h⟩
  · split
    · exact ⟨rfl, rfl, .refl _, fun _ _ => ⟨rfl, rfl, .inr rfl⟩, fun h => nomatch h⟩
    · rename_i resource _
      have h := classified_classify lib env entry resource.body
        { (s.consider entry).request entry with fetched := s.fetched + 1 }
      refine ⟨h.considered, h.inRun, h.files, fun e he => ?_, fun he => ?_⟩
      · exact ⟨(h.failed e he).1, (h.failed e he).2, .inr h.requests⟩
      · exact ⟨h.requests, (h.decided he).1, (h.decided he).2⟩

/-! ## The loop -/

/-- The entries that are new, each once, where the digests of `known` are not. -/
def fresh (known : Finset String) : List FeedEntry → List FeedEntry
  | [] => []
  | entry :: entries =>
    if entry.messageIdSha256 ∈ known then fresh known entries
    else entry :: fresh (insert entry.messageIdSha256 known) entries

/-- The digests of the messages that were decided on. -/
def decidedDigests (decided : List (FeedEntry × Decision)) : Finset String :=
  (decided.map fun message => message.1.messageIdSha256).toFinset

/-- From `s` the loop has asked for the messages `requested` and decided on `decided`. -/
structure Advanced (limit : ℕ) (entries : List FeedEntry) (s s' : LoopState)
    (error : Option LkmlError) (requested : List FeedEntry)
    (decided : List (FeedEntry × Decision)) : Prop where
  requests : s'.requests = s.requests ++ requested
  requested_take :
    requested <+: (fresh (s.seen ∪ s.inRun) entries).take (limit - s.considered)
  complete : error = none →
    requested = (fresh (s.seen ∪ s.inRun) entries).take (limit - s.considered)
  decided_eq : s'.decided = s.decided ++ decided
  decided_take : decided.map Prod.fst <+: requested
  decided_complete : error = none → decided.map Prod.fst = requested
  seen : s'.seen = s.seen ∪ decidedDigests decided
  files : Extends s.files s'.files
  kept : ∀ message ∈ decided, message.2.Kept s'.files

theorem loop_advances (lib : Library) (config : CollectorConfig) (env : Surroundings)
    (entries : List FeedEntry) (s : LoopState) :
    ∃ requested decided, Advanced config.maxMessages entries s (loop lib config env entries s).1
      (loop lib config env entries s).2 requested decided := by
  induction entries generalizing s with
  | nil =>
    exact ⟨[], [], by simp [loop], by simp, by simp [fresh], by simp [loop], by simp, by simp,
      by simp [loop, decidedDigests], .refl _, by simp⟩
  | cons entry entries ih =>
    rw [loop]
    split_ifs with hknown hlimit
    · have hfresh : fresh (s.seen ∪ s.inRun) (entry :: entries)
          = fresh (s.seen ∪ s.inRun) entries := by
        rw [fresh, if_pos (Finset.mem_union.mpr hknown)]
      obtain ⟨requested, decided, h⟩ := ih { s with duplicates := s.duplicates + 1 }
      refine ⟨requested, decided, h.requests, ?_, ?_, h.decided_eq, h.decided_take,
        h.decided_complete, h.seen, h.files, h.kept⟩
      · rw [hfresh]
        exact h.requested_take
      · rw [hfresh]
        exact h.complete
    · exact ⟨[], [], by simp, by simp, by simp [Nat.sub_eq_zero_of_le hlimit], by simp, by simp,
        by simp, by simp [decidedDigests], .refl _, by simp⟩
    · have hvisit := visited_visit lib config env entry s
      have hfresh : (fresh (s.seen ∪ s.inRun) (entry :: entries)).take
            (config.maxMessages - s.considered)
          = entry :: (fresh (insert entry.messageIdSha256 (s.seen ∪ s.inRun)) entries).take
            (config.maxMessages - (s.considered + 1)) := by
        rw [fresh, if_neg (mt Finset.mem_union.mp hknown),
          show config.maxMessages - s.considered = config.maxMessages - (s.considered + 1) + 1 by
            omega, List.take_succ_cons]
      generalize visit lib config env entry s = result at hvisit ⊢
      obtain ⟨s', _ | e⟩ := result
      · obtain ⟨hrequests, hseen, decision, hdecided, hkept⟩ := hvisit.decided rfl
        obtain ⟨requested, decisions, h⟩ := ih s'
        have hknown' : s'.seen ∪ s'.inRun = insert entry.messageIdSha256 (s.seen ∪ s.inRun) := by
          rw [hseen, hvisit.inRun]
          grind
        have hpre := h.requested_take
        have hcomplete := h.complete
        rw [hknown', hvisit.considered] at hpre hcomplete
        refine ⟨entry :: requested, (entry, decision) :: decisions, ?_, ?_, ?_, ?_, ?_, ?_, ?_, ?_,
          ?_⟩
        · rw [h.requests, hrequests, List.append_assoc, List.singleton_append]
        · rw [hfresh]
          exact (List.prefix_cons_inj entry).mpr hpre
        · intro hnone
          rw [hfresh, ← hcomplete hnone]
        · rw [h.decided_eq, hdecided, List.append_assoc, List.singleton_append]
        · exact (List.prefix_cons_inj entry).mpr h.decided_take
        · intro hnone
          rw [List.map_cons, h.decided_complete hnone]
        · rw [h.seen, hseen, decidedDigests, decidedDigests, List.map_cons, List.toFinset_cons]
          grind
        · exact hvisit.files.trans h.files
        · intro message hmem
          rcases List.mem_cons.mp hmem with rfl | hmem
          · exact hkept.mono h.files
          · exact h.kept message hmem
      · obtain ⟨hseen, hdecided, hrequests⟩ : s'.seen = s.seen ∧ s'.decided = s.decided
            ∧ (s'.requests = s.requests ∨ s'.requests = s.requests ++ [entry]) :=
          hvisit.failed e rfl
        have hfails : ∀ {P : Prop}, some e = none → P := fun h => nomatch h
        rcases hrequests with hrequests | hrequests
        · exact ⟨[], [], by simp [hrequests], by simp, hfails, by simp [hdecided], by simp, hfails,
            by simp [hseen, decidedDigests], hvisit.files, by simp⟩
        · refine ⟨[entry], [], hrequests, ?_, hfails, by simp [hdecided], by simp, hfails,
            by simp [hseen, decidedDigests], hvisit.files, by simp⟩
          rw [hfresh]
          exact (List.prefix_cons_inj entry).mpr List.nil_prefix

/-! ## What a run does -/

/-- The list of new entries is a part of the feed, without a digest twice or a known one. -/
theorem fresh_sublist (known : Finset String) (entries : List FeedEntry) :
    (fresh known entries).Sublist entries := by
  induction entries generalizing known with
  | nil => exact .refl _
  | cons entry entries ih =>
    rw [fresh]
    split_ifs
    · exact (ih known).cons entry
    · exact (ih _).cons_cons entry

theorem not_mem_of_mem_fresh {known : Finset String} {entries : List FeedEntry} {entry : FeedEntry}
    (h : entry ∈ fresh known entries) : entry.messageIdSha256 ∉ known := by
  induction entries generalizing known with
  | nil => cases h
  | cons first entries ih =>
    rw [fresh] at h
    split_ifs at h with hknown
    · exact ih h
    · rcases List.mem_cons.mp h with rfl | h
      · exact hknown
      · exact fun hmem => ih h (Finset.mem_insert_of_mem hmem)

/-- The entries are asked for in the order of the list: one that is passed over comes later. -/
theorem sublist_of_prefix_fresh {known : Finset String} {entries requested : List FeedEntry}
    (hpre : requested <+: fresh known entries) {entry skipped : FeedEntry}
    (hentry : entry ∈ requested) (hmem : skipped ∈ entries)
    (hknown : skipped.messageIdSha256 ∉ known)
    (hskipped : ∀ other ∈ requested, other.messageIdSha256 ≠ skipped.messageIdSha256) :
    [entry, skipped].Sublist entries := by
  induction entries generalizing known requested with
  | nil => cases hmem
  | cons first entries ih =>
    rw [fresh] at hpre
    split_ifs at hpre with hfirst
    · rcases List.mem_cons.mp hmem with rfl | hmem
      · exact absurd hfirst hknown
      · exact (ih hpre hentry hmem hknown hskipped).cons first
    · obtain _ | ⟨head, rest⟩ := requested
      · cases hentry
      obtain ⟨rfl, hrest⟩ := List.cons_prefix_cons.mp hpre
      have hne := hskipped head List.mem_cons_self
      replace hmem : skipped ∈ entries := by
        rcases List.mem_cons.mp hmem with rfl | hmem
        · exact absurd rfl hne
        · exact hmem
      rcases List.mem_cons.mp hentry with rfl | hentry
      · exact List.Sublist.cons_cons _ (List.singleton_sublist.mpr hmem)
      · refine (ih hrest hentry hmem ?_ fun other hother =>
          hskipped other (List.mem_cons_of_mem _ hother)).cons head
        rw [Finset.mem_insert, not_or]
        exact ⟨hne.symm, hknown⟩

theorem seen_of_loadCursor {state : CollectorState} {cursor : Cursor}
    (h : loadCursor state.cursor = .ok cursor) :
    cursor.seenMessageIdSha256 = state.saved.toFinset := by
  unfold CollectorState.saved
  cases hfile : state.cursor with
  | none =>
    rw [hfile] at h
    cases h
    rfl
  | some file =>
    rw [hfile, loadCursor, raiseIf_bind_eq_ok, raiseIf_bind_eq_ok, raiseIf_bind_eq_ok] at h
    obtain ⟨-, -, -, h⟩ := h
    cases h
    rfl

theorem seen_of_finish {env : Surroundings} {feed : ParsedFeed} {s : LoopState} {file : CursorFile}
    (h : finish env feed s = .ok file) : file.seenMessageIdSha256.toFinset = s.seen := by
  obtain ⟨now, -, h⟩ := bind_eq_ok.mp h
  rw [saveCursor, raiseIf_bind_eq_ok] at h
  obtain ⟨-, h⟩ := h
  rw [raiseIf_bind_eq_ok] at h
  obtain ⟨-, h⟩ := h
  split at h
  · cases h
  · cases h
    exact Finset.sort_toFinset _ _

/-- What a run does, whether it is aborted or not. -/
structure Runs (lib : Library) (job : Job) (state : CollectorState) (result : RunResult) :
    Prop where
  aborted : ∀ e, result.report = .error e → result.state.cursor = state.cursor
  saved : ∀ report, result.report = .ok report →
    result.state.saved.toFinset = state.saved.toFinset ∪ decidedDigests result.decided
  files : Extends state.files result.state.files
  kept : ∀ message ∈ result.decided, message.2.Kept result.state.files
  decided_take : result.decided.map Prod.fst <+: result.requests
  decided_complete : ∀ report, result.report = .ok report →
    result.decided.map Prod.fst = result.requests
  requested : result.requests = [] ∧ (∃ e, result.report = .error e)
    ∨ ∃ feed, readFeed lib job.config job.env = .ok feed
      ∧ result.requests <+:
        (fresh state.saved.toFinset feed.entries.reverse).take job.config.maxMessages
      ∧ ∀ report, result.report = .ok report → result.requests
        = (fresh state.saved.toFinset feed.entries.reverse).take job.config.maxMessages

theorem runs_run (lib : Library) (job : Job) (state : CollectorState) :
    Runs lib job state (run lib job state) := by
  have hstops : ∀ e, Runs lib job state ⟨[], [], .error e, state⟩ := fun e =>
    ⟨fun _ _ => rfl, fun _ h => (nomatch h), .refl _, by simp, by simp, fun _ h => (nomatch h),
      .inl ⟨rfl, e, rfl⟩⟩
  unfold run
  cases hload : loadCursor state.cursor with
  | error e => exact hstops e
  | ok cursor =>
    cases hfeed : readFeed lib job.config job.env with
    | error e => exact hstops e
    | ok feed =>
      have hseen := seen_of_loadCursor hload
      obtain ⟨requested, decided, hloop⟩ := loop_advances lib job.config job.env
        feed.entries.reverse (.start cursor state.files)
      dsimp only
      generalize loop lib job.config job.env feed.entries.reverse (.start cursor state.files)
        = ended at hloop ⊢
      obtain ⟨s, error⟩ := ended
      obtain rfl : s.requests = requested := hloop.requests
      obtain rfl : s.decided = decided := hloop.decided_eq
      have hknown : (LoopState.start cursor state.files).seen
          ∪ (LoopState.start cursor state.files).inRun = state.saved.toFinset := by
        rw [← hseen]
        exact Finset.union_empty _
      have hpre := hloop.requested_take
      have hcomplete := hloop.complete
      rw [hknown] at hpre hcomplete
      have haborts : ∀ e, Runs lib job state
          ⟨s.requests, s.decided, .error e, { state with files := s.files }⟩ := fun e =>
        ⟨fun _ _ => rfl, fun _ h => (nomatch h), hloop.files, hloop.kept, hloop.decided_take,
          fun _ h => (nomatch h), .inr ⟨feed, hfeed, hpre, fun _ h => nomatch h⟩⟩
      cases error with
      | some e => exact haborts e
      | none =>
        dsimp only
        cases hfinish : finish job.env feed s with
        | error e => exact haborts e
        | ok file =>
          refine ⟨fun _ h => (by cases h), fun _ _ => ?_, hloop.files, hloop.kept,
            hloop.decided_take, fun _ _ => hloop.decided_complete rfl,
            .inr ⟨feed, hfeed, hpre, fun _ _ => hcomplete rfl⟩⟩
          show file.seenMessageIdSha256.toFinset = _
          rw [seen_of_finish hfinish, hloop.seen, ← hseen]
          rfl

/-! ## Sequences of runs -/

section

variable {lib : Library} {job : Job} {state : CollectorState}

theorem mem_saved_iff {digest : String} : digest ∈ state.saved ↔ digest ∈ state.saved.toFinset :=
  List.mem_toFinset.symm

/-- A digest stays in the cursor. -/
theorem mem_saved_run {digest : String} (h : digest ∈ state.saved) :
    digest ∈ (run lib job state).state.saved := by
  have hrun := runs_run lib job state
  cases hreport : (run lib job state).report with
  | error e => rwa [CollectorState.saved, hrun.aborted e hreport]
  | ok report =>
    rw [mem_saved_iff, hrun.saved report hreport, Finset.mem_union]
    exact .inl (mem_saved_iff.mp h)

/-- What a run asks for is not in the cursor. -/
theorem not_mem_saved_of_mem_requests {entry : FeedEntry}
    (h : entry ∈ (run lib job state).requests) : entry.messageIdSha256 ∉ state.saved := by
  rcases (runs_run lib job state).requested with ⟨hnil, -⟩ | ⟨feed, -, hpre, -⟩
  · rw [hnil] at h
    cases h
  · rw [mem_saved_iff]
    exact not_mem_of_mem_fresh (List.mem_of_mem_take (hpre.subset h))

theorem length_requests_le (lib : Library) (job : Job) (state : CollectorState) :
    (run lib job state).requests.length ≤ job.config.maxMessages := by
  rcases (runs_run lib job state).requested with ⟨hnil, -⟩ | ⟨feed, -, hpre, -⟩
  · simp [hnil]
  · exact hpre.length_le.trans (List.length_take_le _ _)

/-- What is new in the cursor was decided on by this run. -/
theorem exists_decided_of_mem_saved {digest : String}
    (h : digest ∈ (run lib job state).state.saved) (hnew : digest ∉ state.saved) :
    ∃ message ∈ (run lib job state).decided, message.1.messageIdSha256 = digest := by
  have hrun := runs_run lib job state
  cases hreport : (run lib job state).report with
  | error e =>
    rw [CollectorState.saved, hrun.aborted e hreport] at h
    exact absurd h hnew
  | ok report =>
    rw [mem_saved_iff, hrun.saved report hreport, Finset.mem_union] at h
    rcases h with h | h
    · exact absurd (mem_saved_iff.mpr h) hnew
    · simpa [decidedDigests] using h

end

theorem mem_saved_afterRuns {lib : Library} {state : CollectorState} {digest : String}
    (h : digest ∈ state.saved) (jobs : List Job) : digest ∈ (afterRuns lib state jobs).saved := by
  induction jobs generalizing state with
  | nil => exact h
  | cons job jobs ih => exact ih (mem_saved_run h)

theorem afterRuns_concat (lib : Library) (state : CollectorState) (jobs : List Job) (job : Job) :
    afterRuns lib state (jobs ++ [job]) = (run lib job (afterRuns lib state jobs)).state :=
  List.foldl_append

/-- Every digest of the cursor was decided on by one of the runs. -/
theorem exists_decided (lib : Library) (jobs : List Job) {digest : String}
    (h : digest ∈ (afterRuns lib .initial jobs).saved) :
    ∃ before past, before ++ [past] <+: jobs
      ∧ ∃ message ∈ (run lib past (afterRuns lib .initial before)).decided,
        message.1.messageIdSha256 = digest
          ∧ message.2.Kept (afterRuns lib .initial jobs).files := by
  induction jobs using List.reverseRecOn with
  | nil => cases h
  | append_singleton jobs job ih =>
    rw [afterRuns_concat] at h ⊢
    have hrun := runs_run lib job (afterRuns lib .initial jobs)
    by_cases hmem : digest ∈ (afterRuns lib .initial jobs).saved
    · obtain ⟨before, past, hpre, message, hmessage, hdigest, hkept⟩ := ih hmem
      exact ⟨before, past, hpre.trans (List.prefix_append jobs [job]), message, hmessage,
        hdigest, hkept.mono hrun.files⟩
    · obtain ⟨message, hmessage, hdigest⟩ := exists_decided_of_mem_saved h hmem
      exact ⟨jobs, job, List.prefix_rfl, message, hmessage, hdigest,
        hrun.kept message hmessage⟩

end IouAi.Lkml
