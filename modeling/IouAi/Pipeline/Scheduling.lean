import IouAi.Pipeline.Triggers

/-!
# What the scheduler remembers

The memory behind the state file, and what the ticks keep of it (`holds_step`). While a failed
attempt is remembered its material is deferred by the retry interval, and while a success is
remembered its material is deferred by the refresh interval.
-/

namespace IouAi.Pipeline

open Calendar Checks Wire

/-! ## The memory -/

/-- The last attempt, with its status, and the last success. -/
structure Memory where
  attempt : Option (Digest × Datetime × AttemptStatus)
  success : Option (Digest × Datetime)

namespace Memory

def empty : Memory := ⟨none, none⟩

/-- The file of a memory. -/
def state (memory : Memory) : TriggerState where
  lastAttemptAt := memory.attempt.map fun attempt => microText attempt.2.1
  lastAttemptDigest := memory.attempt.map Prod.fst
  lastAttemptStatus := memory.attempt.map fun attempt => attempt.2.2
  lastSuccessAt := memory.success.map fun success => microText success.2
  lastSuccessDigest := memory.success.map Prod.fst

/-- The last attempt was one of this material that did not complete, not long ago. -/
def Cooling (store : TriggerStateStore) (memory : Memory) (digest : Digest) (now : Datetime) :
    Prop :=
  ∃ attempted status, memory.attempt = some (digest, attempted, status) ∧ status ≠ .completed
    ∧ now.micros < attempted.micros + store.retry
    ∧ ∀ success ∈ memory.success, success.2 ≤ attempted

/-- The last success was one of this material, not long ago. -/
def Fresh (store : TriggerStateStore) (memory : Memory) (digest : Digest) (now : Datetime) :
    Prop :=
  ∃ succeeded, memory.success = some (digest, succeeded)
    ∧ now.micros < succeeded.micros + store.refresh

/-- Material is due unless it has failed or succeeded not long ago. -/
def Due (store : TriggerStateStore) (memory : Memory) (digest : Digest) (now : Datetime) : Prop :=
  ¬ memory.Cooling store digest now ∧ ¬ memory.Fresh store digest now

/-- The memory after an attempt. -/
def attempted (memory : Memory) (tick : Tick) : Memory :=
  match tick.ending with
  | .crashed => ⟨some (tick.digest, tick.attemptedAt, .running), memory.success⟩
  | .failed => ⟨some (tick.digest, tick.endedAt, .failed), memory.success⟩
  | .completed =>
    ⟨some (tick.digest, tick.endedAt, .completed), some (tick.digest, tick.endedAt)⟩

end Memory

/-- What a file is read as. -/
def Holds (file : Option TriggerState) (memory : Memory) : Prop :=
  readState file = .ok memory.state

section Files

variable {store : TriggerStateStore} {file : Option TriggerState} {memory : Memory}

theorem length_microText_le (instant : Datetime) : (microText instant).length ≤ 35 := by
  have htime : instant.timeText.length = 8 := rfl
  have hfraction : instant.fractionText.length ≤ 7 := by
    unfold Datetime.fractionText
    split
    · simp
    · exact Nat.le_refl 7
  rw [microText, String.length_ofList]
  simp only [List.length_append, List.length_cons, List.length_nil, Date.text_length, htime]
  omega

/-- A time is read back. -/
theorem parseTimestamp_map {α : Type} (value : Option α) (time : α → Datetime) (field : String) :
    parseTimestamp (value.map fun x => microText (time x)) field = .ok (value.map time) := by
  cases value with
  | none => rfl
  | some x =>
    have hlength : ¬ 35 < (microText (time x)).length := Nat.not_lt.mpr (length_microText_le _)
    simp only [parseTimestamp, Option.map_some, raiseIf_bind_of_not hlength,
      fromIsoformat_microText]
    rfl

theorem holds_state (memory : Memory) : Holds (some memory.state) memory := by
  rw [Holds, readState, Memory.state]
  simp only [parseTimestamp_map]
  rfl

theorem holds_none : Holds none Memory.empty := rfl

/-- The guard of the cooldown. -/
theorem failedInCooldown_iff (store : TriggerStateStore) (memory : Memory) (digest : Digest)
    (now : Datetime) :
    failedInCooldown store memory.state (memory.success.map Prod.snd)
        (memory.attempt.map fun attempt => attempt.2.1) digest now = true
      ↔ memory.Cooling store digest now := by
  unfold failedInCooldown Memory.state
  unfold Memory.Cooling
  rcases hattempt : memory.attempt with _ | ⟨attemptedDigest, attemptedAt, status⟩
  · simp
  · simp only [Option.map_some, Bool.and_eq_true, Bool.or_eq_true, decide_eq_true_eq,
      Option.some.injEq, Option.any_some, Option.all_eq_true, Option.map_eq_some_iff,
      forall_exists_index, and_imp, Prod.mk.injEq]
    constructor
    · rintro ⟨⟨rfl, hstatus⟩, hnow, hsuccess⟩
      refine ⟨attemptedAt, status, ⟨rfl, rfl, rfl⟩, ?_, by omega, fun success hmem => ?_⟩
      · rcases hstatus with rfl | rfl <;> decide
      · exact hsuccess success.2 success hmem rfl
    · rintro ⟨_, _, ⟨rfl, rfl, rfl⟩, hstatus, hnow, hsuccess⟩
      refine ⟨⟨rfl, ?_⟩, by omega, ?_⟩
      · cases status with
        | running => exact .inl rfl
        | failed => exact .inr rfl
        | completed => exact absurd rfl hstatus
      · rintro _ success hmem rfl
        exact hsuccess success hmem

/-- The decision is whether the material is due. -/
theorem assess_of_holds (h : Holds file memory) (digest : Digest) (now : Datetime) :
    ∃ decision, assess store digest now file = .ok decision
      ∧ (decision.shouldRun = true ↔ memory.Due store digest now) := by
  have hguard := failedInCooldown_iff store memory digest now
  rw [assess, h]
  have hsuccessAt : parseTimestamp memory.state.lastSuccessAt "last_success_at"
      = .ok (memory.success.map Prod.snd) := parseTimestamp_map _ _ _
  have hattemptAt : parseTimestamp memory.state.lastAttemptAt "last_attempt_at"
      = .ok (memory.attempt.map fun attempt => attempt.2.1) := parseTimestamp_map _ _ _
  simp only [hsuccessAt, hattemptAt, bind, Except.bind]
  by_cases hcooling : memory.Cooling store digest now
  · rw [if_pos (hguard.mpr hcooling)]
    exact ⟨_, rfl, iff_of_false Bool.false_ne_true fun hdue => hdue.1 hcooling⟩
  · rw [if_neg (fun hbool => hcooling (hguard.mp hbool))]
    rcases hsuccess : memory.success with _ | ⟨successDigest, succeeded⟩
    · have hdue : memory.Due store digest now := by
        refine ⟨hcooling, ?_⟩
        rintro ⟨_, hsome, -⟩
        rw [hsuccess] at hsome
        cases hsome
      simp only [Option.map_none]
      split
      · exact ⟨_, rfl, iff_of_true rfl hdue⟩
      · split
        · exact ⟨_, rfl, iff_of_true rfl hdue⟩
        · exact ⟨_, rfl, iff_of_true rfl hdue⟩
    · have hfresh : memory.Fresh store digest now
          ↔ successDigest = digest ∧ now.micros < succeeded.micros + store.refresh := by
        unfold Memory.Fresh
        rw [hsuccess]
        constructor
        · rintro ⟨_, ⟨⟩, hlt⟩
          exact ⟨rfl, hlt⟩
        · rintro ⟨rfl, hlt⟩
          exact ⟨succeeded, rfl, hlt⟩
      have hdigest : memory.state.lastSuccessDigest = some digest ↔ successDigest = digest := by
        rw [Memory.state, hsuccess]
        exact Option.some_inj
      simp only [Option.map_some, ne_eq, hdigest]
      split
      · rename_i hother
        exact ⟨_, rfl, iff_of_true rfl ⟨hcooling, fun hnow => hother (hfresh.mp hnow).1⟩⟩
      · rename_i hsame
        split
        · rename_i hold
          refine ⟨_, rfl, iff_of_true rfl ⟨hcooling, fun hnow => ?_⟩⟩
          have hlt := (hfresh.mp hnow).2
          omega
        · rename_i hyoung
          refine ⟨_, rfl, iff_of_false Bool.false_ne_true fun hdue => ?_⟩
          exact hdue.2 (hfresh.mpr ⟨not_not.mp hsame, by omega⟩)

theorem markStatus_of_holds (h : Holds file memory) (status : AttemptStatus) (digest : Digest)
    (now : Datetime) : markStatus status digest now file
      = .ok (some (Memory.state ⟨some (digest, now, status), memory.success⟩)) := by
  rw [markStatus, h]
  rfl

theorem markCompleted_of_holds (h : Holds file memory) (digest : Digest) (now : Datetime) :
    markCompleted digest now file
      = .ok (some (Memory.state ⟨some (digest, now, .completed), some (digest, now)⟩)) := by
  rw [markCompleted, h]
  rfl

/-- A tick keeps the file that of a memory, and attempts its material when that is due. -/
theorem holds_step (h : Holds file memory) (tick : Tick) :
    ((runIfNeeded store file tick).1 = true ∧ memory.Due store tick.digest tick.assessedAt
        ∧ Holds (runIfNeeded store file tick).2 (memory.attempted tick))
      ∨ ((runIfNeeded store file tick).1 = false
        ∧ ¬ memory.Due store tick.digest tick.assessedAt
        ∧ (runIfNeeded store file tick).2 = file) := by
  obtain ⟨decision, hdecision, hdue⟩ := @assess_of_holds store _ _ h tick.digest tick.assessedAt
  unfold runIfNeeded
  rw [hdecision]
  simp only
  cases hrun : decision.shouldRun with
  | false => exact .inr ⟨rfl, fun hnow => by simp [hrun] at hdue; exact hdue hnow, rfl⟩
  | true =>
    refine .inl ?_
    have hattempt := holds_state ⟨some (tick.digest, tick.attemptedAt, .running), memory.success⟩
    simp only [Bool.not_true, Bool.false_eq_true, if_false, markAttempt, markStatus_of_holds h]
    unfold Memory.attempted
    cases tick.ending with
    | crashed => exact ⟨rfl, hdue.mp hrun, hattempt⟩
    | failed =>
      refine ⟨rfl, hdue.mp hrun, ?_⟩
      simp only [marked, markFailed, markStatus_of_holds hattempt]
      exact holds_state _
    | completed =>
      refine ⟨rfl, hdue.mp hrun, ?_⟩
      simp only [marked, markCompleted_of_holds hattempt]
      exact holds_state _

end Files

/-! ## Runs -/

section Runs

variable {store : TriggerStateStore} {file : Option TriggerState} {memory : Memory}
  {digest : Digest}

theorem runTicks_append (file : Option TriggerState) (ticks ticks' : List Tick) :
    runTicks store file (ticks ++ ticks') = runTicks store (runTicks store file ticks) ticks' :=
  List.foldl_append

/-- No success is remembered from after the last tick. -/
theorem holds_run {now : Datetime} {ticks : List Tick} (h : Holds file memory)
    (hsuccess : ∀ success ∈ memory.success, success.2 ≤ now)
    (hticks : ∀ tick ∈ ticks, tick.endedAt ≤ now) :
    ∃ memory', Holds (runTicks store file ticks) memory'
      ∧ ∀ success ∈ memory'.success, success.2 ≤ now := by
  induction ticks generalizing file memory with
  | nil => exact ⟨memory, h, hsuccess⟩
  | cons tick ticks ih =>
    have hrest : ∀ other ∈ ticks, other.endedAt ≤ now :=
      fun other hother => hticks other (List.mem_cons_of_mem tick hother)
    rcases @holds_step store _ _ h tick with ⟨-, -, hnext⟩ | ⟨-, -, hsame⟩
    · refine ih hnext ?_ hrest
      intro success hmem
      unfold Memory.attempted at hmem
      cases hending : tick.ending with
      | crashed | failed =>
        simp only [hending] at hmem
        exact hsuccess success hmem
      | completed =>
        simp only [hending] at hmem
        cases hmem
        exact hticks tick List.mem_cons_self
    · rw [runTicks, List.foldl_cons, hsame]
      exact ih h hsuccess hrest

/-- While material cools down and no other is attempted, nothing is. -/
theorem runTicks_cooling {attempted : Datetime} {status : AttemptStatus} {ticks : List Tick}
    (h : Holds file memory) (hattempt : memory.attempt = some (digest, attempted, status))
    (hstatus : status ≠ .completed) (hsuccess : ∀ success ∈ memory.success, success.2 ≤ attempted)
    (hticks : ∀ tick ∈ ticks, tick.assessedAt.micros < attempted.micros + store.retry)
    (hother : ∀ other ∈ attempts store file ticks, other.digest = digest) :
    runTicks store file ticks = file := by
  induction ticks with
  | nil => rfl
  | cons tick ticks ih =>
    rw [attempts] at hother
    rcases @holds_step store _ _ h tick with ⟨hrun, hdue, -⟩ | ⟨hrun, -, hsame⟩
    · rw [if_pos hrun] at hother
      have htick : tick.digest = digest := hother tick List.mem_cons_self
      have hcooling : memory.Cooling store tick.digest tick.assessedAt := by
        rw [htick]
        exact ⟨attempted, status, hattempt, hstatus, hticks tick List.mem_cons_self, hsuccess⟩
      exact absurd hcooling hdue.1
    · rw [hrun, hsame, if_neg Bool.false_ne_true] at hother
      rw [runTicks, List.foldl_cons, hsame]
      exact ih (fun other hmem => hticks other (List.mem_cons_of_mem tick hmem)) hother

/-- While no other material succeeds, the success is remembered, or a later one. -/
theorem runTicks_success {since succeeded : Datetime} {ticks : List Tick} (h : Holds file memory)
    (hsuccess : memory.success = some (digest, succeeded)) (hsince : since ≤ succeeded)
    (hticks : ∀ tick ∈ ticks, since ≤ tick.endedAt)
    (hother : ∀ other ∈ attempts store file ticks, other.ending = .completed →
      other.digest = digest) :
    ∃ memory' later, Holds (runTicks store file ticks) memory'
      ∧ memory'.success = some (digest, later) ∧ since ≤ later := by
  induction ticks generalizing file memory succeeded with
  | nil => exact ⟨memory, succeeded, h, hsuccess, hsince⟩
  | cons tick ticks ih =>
    have hrest : ∀ other ∈ ticks, since ≤ other.endedAt :=
      fun other hmem => hticks other (List.mem_cons_of_mem tick hmem)
    rw [attempts] at hother
    rcases @holds_step store _ _ h tick with ⟨hrun, -, hnext⟩ | ⟨hrun, -, hsame⟩
    · rw [if_pos hrun] at hother
      have hotherRest := fun other hmem => hother other (List.mem_cons_of_mem tick hmem)
      cases hending : tick.ending with
      | crashed | failed =>
        have hkept : (memory.attempted tick).success = some (digest, succeeded) := by
          simp only [Memory.attempted, hending, hsuccess]
        exact ih hnext hkept hsince hrest hotherRest
      | completed =>
        have hnew : (memory.attempted tick).success = some (digest, tick.endedAt) := by
          simp only [Memory.attempted, hending, hother tick List.mem_cons_self hending]
        exact ih hnext hnew (hticks tick List.mem_cons_self) hrest hotherRest
    · rw [hrun, hsame, if_neg Bool.false_ne_true] at hother
      rw [runTicks, List.foldl_cons, hsame]
      exact ih h hsuccess hsince hrest hother

end Runs

/-- The time of the last mark of a tick that attempts its material. -/
def Tick.markedAt (tick : Tick) : Datetime :=
  match tick.ending with
  | .crashed => tick.attemptedAt
  | .completed | .failed => tick.endedAt

theorem ordered_split {before between : List Tick} {tick again : Tick}
    (h : Ordered (before ++ tick :: (between ++ [again]))) :
    (∀ other ∈ before, other.endedAt ≤ tick.assessedAt)
      ∧ (∀ other ∈ between, tick.endedAt ≤ other.assessedAt ∧ other.endedAt ≤ again.assessedAt)
      ∧ tick.endedAt ≤ again.assessedAt := by
  obtain ⟨-, hrest, hcross⟩ := List.pairwise_append.mp h
  obtain ⟨htick, hrest⟩ := List.pairwise_cons.mp hrest
  obtain ⟨-, -, hlast⟩ := List.pairwise_append.mp hrest
  refine ⟨fun other hmem => hcross other hmem tick List.mem_cons_self, fun other hmem => ?_, ?_⟩
  · exact ⟨htick other (List.mem_append_left _ hmem), hlast other hmem again (by simp)⟩
  · exact htick again (by simp)

/-- What is remembered of an attempt that did not complete. -/
theorem attempted_of_ne_completed (memory : Memory) {tick : Tick} (h : tick.ending ≠ .completed) :
    ∃ status, status ≠ .completed
      ∧ memory.attempted tick = ⟨some (tick.digest, tick.markedAt, status), memory.success⟩ := by
  unfold Memory.attempted Tick.markedAt
  cases hending : tick.ending with
  | crashed => exact ⟨.running, by decide, rfl⟩
  | failed => exact ⟨.failed, by decide, rfl⟩
  | completed => exact absurd hending h

/-- In every run of ticks that follow one another, material whose attempt failed or crashed is not
attempted again for the retry interval unless other material has been attempted since, and material
that succeeded is not attempted again for the refresh interval unless other material has succeeded
since. -/
theorem attempts_deferred {store : TriggerStateStore} {before between : List Tick}
    {tick again : Tick} (hordered : Ordered (before ++ tick :: (between ++ [again])))
    (hattempt : (runIfNeeded store (runTicks store none before) tick).1 = true)
    (hagain : (runIfNeeded store (runTicks store none (before ++ tick :: between)) again).1 = true)
    (hdigest : again.digest = tick.digest) :
    (tick.ending ≠ .completed →
        (∀ other ∈ attempts store (runTicks store none (before ++ [tick])) between,
          other.digest = tick.digest) →
        tick.markedAt.micros + store.retry ≤ again.assessedAt.micros)
      ∧ (tick.ending = .completed →
        (∀ other ∈ attempts store (runTicks store none (before ++ [tick])) between,
          other.ending = .completed → other.digest = tick.digest) →
        tick.endedAt.micros + store.refresh ≤ again.assessedAt.micros) := by
  obtain ⟨hbefore, hbetween, hlast⟩ := ordered_split hordered
  obtain ⟨memory, hmemory, hsuccess⟩ := @holds_run store _ _ _ before holds_none
    (fun _ hnone => nomatch hnone) hbefore
  -- the tick attempts its material, so the file is that of the memory after the attempt
  have hfirst : Holds (runTicks store none (before ++ [tick])) (memory.attempted tick) := by
    rcases @holds_step store _ _ hmemory tick with ⟨-, -, hnext⟩ | ⟨hrun, -⟩
    · rw [runTicks_append]
      exact hnext
    · rw [hrun] at hattempt
      cases hattempt
  have hrun : runTicks store none (before ++ tick :: between)
      = runTicks store (runTicks store none (before ++ [tick])) between := by
    rw [← runTicks_append, List.append_assoc, List.singleton_append]
  have hdue : ∀ later, Holds (runTicks store none (before ++ tick :: between)) later →
      later.Due store tick.digest again.assessedAt := by
    intro later hlater
    rcases @holds_step store _ _ hlater again with ⟨-, hdue, -⟩ | ⟨hnot, -⟩
    · rwa [hdigest] at hdue
    · rw [hnot] at hagain
      cases hagain
  have horder : tick.assessedAt.micros ≤ tick.attemptedAt.micros
      ∧ tick.attemptedAt.micros ≤ tick.endedAt.micros := ⟨tick.assessedAt_le, tick.attemptedAt_le⟩
  constructor
  · intro hending hother
    by_contra hearly
    obtain ⟨status, hstatus, hmarked⟩ := attempted_of_ne_completed memory hending
    have hmarkedAt : tick.attemptedAt ≤ tick.markedAt := by
      unfold Tick.markedAt
      split
      · exact Nat.le_refl _
      · exact tick.attemptedAt_le
      · exact tick.attemptedAt_le
    have hearlier : ∀ success ∈ (memory.attempted tick).success, success.2 ≤ tick.markedAt := by
      rw [hmarked]
      intro success hmem
      have hle : success.2.micros ≤ tick.assessedAt.micros := hsuccess success hmem
      exact (hle.trans horder.1).trans hmarkedAt
    have hattempted : (memory.attempted tick).attempt = some (tick.digest, tick.markedAt, status) := by
      rw [hmarked]
    have hsoon : ∀ other ∈ between,
        other.assessedAt.micros < tick.markedAt.micros + store.retry := by
      intro other hmem
      have hle : other.assessedAt.micros ≤ again.assessedAt.micros :=
        (other.assessedAt_le.trans other.attemptedAt_le).trans (hbetween other hmem).2
      omega
    have hsame := runTicks_cooling hfirst hattempted hstatus hearlier hsoon hother
    have hagainHolds : Holds (runTicks store none (before ++ tick :: between))
        (memory.attempted tick) := by
      rw [hrun, hsame]
      exact hfirst
    exact (hdue _ hagainHolds).1
      ⟨tick.markedAt, status, hattempted, hstatus, by omega, hearlier⟩
  · intro hending hother
    by_contra hearly
    have hsucceeded : (memory.attempted tick).success = some (tick.digest, tick.endedAt) := by
      simp only [Memory.attempted, hending]
    have hsince : ∀ other ∈ between, tick.endedAt ≤ other.endedAt := fun other hmem =>
      Nat.le_trans (Nat.le_trans (hbetween other hmem).1 other.assessedAt_le) other.attemptedAt_le
    obtain ⟨later, succeeded, hlater, hlaterSuccess, hle⟩ := runTicks_success hfirst hsucceeded
      (Nat.le_refl _) hsince hother
    have hsucceededAt : tick.endedAt.micros ≤ succeeded.micros := hle
    rw [← hrun] at hlater
    exact (hdue later hlater).2 ⟨succeeded, hlaterSuccess, by omega⟩

/-! ## Material that comes back -/

/-- Six hours before a retry, two days before a refresh. -/
def sampleStore : TriggerStateStore where
  refresh := 48 * 3600 * microsPerSecond
  retry := 6 * 3600 * microsPerSecond
  refresh_ge := by decide
  retry_ge := by decide

def materialDigest (byte : UInt8) : Digest :=
  contentDigest (fun _ => Vector.replicate 32 byte) []

/-- The instant some seconds into 2026. -/
theorem sampleTime_lt (seconds : ℕ) (h : seconds < 1000000) :
    (62135596800 + 1767225600 + seconds) * microsPerSecond < calendarDays * microsPerDay := by
  simp only [microsPerSecond, calendarDays, microsPerDay]
  omega

def sampleTime (seconds : ℕ) (h : seconds < 1000000 := by decide) : Datetime :=
  ⟨(62135596800 + 1767225600 + seconds) * microsPerSecond, sampleTime_lt seconds h⟩

/-- A tick whose marks come at the time of its look at the file. -/
def sampleTick (byte : UInt8) (time : Datetime) (ending : Ending) : Tick where
  digest := materialDigest byte
  assessedAt := time
  attemptedAt := time
  endedAt := time
  ending := ending
  assessedAt_le := Nat.le_refl _
  attemptedAt_le := Nat.le_refl _

/-- Two hours after an attempt failed, its material is attempted again: other material has been
attempted in between. -/
theorem failed_attempt_forgotten : ∃ (before between : List Tick) (tick again : Tick),
    Ordered (before ++ tick :: (between ++ [again]))
      ∧ (runIfNeeded sampleStore (runTicks sampleStore none before) tick).1 = true
      ∧ (runIfNeeded sampleStore (runTicks sampleStore none (before ++ tick :: between)) again).1
        = true
      ∧ again.digest = tick.digest ∧ tick.ending = .failed
      ∧ again.assessedAt.micros < tick.endedAt.micros + sampleStore.retry := by
  refine ⟨[], [sampleTick 1 (sampleTime 3600) .failed], sampleTick 0 (sampleTime 0) .failed,
    sampleTick 0 (sampleTime 7200) .failed, ?_, ?_, ?_, rfl, rfl, ?_⟩
  · simp only [List.nil_append, List.cons_append, Ordered]
    decide +kernel
  · decide +kernel
  · decide +kernel
  · decide +kernel

/-- An attempt that failed is retried after six hours. -/
theorem attempts_deferred_sample :
    (runIfNeeded sampleStore (runTicks sampleStore none [sampleTick 0 (sampleTime 0) .failed])
      (sampleTick 0 (sampleTime 21600) .failed)).1 = true
      ∧ (sampleTime 0).micros + sampleStore.retry ≤ (sampleTime 21600).micros := by
  have hagain : (runIfNeeded sampleStore
      (runTicks sampleStore none ([] ++ sampleTick 0 (sampleTime 0) .failed :: []))
        (sampleTick 0 (sampleTime 21600) .failed)).1 = true := by
    decide +kernel
  have hordered : Ordered ([] ++ sampleTick 0 (sampleTime 0) .failed ::
      ([] ++ [sampleTick 0 (sampleTime 21600) .failed])) := by
    simp only [List.nil_append, Ordered]
    decide +kernel
  refine ⟨hagain, ?_⟩
  exact (attempts_deferred hordered (by decide +kernel) hagain rfl).1 (by decide)
    fun _ hmem => absurd hmem List.not_mem_nil

end IouAi.Pipeline
