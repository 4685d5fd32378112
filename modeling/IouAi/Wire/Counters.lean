import IouAi.Foundations.Intervals
import IouAi.Wire.Projector

/-!
# Alerts of counters over runs

The intervals that the alerts of a counter report are consecutive as long as every run that finds an
alert beyond the baseline, put by a run that stopped before it replaced the baseline, is over the
packet of that alert.
-/

namespace IouAi.Wire

open Calendar Intervals

variable {sha256 : Sha256} {campaignId : Identifier} {targetHashes : TargetHashes}

/-! ## Runs one after the other -/

def runProjectors (state : ProjectorState sha256) (runs : List ProjectorRun) :
    ProjectorState sha256 :=
  runs.foldl runProjector state

/-- The first baseline that there is in the states of the runs. -/
def firstBaseline (state : ProjectorState sha256) : List ProjectorRun → Option CounterSnapshot
  | [] => state.baseline
  | run :: runs => state.baseline.or (firstBaseline (runProjector state run) runs)

/-- Every run meets a condition in the state before it. -/
def Along (condition : ProjectorState sha256 → ProjectorRun → Prop)
    (state : ProjectorState sha256) : List ProjectorRun → Prop
  | [] => True
  | run :: runs => condition state run ∧ Along condition (runProjector state run) runs

/-- There is no baseline yet, and no alert. -/
structure ProjectorState.Fresh (state : ProjectorState sha256) : Prop where
  baseline : state.baseline = none
  alerts : ∀ counter, alerts counter state.outbox = []

/-- The packets of the runs are of one campaign and one target, and no counter decreases. -/
structure Growing (campaignId : Identifier) (targetHashes : TargetHashes)
    (runs : List ProjectorRun) : Prop where
  campaignId : ∀ run ∈ runs, run.input.packet.campaignId = campaignId
  targetHashes : ∀ run ∈ runs, run.input.packet.targetHashes = targetHashes
  count : runs.Pairwise fun run later => ∀ previous, run.input.packet.snapshot = .ok previous →
    ∀ current, later.input.packet.snapshot = .ok current →
      ∀ counter, previous.count counter ≤ current.count counter

/-- An alert that has the digest of the packet of the run, or that reaches beyond the baseline, is an
alert of that packet at its count. -/
def Resumes (state : ProjectorState sha256) (run : ProjectorRun) : Prop :=
  ∀ current, run.input.packet.snapshot = .ok current →
    ∀ counter, ∀ event ∈ alerts counter state.outbox,
      event.telemetryPacketDigest = current.telemetryPacketDigest
          ∨ (∃ last ∈ state.baseline, last.count counter < event.currentCount) →
        event.telemetryPacketDigest = current.telemetryPacketDigest
          ∧ event.currentCount = current.count counter

/-- What the alerts of a counter report, in their order. -/
def intervals (counter : Counter) (outbox : Outbox sha256) : List (ℕ × ℕ) :=
  (alerts counter outbox).map fun event => (event.previousCount, event.currentCount)

/-- The growth of a counter between two baselines. -/
def growth (counter : Counter) (first last : Option CounterSnapshot) : Set ℕ :=
  {n | ∃ previous ∈ first, ∃ current ∈ last,
    n ∈ Set.Ioc (previous.count counter) (current.count counter)}

/-! ## One counter -/

/-- The intervals go from the first baseline to the last one, or on to an alert beyond it. -/
def Reaches (start last : ℕ) (events : List CounterIncreaseEvent) (reach : ℕ) : Prop :=
  Consecutive start (events.map fun event => (event.previousCount, event.currentCount)) reach
    ∧ last ≤ reach ∧ (last < reach → ∃ event ∈ events, event.currentCount = reach)

section Counter

variable {counter : Counter} {previous current : CounterSnapshot} {createdAt : Datetime}
  {events events' : List CounterIncreaseEvent} {start reach : ℕ}

/-- The condition of a run, for the alerts of one counter. -/
def ResumesAlerts (previous current : CounterSnapshot) (counter : Counter)
    (events : List CounterIncreaseEvent) : Prop :=
  ∀ event ∈ events, event.telemetryPacketDigest = current.telemetryPacketDigest
      ∨ previous.count counter < event.currentCount →
    event.telemetryPacketDigest = current.telemetryPacketDigest
      ∧ event.currentCount = current.count counter

/-- An alert beyond the baseline is one of the packet. -/
theorem Reaches.eq_or (h : Reaches start (previous.count counter) events reach)
    (hresumes : ResumesAlerts previous current counter events) :
    reach = previous.count counter ∨ reach = current.count counter
      ∧ ∃ event ∈ events, event.telemetryPacketDigest = current.telemetryPacketDigest := by
  obtain ⟨-, hle, hpending⟩ := h
  rcases hle.eq_or_lt with heq | hlt
  · exact .inl heq.symm
  · obtain ⟨event, hevent, hreach⟩ := hpending hlt
    obtain ⟨hdigest, hcount⟩ := hresumes event hevent (.inr (hreach ▸ hlt))
    exact .inr ⟨hreach.symm.trans hcount, event, hevent, hdigest⟩

/-- A new alert goes on from the last baseline. -/
theorem Reaches.alerted (h : Reaches start (previous.count counter) events reach)
    (hresumes : ResumesAlerts previous current counter events)
    (hnew : ∀ event ∈ events, event.telemetryPacketDigest ≠ current.telemetryPacketDigest)
    (halerted : Alerted previous current createdAt counter events events')
    (hle : previous.count counter ≤ current.count counter) :
    Consecutive start (events'.map fun event => (event.previousCount, event.currentCount))
      (current.count counter) := by
  obtain ⟨event, hevent, rfl⟩ := halerted
  obtain ⟨-, -, -, hprevious, hcurrent⟩ := counterEvent?_eq_some hevent
  have hreach : reach = previous.count counter := by
    rcases h.eq_or hresumes with hreach | ⟨-, other, hother, hdigest⟩
    · exact hreach
    · exact absurd hdigest (hnew other hother)
  rw [List.map_append, List.map_singleton, hprevious, hcurrent]
  exact (hreach ▸ h.1).concat hle

/-- The counter needs no new alert: it has not grown, or it has its alert. -/
theorem Reaches.projected (h : Reaches start (previous.count counter) events reach)
    (hresumes : ResumesAlerts previous current counter events)
    (hle : previous.count counter ≤ current.count counter)
    (hprojected : previous.count counter < current.count counter →
      ∃ event ∈ events, event.telemetryPacketDigest = current.telemetryPacketDigest) :
    reach = current.count counter := by
  rcases h.eq_or hresumes with hreach | ⟨hreach, -⟩
  · rcases hle.eq_or_lt with heq | hlt
    · exact hreach.trans heq
    · obtain ⟨event, hevent, hdigest⟩ := hprojected hlt
      have hcount := (hresumes event hevent (.inl hdigest)).2
      have hbound := (h.1.bounds_of_mem (List.mem_map_of_mem hevent)).2
      simp only [hcount] at hbound
      omega
  · exact hreach

end Counter

/-! ## One run -/

variable {state : ProjectorState sha256} {run : ProjectorRun} {outbox : Outbox sha256}
  {input : ProjectorInput} {previous : Option CounterSnapshot} {counter : Counter}

theorem isPrefix_of_extends {P : RedactedEvent sha256 → Prop} {outbox' : Outbox sha256}
    (h : Extends P outbox outbox') : outbox <+: outbox' := by
  obtain ⟨events, rfl, -⟩ := h
  exact List.prefix_append _ _

theorem projectCounterSnapshot_isPrefix (current : CounterSnapshot) (createdAt : Datetime) :
    outbox <+: (projectCounterSnapshot previous current outbox createdAt).1 := by
  unfold projectCounterSnapshot
  split
  · exact List.prefix_rfl
  · split
    · exact List.prefix_rfl
    · exact isPrefix_of_extends (P := fun _ => True) (projectKeyed_extends fun _ _ _ => trivial)

theorem thenProject_fst {α : Type}
    (result : Outbox sha256 × Except ProjectionError (List (RedactedEvent sha256)))
    (value : ℕ → α) :
    (thenProject result fun outbox n => (outbox, .ok (value n))).1 = result.1 := by
  obtain ⟨outbox, result⟩ := result
  cases result <;> rfl

theorem thenProject_snd {α : Type}
    {result : Outbox sha256 × Except ProjectionError (List (RedactedEvent sha256))}
    {value : ℕ → α} {a : α}
    (h : (thenProject result fun outbox n => (outbox, .ok (value n))).2 = .ok a) :
    ∃ events, result.2 = .ok events ∧ a = value events.length := by
  obtain ⟨outbox, result⟩ := result
  cases result with
  | error error => cases h
  | ok events =>
    cases h
    exact ⟨events, rfl, rfl⟩

theorem projectAll_isPrefix : outbox <+: (projectAll input outbox previous).1 := by
  obtain ⟨before, hbefore, ⟨error, hresult⟩ | ⟨current, -, projected, hresult⟩⟩ :=
    putsInOrder_projectAll input outbox previous
  · rw [hresult]
    exact isPrefix_of_extends hbefore
  · rw [hresult, thenProject_fst]
    exact (isPrefix_of_extends hbefore).trans (projectCounterSnapshot_isPrefix _ _)

/-- The alert that a run puts for a counter: one of its packet, unless there is one. -/
def NewAlert (input : ProjectorInput) (previous : Option CounterSnapshot) (counter : Counter)
    (outbox : Outbox sha256) (events : List CounterIncreaseEvent) : Prop :=
  ∃ last ∈ previous, ∃ current, input.packet.snapshot = .ok current
    ∧ last.count counter < current.count counter
    ∧ isCounterProjected current outbox counter = false
    ∧ Alerted last current input.counterClock counter (alerts counter outbox) events

/-- What a run does to the alerts of a counter. -/
theorem alerts_projectAll
    (hgrows : ∀ last ∈ previous, ∀ current, input.packet.snapshot = .ok current →
      Grows last current) :
    (alerts counter (projectAll input outbox previous).1 = alerts counter outbox
      ∨ NewAlert input previous counter outbox
        (alerts counter (projectAll input outbox previous).1))
    ∧ ∀ current projected, (projectAll input outbox previous).2 = .ok (current, projected) →
      input.packet.snapshot = .ok current
        ∧ ∀ last ∈ previous, last.count counter < current.count counter →
          isCounterProjected current outbox counter = true
            ∨ NewAlert input previous counter outbox
              (alerts counter (projectAll input outbox previous).1) := by
  obtain ⟨before, hbefore, ⟨error, hresult⟩ | ⟨current, hcurrent, projected, hresult⟩⟩ :=
    putsInOrder_projectAll input outbox previous
  · rw [hresult]
    exact ⟨.inl (alerts_eq_of_extends hbefore), nofun⟩
  · rw [hresult, thenProject_fst]
    have hsame : alerts counter before = alerts counter outbox := alerts_eq_of_extends hbefore
    cases previous with
    | none =>
      refine ⟨.inl hsame, fun current' projected' hok => ?_⟩
      obtain ⟨events, -, heq⟩ := thenProject_snd hok
      cases heq
      exact ⟨hcurrent, nofun⟩
    | some last =>
      have hspec := @alerts_projectCounterSnapshot _ before last current (input.clock 3)
        (hgrows last rfl current hcurrent) counter _ rfl
      rw [hsame, isCounterProjected_congr hsame] at hspec
      refine ⟨hspec.1.imp_right fun h => ⟨last, rfl, current, hcurrent, h⟩,
        fun current' projected' hok => ?_⟩
      obtain ⟨events, hevents, heq⟩ := thenProject_snd hok
      cases heq
      refine ⟨hcurrent, ?_⟩
      rintro _ ⟨⟩ hlt
      rcases hspec.1 with hstay | hnew
      · refine .inl ((hspec.2 ⟨events, hevents⟩ hlt).resolve_right ?_)
        rintro ⟨event, -, halerted⟩
        rw [hstay] at halerted
        simp at halerted
      · exact .inr ⟨last, rfl, current, hcurrent, hnew⟩

/-- A run that does not replace the baseline leaves some of its events in the outbox. -/
def Stopped (state : ProjectorState sha256) (input : ProjectorInput)
    (state' : ProjectorState sha256) : Prop :=
  state'.baseline = state.baseline ∧ state.outbox <+: state'.outbox
    ∧ state'.outbox <+: (projectAll input state.outbox state.baseline).1

theorem stopped_self : Stopped state input state :=
  ⟨rfl, List.prefix_rfl, projectAll_isPrefix⟩

theorem project_cases (state : ProjectorState sha256) (input : ProjectorInput) :
    (Stopped state input (project state input).1 ∧ ∃ error, (project state input).2 = .error error)
    ∨ ∃ current projected, (project state input).2 = .ok projected
      ∧ projectAll input state.outbox state.baseline
        = ((project state input).1.outbox, .ok (current, projected))
      ∧ (project state input).1.baseline = some current := by
  have hprefix := @projectAll_isPrefix _ state.outbox input state.baseline
  rw [project]
  split
  · exact .inl ⟨stopped_self, _, rfl⟩
  · cases hall : projectAll input state.outbox state.baseline with
    | mk outbox result =>
      rw [hall] at hprefix
      have hstopped : Stopped state input { state with outbox := outbox } :=
        ⟨rfl, hprefix, by simp only [hall, List.prefix_rfl]⟩
      cases result with
      | error error => exact .inl ⟨hstopped, _, rfl⟩
      | ok value =>
        obtain ⟨current, projected⟩ := value
        simp only
        split
        · exact .inl ⟨hstopped, _, rfl⟩
        · exact .inr ⟨current, projected, rfl, rfl, rfl⟩

theorem killed_stopped (kill : Kill) : Stopped state input (killed state input kill) := by
  cases kill with
  | putting events tears =>
    rw [killed]
    split
    · exact stopped_self
    · obtain ⟨rest, hrest⟩ := @projectAll_isPrefix _ state.outbox input state.baseline
      have htake : state.outbox <+: (projectAll input state.outbox state.baseline).1.take
          (state.outbox.length + events) := by
        rw [← hrest, List.take_length_add_append]
        exact List.prefix_append _ _
      exact ⟨rfl, htake, List.take_prefix _ _⟩
  | replacing =>
    rw [killed]
    rcases project_cases state input with ⟨hstopped, error, herror⟩ | ⟨current, projected, hok, hall, -⟩
    · rw [herror]
      exact hstopped
    · rw [hok]
      have hprefix := @projectAll_isPrefix _ state.outbox input state.baseline
      rw [hall] at hprefix
      exact ⟨rfl, hprefix, by simp only [hall, List.prefix_rfl]⟩

/-- The run replaces the baseline. -/
def Replaces (state : ProjectorState sha256) (run : ProjectorRun) : Prop :=
  run.kill = none ∧ ∃ projected, (project state run.input).2 = .ok projected

theorem runProjector_cases (state : ProjectorState sha256) (run : ProjectorRun) :
    (Stopped state run.input (runProjector state run) ∧ ¬ Replaces state run)
    ∨ ∃ current projected, projectAll run.input state.outbox state.baseline
        = ((runProjector state run).outbox, .ok (current, projected))
      ∧ (runProjector state run).baseline = some current := by
  rw [runProjector, Replaces]
  cases hkill : run.kill with
  | some kill => exact .inl ⟨killed_stopped kill, nofun⟩
  | none =>
    rcases project_cases state run.input with ⟨hstopped, error, herror⟩ | ⟨current, projected, -, h⟩
    · refine .inl ⟨hstopped, ?_⟩
      rintro ⟨-, projected, hok⟩
      rw [herror] at hok
      cases hok
    · exact .inr ⟨current, projected, h⟩

/-! ## The invariant -/

/-- What the runs keep. `first` is the first baseline; `later` are the runs to come. -/
structure Consistent (campaignId : Identifier) (first : Option CounterSnapshot)
    (later : List ProjectorRun) (state : ProjectorState sha256) : Prop where
  campaignId : ∀ counter, ∀ event ∈ alerts counter state.outbox, event.campaignId = campaignId
  fresh : state.baseline = none → first = none ∧ ∀ counter, alerts counter state.outbox = []
  reaches : ∀ last, state.baseline = some last → ∃ start, first = some start
    ∧ ∀ counter, ∃ reach, Reaches (start.count counter) (last.count counter)
      (alerts counter state.outbox) reach
  grows : ∀ last ∈ state.baseline, ∀ run ∈ later, ∀ current,
    run.input.packet.snapshot = .ok current → Grows last current

section Step

variable {first : Option CounterSnapshot} {later : List ProjectorRun}

theorem Consistent.alerts_stopped (h : Consistent campaignId first (run :: later) state)
    {state' : ProjectorState sha256} (hstopped : Stopped state run.input state') :
    alerts counter state'.outbox = alerts counter state.outbox
      ∨ NewAlert run.input state.baseline counter state.outbox (alerts counter state'.outbox) := by
  obtain ⟨-, hbefore, hafter⟩ := hstopped
  have hbefore : alerts counter state.outbox <+: alerts counter state'.outbox :=
    alerts_prefix hbefore
  have hafter : alerts counter state'.outbox
      <+: alerts counter (projectAll run.input state.outbox state.baseline).1 :=
    alerts_prefix hafter
  have hspec := @alerts_projectAll _ state.outbox _ _ counter
    fun last hlast => h.grows last hlast run List.mem_cons_self
  rcases hspec.1 with hsame | hnew
  · rw [hsame] at hafter
    exact .inl (hbefore.eq_of_length_le hafter.length_le).symm
  · obtain ⟨last, hlast, current, hcurrent, hlt, hprojected, event, hevent, hall⟩ := hnew
    rw [hall, List.prefix_concat_iff] at hafter
    rcases hafter with hall | hafter
    · exact .inr ⟨last, hlast, current, hcurrent, hlt, hprojected, event, hevent, hall⟩
    · exact .inl (hbefore.eq_of_length_le hafter.length_le).symm

theorem Consistent.campaignId_step (h : Consistent campaignId first (run :: later) state)
    (hcampaign : run.input.packet.campaignId = campaignId) {events : List CounterIncreaseEvent}
    (hevents : events = alerts counter state.outbox
      ∨ NewAlert run.input state.baseline counter state.outbox events) :
    ∀ event ∈ events, event.campaignId = campaignId := by
  intro event hevent
  rcases hevents with rfl | ⟨last, -, current, hcurrent, -, -, new, hnew, rfl⟩
  · exact h.campaignId counter event hevent
  · rcases List.mem_append.mp hevent with hevent | hevent
    · exact h.campaignId counter event hevent
    · rw [List.mem_singleton.mp hevent, (counterEvent?_eq_some hnew).2.1,
        (TelemetryPacket.snapshot_eq hcurrent).1, hcampaign]

theorem Resumes.alerts (h : Resumes state run) {last current : CounterSnapshot}
    (hlast : last ∈ state.baseline) (hcurrent : run.input.packet.snapshot = .ok current) :
    ResumesAlerts last current counter (alerts counter state.outbox) :=
  fun event hevent hor => h current hcurrent counter event hevent
    (hor.imp_right fun hlt => ⟨last, hlast, hlt⟩)

/-- After a new alert the intervals go on to the count of the packet. -/
theorem Consistent.consecutive_newAlert (h : Consistent campaignId first (run :: later) state)
    (hcampaign : run.input.packet.campaignId = campaignId) (hresumes : Resumes state run)
    {start last current : CounterSnapshot} {reach : ℕ} (hlast : state.baseline = some last)
    (hreaches : Reaches (start.count counter) (last.count counter) (alerts counter state.outbox)
      reach) (hcurrent : run.input.packet.snapshot = .ok current)
    {events : List CounterIncreaseEvent}
    (hnew : NewAlert run.input state.baseline counter state.outbox events) :
    Consecutive (start.count counter)
      (events.map fun event => (event.previousCount, event.currentCount)) (current.count counter)
    ∧ last.count counter < current.count counter
    ∧ ∃ event ∈ events, event.currentCount = current.count counter := by
  obtain ⟨last', hlast', current', hcurrent', hlt, hprojected, halerted⟩ := hnew
  rw [hlast] at hlast'
  cases hlast'
  rw [hcurrent] at hcurrent'
  cases hcurrent'
  refine ⟨hreaches.alerted (hresumes.alerts hlast hcurrent) ?_ halerted hlt.le, hlt, ?_⟩
  · intro event hevent hdigest
    refine Bool.false_ne_true (hprojected.symm.trans
      (isCounterProjected_iff.mpr ⟨event, hevent, ?_, hdigest⟩))
    rw [h.campaignId counter event hevent, (TelemetryPacket.snapshot_eq hcurrent).1, hcampaign]
  · obtain ⟨event, hevent, rfl⟩ := halerted
    exact ⟨event, by simp, (counterEvent?_eq_some hevent).2.2.2.2⟩

/-- A run that stops keeps the invariant. -/
theorem Consistent.step_stopped (h : Consistent campaignId first (run :: later) state)
    (hcampaign : run.input.packet.campaignId = campaignId) (hresumes : Resumes state run)
    {state' : ProjectorState sha256} (hstopped : Stopped state run.input state') :
    Consistent campaignId first later state' where
  campaignId counter := h.campaignId_step hcampaign (h.alerts_stopped hstopped)
  fresh hbaseline := by
    rw [hstopped.1] at hbaseline
    refine ⟨(h.fresh hbaseline).1, fun counter => ?_⟩
    rcases @Consistent.alerts_stopped _ _ _ _ counter _ _ h _ hstopped with hsame | ⟨last, hlast, -⟩
    · rw [hsame, (h.fresh hbaseline).2 counter]
    · rw [hbaseline] at hlast
      cases hlast
  reaches last hlast := by
    rw [hstopped.1] at hlast
    obtain ⟨start, hstart, hreaches⟩ := h.reaches last hlast
    refine ⟨start, hstart, fun counter => ?_⟩
    obtain ⟨reach, hreach⟩ := hreaches counter
    rcases @Consistent.alerts_stopped _ _ _ _ counter _ _ h _ hstopped with hsame | hnew
    · exact ⟨reach, by rwa [hsame]⟩
    · obtain ⟨current, hcurrent⟩ : ∃ current, run.input.packet.snapshot = .ok current := by
        obtain ⟨_, _, current, hcurrent, _⟩ := hnew
        exact ⟨current, hcurrent⟩
      obtain ⟨hconsecutive, hlt, hevent⟩ :=
        h.consecutive_newAlert hcampaign hresumes hlast hreach hcurrent hnew
      exact ⟨current.count counter, hconsecutive, hlt.le, fun _ => hevent⟩
  grows last hlast other hother := by
    rw [hstopped.1] at hlast
    exact h.grows last hlast other (List.mem_cons_of_mem _ hother)

/-- The intervals of every counter go from the first baseline to the last one. -/
def Exact (first last : CounterSnapshot) (outbox : Outbox sha256) : Prop :=
  ∀ counter, Consecutive (first.count counter) (intervals counter outbox) (last.count counter)

/-- A run that replaces the baseline leaves the intervals up to it. -/
theorem Consistent.exact_of_replaced (h : Consistent campaignId first (run :: later) state)
    (hcampaign : run.input.packet.campaignId = campaignId) (hresumes : Resumes state run)
    {current : CounterSnapshot} {projected : Projected} {outbox : Outbox sha256}
    (hall : projectAll run.input state.outbox state.baseline = (outbox, .ok (current, projected))) :
    ∃ start, first.or (some current) = some start ∧ Exact start current outbox := by
  have hgrows : ∀ last ∈ state.baseline, ∀ current, run.input.packet.snapshot = .ok current →
      Grows last current := fun last hlast => h.grows last hlast run List.mem_cons_self
  have hspec := fun counter => @alerts_projectAll _ state.outbox _ _ counter hgrows
  simp only [hall] at hspec
  cases hbaseline : state.baseline with
  | none =>
    refine ⟨current, by rw [(h.fresh hbaseline).1, Option.none_or], fun counter => ?_⟩
    have hnil : alerts counter outbox = [] := by
      rcases (hspec counter).1 with hsame | ⟨last, hlast, -⟩
      · rw [hsame, (h.fresh hbaseline).2 counter]
      · rw [hbaseline] at hlast
        cases hlast
    rw [intervals, hnil]
    rfl
  | some last =>
    obtain ⟨start, hstart, hreaches⟩ := h.reaches last hbaseline
    refine ⟨start, by rw [hstart, Option.some_or], fun counter => ?_⟩
    obtain ⟨reach, hreach⟩ := hreaches counter
    obtain ⟨hput, hok⟩ := hspec counter
    obtain ⟨hcurrent, hleft⟩ := hok current projected rfl
    rcases hput with hsame | hnew
    · rw [intervals, hsame]
      have hprojected : last.count counter < current.count counter →
          ∃ event ∈ alerts counter state.outbox,
            event.telemetryPacketDigest = current.telemetryPacketDigest := by
        intro hlt
        rcases hleft last hbaseline hlt with hprojected | hnew
        · obtain ⟨event, hevent, -, hdigest⟩ := isCounterProjected_iff.mp hprojected
          exact ⟨event, hevent, hdigest⟩
        · obtain ⟨-, -, -, -, -, -, event, -, heq⟩ := hnew
          rw [hsame] at heq
          simp at heq
      rw [← hreach.projected (hresumes.alerts hbaseline hcurrent)
        ((hgrows last hbaseline current hcurrent).count counter) hprojected]
      exact hreach.1
    · exact (h.consecutive_newAlert hcampaign hresumes hbaseline hreach hcurrent hnew).1

theorem Consistent.or_baseline (h : Consistent campaignId first later state) :
    first.or state.baseline = first := by
  cases hbaseline : state.baseline with
  | none => rw [Option.or_none]
  | some last =>
    obtain ⟨start, hstart, -⟩ := h.reaches last hbaseline
    rw [hstart, Option.some_or]

theorem Exact.reaches {start last : CounterSnapshot} (h : Exact start last outbox) :
    Reaches (start.count counter) (last.count counter) (alerts counter outbox)
      (last.count counter) :=
  ⟨h counter, le_rfl, fun hlt => absurd hlt (lt_irrefl _)⟩

/-- A run that replaces the baseline keeps the invariant. -/
theorem Consistent.step_replaced (h : Consistent campaignId first (run :: later) state)
    (hgrowing : Growing campaignId targetHashes (run :: later)) (hresumes : Resumes state run)
    {state' : ProjectorState sha256} {current : CounterSnapshot} {projected : Projected}
    (hall : projectAll run.input state.outbox state.baseline
      = (state'.outbox, .ok (current, projected)))
    (hbaseline : state'.baseline = some current) :
    Consistent campaignId (first.or state'.baseline) later state' := by
  have hcampaign := hgrowing.campaignId run List.mem_cons_self
  have hspec := fun counter => @alerts_projectAll _ state.outbox _ _ counter
    fun last hlast => h.grows last hlast run List.mem_cons_self
  simp only [hall] at hspec
  have hcurrent := ((hspec .crash).2 current projected rfl).1
  obtain ⟨start, hstart, hexact⟩ := h.exact_of_replaced hcampaign hresumes hall
  obtain ⟨hcampaign', -, htarget'⟩ := TelemetryPacket.snapshot_eq hcurrent
  constructor
  · exact fun counter => h.campaignId_step hcampaign (hspec counter).1
  · intro hnone
    rw [hbaseline] at hnone
    cases hnone
  · intro last hlast
    rw [hbaseline] at hlast
    cases hlast
    exact ⟨start, by rw [hbaseline, hstart], fun counter => ⟨_, hexact.reaches⟩⟩
  · intro last hlast other hother next hnext
    rw [hbaseline] at hlast
    cases hlast
    obtain ⟨hcampaign'', -, htarget''⟩ := TelemetryPacket.snapshot_eq hnext
    refine ⟨?_, ?_, (List.pairwise_cons.mp hgrowing.count).1 other hother current hcurrent next
      hnext⟩
    · rw [hcampaign', hcampaign'', hcampaign,
        hgrowing.campaignId other (List.mem_cons_of_mem _ hother)]
    · rw [htarget', htarget'', hgrowing.targetHashes run List.mem_cons_self,
        hgrowing.targetHashes other (List.mem_cons_of_mem _ hother)]

theorem Consistent.step (h : Consistent campaignId first (run :: later) state)
    (hgrowing : Growing campaignId targetHashes (run :: later)) (hresumes : Resumes state run) :
    Consistent campaignId (first.or (runProjector state run).baseline) later
      (runProjector state run) := by
  rcases runProjector_cases state run with ⟨hstopped, -⟩ | ⟨current, projected, hall, hbaseline⟩
  · have hstep := h.step_stopped (hgrowing.campaignId run List.mem_cons_self) hresumes hstopped
    rwa [hstep.or_baseline]
  · exact h.step_replaced hgrowing hresumes hall hbaseline

theorem Growing.tail (h : Growing campaignId targetHashes (run :: later)) :
    Growing campaignId targetHashes later where
  campaignId other hother := h.campaignId other (List.mem_cons_of_mem _ hother)
  targetHashes other hother := h.targetHashes other (List.mem_cons_of_mem _ hother)
  count := (List.pairwise_cons.mp h.count).2

theorem baseline_or_firstBaseline (state : ProjectorState sha256) (runs : List ProjectorRun) :
    state.baseline.or (firstBaseline state runs) = firstBaseline state runs := by
  cases runs with
  | nil => exact Option.or_self
  | cons run runs => rw [firstBaseline, ← Option.or_assoc, Option.or_self]

/-- Runs keep the invariant. -/
theorem Consistent.runs {runs : List ProjectorRun}
    (h : Consistent campaignId first (runs ++ later) state)
    (hgrowing : Growing campaignId targetHashes (runs ++ later))
    (hresumes : Along Resumes state runs) :
    Consistent campaignId (first.or (firstBaseline state runs)) later
      (runProjectors state runs) := by
  induction runs generalizing first state with
  | nil =>
    rw [firstBaseline, h.or_baseline]
    exact h
  | cons run runs ih =>
    have hnext := ih (h.step hgrowing hresumes.1) hgrowing.tail hresumes.2
    rw [firstBaseline]
    rwa [Option.or_assoc, baseline_or_firstBaseline, ← h.or_baseline, Option.or_assoc] at hnext

theorem ProjectorState.Fresh.consistent (h : state.Fresh) (later : List ProjectorRun) :
    Consistent campaignId none later state where
  campaignId counter event hevent := by
    rw [h.alerts] at hevent
    cases hevent
  fresh _ := ⟨rfl, h.alerts⟩
  reaches last hlast := by
    rw [h.baseline] at hlast
    cases hlast
  grows last hlast := by
    rw [h.baseline] at hlast
    cases hlast

end Step

/-! ## The alerts of a sequence of runs -/

/-- The intervals of the alerts of a counter are disjoint. -/
def DisjointAlerts (counter : Counter) (outbox : Outbox sha256) : Prop :=
  (intervals counter outbox).Pairwise fun p q => Disjoint (Set.Ioc p.1 p.2) (Set.Ioc q.1 q.2)

/-- What the alerts of a counter report together. -/
def alerted (counter : Counter) (outbox : Outbox sha256) : Set ℕ :=
  ⋃ p ∈ intervals counter outbox, Set.Ioc p.1 p.2

/-- No alert of the counter reaches beyond the baseline. -/
def NonePending (counter : Counter) (state : ProjectorState sha256) : Prop :=
  ∀ event ∈ alerts counter state.outbox, ∃ last ∈ state.baseline,
    event.currentCount ≤ last.count counter

theorem growth_some (counter : Counter) (first last : CounterSnapshot) :
    growth counter (some first) (some last)
      = Set.Ioc (first.count counter) (last.count counter) := by
  ext n
  simp [growth]

/-- The alerts report the growth up to the last baseline, or more when one is pending. -/
theorem Consistent.alerted_iff {first : Option CounterSnapshot} {later : List ProjectorRun}
    (h : Consistent campaignId first later state) (counter : Counter) :
    DisjointAlerts counter state.outbox
      ∧ (alerted counter state.outbox = growth counter first state.baseline
        ↔ NonePending counter state) := by
  cases hbaseline : state.baseline with
  | none =>
    have hnil := (h.fresh hbaseline).2 counter
    constructor
    · rw [DisjointAlerts, intervals, hnil]
      exact List.Pairwise.nil
    · refine iff_of_true ?_ ?_
      · ext n
        simp [alerted, intervals, hnil, growth]
      · intro event hevent
        rw [hnil] at hevent
        cases hevent
  | some last =>
    obtain ⟨start, rfl, hreaches⟩ := h.reaches last hbaseline
    obtain ⟨reach, hconsecutive, hle, hpending⟩ := hreaches counter
    refine ⟨hconsecutive.pairwise_disjoint, ?_⟩
    rw [alerted, intervals, hconsecutive.iUnion_eq, growth_some, NonePending, hbaseline]
    constructor
    · intro heq event hevent
      have hbounds := hconsecutive.bounds_of_mem (List.mem_map_of_mem hevent)
      have hmem : event.currentCount ∈ Set.Ioc (start.count counter) reach :=
        ⟨hbounds.1.trans_lt event.previousCount_lt, hbounds.2⟩
      rw [heq] at hmem
      exact ⟨last, rfl, hmem.2⟩
    · intro hnone
      rcases hle.eq_or_lt with heq | hlt
      · rw [heq]
      · obtain ⟨event, hevent, hreach⟩ := hpending hlt
        obtain ⟨_, ⟨⟩, hbound⟩ := hnone event hevent
        omega

theorem along_append {condition : ProjectorState sha256 → ProjectorRun → Prop}
    {runs later : List ProjectorRun} :
    Along condition state (runs ++ later)
      ↔ Along condition state runs ∧ Along condition (runProjectors state runs) later := by
  induction runs generalizing state with
  | nil => exact (and_iff_right trivial).symm
  | cons run runs ih => simp only [List.cons_append, Along, ih, and_assoc, runProjectors,
      List.foldl_cons]

/-- No alert is pending after a run that replaces the baseline. -/
theorem Consistent.nonePending {first : Option CounterSnapshot} {later : List ProjectorRun}
    (h : Consistent campaignId first (run :: later) state)
    (hgrowing : Growing campaignId targetHashes (run :: later)) (hresumes : Resumes state run)
    (hreplaces : Replaces state run) (counter : Counter) :
    NonePending counter (runProjector state run) := by
  rcases runProjector_cases state run with ⟨-, hnot⟩ | ⟨current, projected, hall, hbaseline⟩
  · exact absurd hreplaces hnot
  · obtain ⟨start, -, hexact⟩ :=
      h.exact_of_replaced (hgrowing.campaignId run List.mem_cons_self) hresumes hall
    intro event hevent
    exact ⟨current, hbaseline, ((hexact counter).bounds_of_mem (List.mem_map_of_mem hevent)).2⟩

/-- When each run that finds an alert beyond the baseline is over the packet of that alert, and a
digest stands for one packet, every count is reported once: the intervals of a counter are disjoint,
and they are the growth between the first baseline and the last one unless an alert is pending. None
is after a run that replaces the baseline. -/
theorem counts_alerted_once {runs : List ProjectorRun} (hfresh : state.Fresh)
    (hgrowing : Growing campaignId targetHashes runs) (hresumes : Along Resumes state runs)
    (counter : Counter) :
    DisjointAlerts counter (runProjectors state runs).outbox
      ∧ (alerted counter (runProjectors state runs).outbox
          = growth counter (firstBaseline state runs) (runProjectors state runs).baseline
        ↔ NonePending counter (runProjectors state runs))
      ∧ ∀ earlier run, runs = earlier ++ [run] → Replaces (runProjectors state earlier) run →
        NonePending counter (runProjectors state runs) := by
  have hruns : Growing campaignId targetHashes (runs ++ []) := by rwa [List.append_nil]
  have hfinal := (hfresh.consistent _).runs hruns hresumes
  rw [Option.none_or] at hfinal
  obtain ⟨hdisjoint, hiff⟩ := hfinal.alerted_iff counter
  refine ⟨hdisjoint, hiff, ?_⟩
  rintro earlier run rfl hreplaces
  obtain ⟨hearlier, hrun, -⟩ := along_append.mp hresumes
  have hbefore := (hfresh.consistent _).runs hgrowing hearlier
  have hlast : Growing campaignId targetHashes [run] := by
    refine ⟨fun other hother => ?_, fun other hother => ?_, List.pairwise_singleton _ _⟩
    · exact hgrowing.campaignId other (List.mem_append_right _ hother)
    · exact hgrowing.targetHashes other (List.mem_append_right _ hother)
  have hpending := hbefore.nonePending hlast hrun hreplaces counter
  rwa [runProjectors, List.foldl_append]

/-! ## A run that is killed between the alerts and the baseline -/

def packetDigest (c : Char) (h : isDigest ("sha256:" ++ String.ofList (List.replicate 64 c)) = true) :
    Digest :=
  ⟨_, h⟩

theorem isDigest_packetDigest :
    isDigest ("sha256:" ++ String.ofList (List.replicate 64 'a')) = true := by
  decide

def crashPacket (digest : Digest) (crashes : ℕ) : TelemetryPacket where
  campaignId := ⟨"iou-campaign", by decide⟩
  packetHash := digest
  targetHashes := ⟨packetDigest 'a' isDigest_packetDigest, packetDigest 'a' isDigest_packetDigest,
    packetDigest 'a' isDigest_packetDigest, packetDigest 'a' isDigest_packetDigest⟩
  outcomeClasses := [⟨"saved_crash", crashes⟩]

def crashSnapshot (digest : Digest) (crashes : ℕ) : CounterSnapshot where
  campaignId := (crashPacket digest crashes).campaignId
  telemetryPacketDigest := digest
  targetHashes := (crashPacket digest crashes).targetHashes
  crashCount := crashes
  hangCount := 0

theorem snapshot_crashPacket (digest : Digest) (crashes : ℕ) :
    (crashPacket digest crashes).snapshot = .ok (crashSnapshot digest crashes) := rfl

/-- A status without a crossed threshold. -/
def quietStatus : Budget.BudgetStatus where
  month := "2026-07"
  hardLimit := 1
  charged := 0
  activeReserved := 0
  effectiveSpend := 0
  remaining := 1
  warningLevel := .ok
  crossedThresholds := []
  callCounts := []

def crashTime : Datetime := ⟨63902822400000000, newYear_lt⟩

def crashRun (digest : Digest) (crashes : ℕ) (kill : Option Kill) : ProjectorRun where
  input := {
    quarantine := []
    candidates := []
    status := quietStatus
    packet := crashPacket digest crashes
    decisionTtl := 1800000000
    clock := fun _ => crashTime
    nonces := fun _ _ => Vector.replicate 32 0 }
  kill := kill

theorem projectPrompts_nil {α : Type} {prompter : Datetime → Prompter sha256 α}
    {outbox : Outbox sha256} {current expiry : Datetime} {nonces : ℕ → Vector UInt8 32}
    {decisionTtl : ℤ} (httl : ttlAccepted decisionTtl = true)
    (hexpiry : current.add? decisionTtl.toNat = some expiry) :
    projectPrompts prompter [] outbox current nonces decisionTtl = (outbox, .ok []) := by
  rw [projectPrompts, httl, hexpiry]
  rfl

/-- With nothing else to project, a run puts the alerts of its packet. -/
theorem projectAll_crashRun (digest : Digest) (crashes : ℕ) (kill : Option Kill)
    (outbox : Outbox sha256) (previous : Option CounterSnapshot) :
    projectAll (crashRun digest crashes kill).input outbox previous
      = thenProject (projectCounterSnapshot previous (crashSnapshot digest crashes) outbox
        crashTime)
        fun outbox counters => (outbox, .ok (crashSnapshot digest crashes, ⟨0, 0, 0, counters⟩)) := by
  have hexpiry : ∃ expiry, crashTime.add? (1800000000 : ℤ).toNat = some expiry :=
    ⟨_, dif_pos (by decide)⟩
  obtain ⟨expiry, hexpiry⟩ := hexpiry
  have hempty : ∀ {α : Type} {prompter : Datetime → Prompter sha256 α}
      {nonces : ℕ → Vector UInt8 32},
      projectPrompts prompter [] outbox crashTime nonces 1800000000 = (outbox, .ok []) :=
    projectPrompts_nil (by decide) hexpiry
  rw [projectAll, crashRun]
  simp only [projectQuarantine, projectExecutionReady, hempty, thenProject]
  rfl

/-- The alert of a packet after a baseline. -/
def crashAlert (createdAt : Timestamp) (digest : Digest) (previous current : ℕ)
    (h : previous < current) : CounterIncreaseEvent where
  counter := .crash
  createdAt := createdAt
  campaignId := (crashPacket digest current).campaignId
  telemetryPacketDigest := digest
  targetHashes := (crashPacket digest current).targetHashes
  previousCount := previous
  currentCount := current
  increase := current - previous
  previousCount_lt := h
  increase_eq := rfl

def firstDigest : Digest := packetDigest '1' (by decide)

def secondDigest : Digest := packetDigest '2' (by decide)

def thirdDigest : Digest := packetDigest '3' (by decide)

/-- The first observation only sets the baseline. -/
theorem runProjector_first (sha256 : Sha256) :
    runProjector (⟨[], false, none, false⟩ : ProjectorState sha256) (crashRun firstDigest 0 none)
      = ⟨[], false, some (crashSnapshot firstDigest 0), false⟩ := by
  have hrun : ∀ state : ProjectorState sha256, runProjector state (crashRun firstDigest 0 none)
      = (project state (crashRun firstDigest 0 none).input).1 := fun _ => rfl
  rw [hrun, project, projectAll_crashRun]
  rfl

def secondAlert : CounterIncreaseEvent :=
  crashAlert (timestamp crashTime) secondDigest 0 2 (by decide)

def thirdAlert (createdAt : Datetime) : CounterIncreaseEvent :=
  crashAlert (timestamp createdAt) thirdDigest 0 3 (by decide)

def pendingState (sha256 : Sha256) : ProjectorState sha256 :=
  ⟨[.counterIncrease secondAlert], false,
    some (crashSnapshot firstDigest 0), false⟩

/-- The alert is put, and the baseline stays. -/
theorem runProjector_killed (sha256 : Sha256) :
    runProjector (⟨[], false, some (crashSnapshot firstDigest 0), false⟩ : ProjectorState sha256)
      (crashRun secondDigest 2 (some (.putting 1 false))) = pendingState sha256 := by
  have hkilled : ∀ state : ProjectorState sha256, runProjector state
      (crashRun secondDigest 2 (some (.putting 1 false)))
        = killed state (crashRun secondDigest 2 none).input (.putting 1 false) := fun _ => rfl
  rw [hkilled, killed, projectAll_crashRun]
  rfl

/-- A later run over the same packet only replaces the baseline. -/
theorem runProjector_resumed (sha256 : Sha256) :
    runProjector (pendingState sha256) (crashRun secondDigest 2 none)
      = { pendingState sha256 with baseline := some (crashSnapshot secondDigest 2) } := by
  have hrun : ∀ state : ProjectorState sha256, runProjector state (crashRun secondDigest 2 none)
      = (project state (crashRun secondDigest 2 none).input).1 := fun _ => rfl
  rw [hrun, project, projectAll_crashRun]
  rfl

theorem growing_crashRuns {digest digest' digest'' : Digest} {n n' n'' : ℕ} {kill : Option Kill}
    (hle : n ≤ n') (hle' : n' ≤ n'') :
    Growing (crashPacket digest n).campaignId (crashPacket digest n).targetHashes
      [crashRun digest n none, crashRun digest' n' kill, crashRun digest'' n'' none] := by
  have hcount : ∀ {digest digest' : Digest} {n n' : ℕ} {kill kill' : Option Kill}, n ≤ n' →
      ∀ previous, (crashRun digest n kill).input.packet.snapshot = .ok previous →
        ∀ current, (crashRun digest' n' kill').input.packet.snapshot = .ok current →
          ∀ counter, previous.count counter ≤ current.count counter := by
    intro digest digest' n n' kill kill' hle previous hprevious current hcurrent counter
    obtain rfl : crashSnapshot digest n = previous := Except.ok.inj hprevious
    obtain rfl : crashSnapshot digest' n' = current := Except.ok.inj hcurrent
    cases counter
    · exact hle
    · exact le_rfl
  constructor
  · intro run hrun
    simp only [List.mem_cons, List.not_mem_nil, or_false] at hrun
    rcases hrun with rfl | rfl | rfl <;> rfl
  · intro run hrun
    simp only [List.mem_cons, List.not_mem_nil, or_false] at hrun
    rcases hrun with rfl | rfl | rfl <;> rfl
  · simp only [List.pairwise_cons, List.mem_cons, List.not_mem_nil, or_false, forall_eq_or_imp,
      forall_eq, IsEmpty.forall_iff, implies_true, List.Pairwise.nil, and_true]
    exact ⟨⟨hcount hle, hcount (hle.trans hle')⟩, hcount hle'⟩

theorem fresh_empty (sha256 : Sha256) :
    (⟨[], false, none, false⟩ : ProjectorState sha256).Fresh := ⟨rfl, fun _ => rfl⟩

theorem resumes_of_nil {state : ProjectorState sha256} (h : state.outbox = [])
    (run : ProjectorRun) : Resumes state run := by
  intro current hcurrent counter event hevent
  rw [h] at hevent
  cases hevent

/-- The run over the packet of the pending alert replaces the baseline, and every crash has been
reported once. -/
theorem counts_alerted_once_resumed :
    alerted .crash (runProjectors (⟨[], false, none, false⟩ : ProjectorState fun _ =>
        Vector.replicate 32 0) [crashRun firstDigest 0 none,
          crashRun secondDigest 2 (some (.putting 1 false)), crashRun secondDigest 2 none]).outbox
      = growth .crash (some (crashSnapshot firstDigest 0)) (some (crashSnapshot secondDigest 2)) := by
  have hresumes : Resumes (pendingState fun _ => Vector.replicate 32 0)
      (crashRun secondDigest 2 none) := by
    intro current hcurrent counter event hevent _
    obtain rfl : crashSnapshot secondDigest 2 = current := Except.ok.inj hcurrent
    cases counter with
    | crash =>
      obtain rfl : event = secondAlert := List.mem_singleton.mp hevent
      exact ⟨rfl, rfl⟩
    | hang => cases hevent
  have halong : Along Resumes (⟨[], false, none, false⟩ : ProjectorState fun _ =>
      Vector.replicate 32 0) [crashRun firstDigest 0 none,
        crashRun secondDigest 2 (some (.putting 1 false)), crashRun secondDigest 2 none] := by
    refine ⟨resumes_of_nil rfl _, ?_⟩
    rw [runProjector_first]
    refine ⟨resumes_of_nil rfl _, ?_⟩
    rw [runProjector_killed]
    exact ⟨hresumes, trivial⟩
  have honce := counts_alerted_once (fresh_empty _) (growing_crashRuns (by decide) le_rfl) halong
    .crash
  have hfirst : firstBaseline (⟨[], false, none, false⟩ : ProjectorState fun _ =>
      Vector.replicate 32 0) [crashRun firstDigest 0 none,
        crashRun secondDigest 2 (some (.putting 1 false)), crashRun secondDigest 2 none]
      = some (crashSnapshot firstDigest 0) := by
    rw [firstBaseline, firstBaseline, runProjector_first]
    rfl
  have hfinal : runProjectors (⟨[], false, none, false⟩ : ProjectorState fun _ =>
      Vector.replicate 32 0) [crashRun firstDigest 0 none,
        crashRun secondDigest 2 (some (.putting 1 false)), crashRun secondDigest 2 none]
      = { pendingState _ with baseline := some (crashSnapshot secondDigest 2) } := by
    rw [runProjectors, List.foldl_cons, List.foldl_cons, List.foldl_cons, List.foldl_nil,
      runProjector_first, runProjector_killed, runProjector_resumed]
  rw [hfirst, hfinal] at honce
  rw [hfinal]
  refine honce.2.1.mpr fun event hevent => ⟨_, rfl, ?_⟩
  obtain rfl : event = secondAlert := List.mem_singleton.mp hevent
  exact le_rfl

/-- A hash that tells the alert of the killed run from every other event. -/
def alertSha256 : Sha256 := fun payload =>
  if payload = canonicalJson secondAlert.toJson then
    Vector.replicate 32 0
  else Vector.replicate 32 1

theorem putEvent_third (createdAt : Datetime) :
    putEvent ([.counterIncrease secondAlert] : Outbox alertSha256) (.counterIncrease (thirdAlert createdAt))
      = .ok [.counterIncrease secondAlert, .counterIncrease (thirdAlert createdAt)] := by
  have hne : canonicalJson (thirdAlert createdAt).toJson ≠ canonicalJson secondAlert.toJson := by
    intro heq
    have heq' : canonicalJson (.counterIncrease (thirdAlert createdAt) : RedactedEvent alertSha256).toJson
        = canonicalJson secondAlert.toJson := heq
    obtain ⟨alert, halert, -, -, hdigest⟩ := counterIncrease_of_canonicalJson_eq heq'
    cases halert
    have hdigests : thirdDigest ≠ secondDigest := by decide
    exact hdigests hdigest
  have hsecond : alertSha256 (canonicalJson secondAlert.toJson) = Vector.replicate 32 0 :=
    if_pos rfl
  have hthird : alertSha256 (canonicalJson (thirdAlert createdAt).toJson) = Vector.replicate 32 1 := if_neg hne
  have hdigest : (.counterIncrease secondAlert : RedactedEvent alertSha256).digest
      ≠ (.counterIncrease (thirdAlert createdAt) : RedactedEvent alertSha256).digest := by
    intro heq
    have htexts : "sha256:" ++ hexText (Vector.replicate 32 (0 : UInt8)).toList
        ≠ "sha256:" ++ hexText (Vector.replicate 32 (1 : UInt8)).toList := by decide
    simp only [RedactedEvent.digest, RedactedEvent.toJson, jsonDigest, contentDigest, hsecond,
      hthird, Subtype.mk.injEq] at heq
    exact htexts heq
  rw [putEvent, List.find?_cons_of_neg (by simpa using hdigest), List.find?_nil]
  rfl

theorem projectKeyed_singleton {α : Type} {isProjected : Outbox sha256 → α → Bool}
    {event? : α → Option (RedactedEvent sha256)} {item : α} {event : RedactedEvent sha256}
    {outbox outbox' : Outbox sha256} (hprojected : isProjected outbox item = false)
    (hevent : event? item = some event) (hput : putEvent outbox event = .ok outbox') :
    projectKeyed isProjected event? [item] outbox = (outbox', .ok [event]) := by
  rw [projectKeyed, hprojected, hevent]
  simp only [hput]
  rfl

theorem projectCounterSnapshot_third (createdAt : Datetime) :
    projectCounterSnapshot (some (crashSnapshot firstDigest 0)) (crashSnapshot thirdDigest 3)
        ([.counterIncrease secondAlert] : Outbox alertSha256) createdAt
      = ([.counterIncrease secondAlert, .counterIncrease (thirdAlert createdAt)],
        .ok [.counterIncrease (thirdAlert createdAt)]) := by
  have hgrows : Grows (crashSnapshot firstDigest 0) (crashSnapshot thirdDigest 3) :=
    ⟨rfl, rfl, fun counter => by cases counter <;> decide⟩
  have hitems : [Counter.crash, Counter.hang].filter (fun counter =>
      (crashSnapshot firstDigest 0).count counter < (crashSnapshot thirdDigest 3).count counter)
        = [Counter.crash] := by decide
  have hnew : isCounterProjected (crashSnapshot thirdDigest 3)
      ([.counterIncrease secondAlert] : Outbox alertSha256) .crash = false := by decide
  have hevent : counterEvent? (crashSnapshot firstDigest 0) (crashSnapshot thirdDigest 3)
      createdAt .crash = some (thirdAlert createdAt) := by
    have hlt : (crashSnapshot firstDigest 0).count .crash
        < (crashSnapshot thirdDigest 3).count .crash := by decide
    rw [counterEvent?, dif_pos hlt]
    rfl
  rw [projectCounterSnapshot_of_grows hgrows, hitems]
  exact projectKeyed_singleton hnew (by rw [hevent, Option.map_some]) (putEvent_third createdAt)

/-- A run over a later packet reports the crashes of the killed run again. -/
theorem runProjector_third :
    runProjector (pendingState alertSha256) (crashRun thirdDigest 3 none)
      = ⟨[.counterIncrease secondAlert, .counterIncrease (thirdAlert crashTime)], false,
        some (crashSnapshot thirdDigest 3), false⟩ := by
  have hrun : ∀ state : ProjectorState alertSha256, runProjector state
      (crashRun thirdDigest 3 none)
        = (project state (crashRun thirdDigest 3 none).input).1 := fun _ => rfl
  rw [hrun, project, projectAll_crashRun]
  simp only [pendingState, projectCounterSnapshot_third]
  rfl

theorem crash_alerted_twice :
    Growing (crashPacket firstDigest 0).campaignId (crashPacket firstDigest 0).targetHashes
      [crashRun firstDigest 0 none, crashRun secondDigest 2 (some (.putting 1 false)),
        crashRun thirdDigest 3 none]
    ∧ ¬ DisjointAlerts .crash (runProjectors (⟨[], false, none, false⟩ : ProjectorState alertSha256)
      [crashRun firstDigest 0 none, crashRun secondDigest 2 (some (.putting 1 false)),
        crashRun thirdDigest 3 none]).outbox := by
  have hintervals : intervals .crash ([.counterIncrease secondAlert,
      .counterIncrease (thirdAlert crashTime)] : Outbox alertSha256) = [(0, 2), (0, 3)] := by
    simp [intervals, alerts, secondAlert, thirdAlert, crashAlert]
  have hmem : 1 ∈ Set.Ioc 0 2 ∧ 1 ∈ Set.Ioc 0 3 := by simp
  refine ⟨growing_crashRuns (by decide) (by decide), ?_⟩
  rw [runProjectors, List.foldl_cons, List.foldl_cons, List.foldl_cons, List.foldl_nil,
    runProjector_first, runProjector_killed, runProjector_third, DisjointAlerts, hintervals]
  intro hdisjoint
  have hpair := (List.pairwise_cons.mp hdisjoint).1 (0, 3) (List.mem_singleton.mpr rfl)
  exact Set.disjoint_left.mp hpair hmem.1 hmem.2

end IouAi.Wire
