import IouAi.Storage.CreateOnly

/-!
# Lock files

`TriggerStateStore.lease` and `Promoter._lock`: a process that creates the lock file exclusively
enters the section, and removes the file when it leaves. A process that finds a lock file which has
not changed for longer than a threshold takes its holder for dead, removes the file and tries once
more.

Between the look at the old file and its removal another process may have done the same and be in
the section. Where each such removal hits the file that was looked at, and each holder leaves within
the threshold, no two processes are in the section (`Lock.inSection_exclusive`).
-/

namespace IouAi.Storage

open Files Threads

variable {κ α : Type}

/-! ## Programs -/

inductive LockError
  | held
  | unable
  | interrupted
  deriving DecidableEq

/-- The lock file was last changed too long ago; a file that is gone is not stale. -/
def isStale (staleAfter now : ℕ) : Option (ℕ × ℕ) → Bool
  | none => false
  | some (_, modified) => staleAfter < now - modified

/-- The loop over the attempts to create the lock file. What raises while the process writes its
number leaves the file behind. -/
def attempts (lockPath : κ) (staleAfter : ℕ) (pid : List UInt8) :
    List ℕ → FileProgram κ (Except LockError Unit)
  | [] => return .error .unable
  | attempt :: rest => do
    let created ← FileProgram.create lockPath
    if created then
      let written ← writeAll lockPath pid
      return if written then .ok () else .error .interrupted
    else
      let now ← FileProgram.now
      let stat? ← FileProgram.stat lockPath
      if attempt = 0 ∧ isStale staleAfter now stat? then
        let _ ← FileProgram.unlink lockPath
        attempts lockPath staleAfter pid rest
      else return .error .held

/-- Run the section under the lock. -/
def withLock (lockPath : κ) (staleAfter : ℕ) (pid : List UInt8) (body : FileProgram κ α) :
    FileProgram κ (Except LockError α) := do
  match ← attempts lockPath staleAfter pid [0, 1] with
  | .error error => return .error error
  | .ok () =>
    let value ← body
    let _ ← FileProgram.unlink lockPath
    return .ok value

/-! ## Where a process stands -/

/-- Where a process stands with a lock, as its trace shows: it has read the clock, it has found the
lock file stale, it has created the lock file and writes its number, or it is in the section. -/
inductive Phase
  | outside
  | timed (now : ℕ)
  | stale (now node modified : ℕ)
  | entering (node since : ℕ)
  | inside (node since : ℕ)
  deriving DecidableEq

/-- The lock file of a process and the time of its creation. -/
def Phase.holder : Phase → Option (ℕ × ℕ)
  | entering node since => some (node, since)
  | inside node since => some (node, since)
  | _ => none

section Phases

variable [DecidableEq κ] (lockPath : κ) (staleAfter : ℕ)

/-- What an operation changes. -/
def Phase.next (phase : Phase) (before : Disk κ) : (op : FileOp κ) → op.Result → Phase
  | .now, _ =>
    match phase with
    | outside => timed before.clock
    | phase => phase
  | .stat name, some (node, modified) =>
    match phase with
    | timed now =>
      if name = lockPath ∧ staleAfter < now - modified then stale now node modified else timed now
    | phase => phase
  | .create name, true => if name = lockPath then entering before.nextNode before.clock else phase
  | .append name _, false => if name = lockPath then outside else phase
  | .close name, false => if name = lockPath then outside else phase
  | .close name, true =>
    match phase with
    | entering node since => if name = lockPath then inside node since else entering node since
    | phase => phase
  | .unlink name, _ => if name = lockPath then outside else phase
  | _, _ => phase

/-- Where the process with a trace stands. -/
def phaseOf (trace : List (FileEntry κ)) : Phase :=
  trace.foldl (fun phase entry => phase.next lockPath staleAfter entry.before entry.op entry.outcome)
    .outside

@[simp] theorem phaseOf_nil : phaseOf lockPath staleAfter [] = .outside := rfl

@[simp] theorem phaseOf_concat (trace : List (FileEntry κ)) (entry : FileEntry κ) :
    phaseOf lockPath staleAfter (trace ++ [entry])
      = (phaseOf lockPath staleAfter trace).next lockPath staleAfter entry.before entry.op
          entry.outcome := by
  simp [phaseOf]

/-- The operation leaves the lock file alone. -/
def Spares : FileOp κ → Prop
  | .create name => name ≠ lockPath
  | .append name _ => name ≠ lockPath
  | .close name => name ≠ lockPath
  | .link name target => name ≠ lockPath ∧ target ≠ lockPath
  | .unlink name => name ≠ lockPath
  | _ => True

/-- What a process does with the lock file: it creates one when it has none, it writes to it before
it enters, and it removes it when it has found it stale or leaves. -/
def Locks (trace : List (FileEntry κ)) (op : FileOp κ) : Prop :=
  Spares lockPath op ∨
    (op = .create lockPath ∧ (phaseOf lockPath staleAfter trace).holder = none) ∨
    ((∃ byte, op = .append lockPath byte) ∧
      ∃ node since, phaseOf lockPath staleAfter trace = .entering node since) ∨
    (op = .close lockPath ∧ ∃ node since, phaseOf lockPath staleAfter trace = .entering node since) ∨
    (op = .unlink lockPath ∧
      ((∃ now node modified, phaseOf lockPath staleAfter trace = .stale now node modified) ∨
        ∃ node since, phaseOf lockPath staleAfter trace = .inside node since))

def lockers : Discipline (semantics (κ := κ)) where
  Inv _ := True
  le _ _ := True
  guard trace _ op := Locks lockPath staleAfter trace op
  le_refl _ := trivial
  le_trans _ _ := trivial
  exec_inv _ _ _ := trivial
  exec_le _ _ _ := trivial
  env_inv _ _ := trivial
  env_le _ _ := trivial

end Phases

/-! ## The programs lock -/

section Safety

variable [DecidableEq κ] {lockPath : κ} {staleAfter : ℕ} {trace : List (FileEntry κ)} {disk : Disk κ}

/-- In the section only the lock file matters. -/
theorem Phase.next_inside {node since : ℕ} {before : Disk κ} {op : FileOp κ} {outcome : op.Result}
    (h : Spares lockPath op) :
    (inside node since).next lockPath staleAfter before op outcome = .inside node since := by
  cases op with
  | now => rfl
  | create name => cases outcome <;> simp [next, if_neg (show name ≠ lockPath from h)]
  | append name byte => cases outcome <;> simp [next, if_neg (show name ≠ lockPath from h)]
  | close name => cases outcome <;> simp [next, if_neg (show name ≠ lockPath from h)]
  | link name target => rfl
  | unlink name => simp [next, if_neg (show name ≠ lockPath from h)]
  | list => rfl
  | read name => rfl
  | stat name =>
    cases outcome with
    | none => rfl
    | some found => rfl

theorem phaseOf_section {rest : List (FileEntry κ)} {node since : ℕ}
    (hphase : phaseOf lockPath staleAfter trace = .inside node since)
    (h : ∀ entry ∈ rest, Spares lockPath entry.op) :
    phaseOf lockPath staleAfter (trace ++ rest) = .inside node since := by
  induction rest using List.reverseRecOn with
  | nil => rwa [List.append_nil]
  | append_singleton rest entry ih =>
    rw [← List.append_assoc, phaseOf_concat,
      ih fun other hother => h other (List.mem_append_left _ hother)]
    exact Phase.next_inside (h entry (by simp))

/-- A process that writes its number to the end is in the section. -/
theorem safe_writeLock (node since : ℕ) {post : Bool → List (FileEntry κ) → Prop}
    {pid : List UInt8}
    (hphase : phaseOf lockPath staleAfter trace = .entering node since)
    (hpost : ∀ written trace', (written = true →
      phaseOf lockPath staleAfter trace' = .inside node since) → post written trace') :
    Safe (lockers lockPath staleAfter) post (writeAll lockPath pid) trace disk := by
  induction pid generalizing trace disk with
  | nil =>
    refine Safe.call (fun _ _ _ => .inr (.inr (.inr (.inl ⟨rfl, node, since, hphase⟩)))) ?_
    intro before outcome after _ _ _
    refine hpost _ _ fun htrue => ?_
    cases htrue
    rw [phaseOf_concat, hphase]
    simp [Phase.next]
  | cons byte pid ih =>
    refine Safe.call (fun _ _ _ => .inr (.inr (.inl ⟨⟨byte, rfl⟩, node, since, hphase⟩))) ?_
    intro before outcome after _ _ _
    cases outcome with
    | false => exact hpost _ _ fun h => absurd h Bool.false_ne_true
    | true =>
      refine ih ?_
      rw [phaseOf_concat, hphase]
      rfl

/-- A process that gets the lock is in the section. -/
theorem safe_attempts {post : Except LockError Unit → List (FileEntry κ) → Prop} {pid : List UInt8}
    {rest : List ℕ} (hphase : phaseOf lockPath staleAfter trace = .outside)
    (hpost : ∀ result trace', (result = .ok () →
      ∃ node since, phaseOf lockPath staleAfter trace' = .inside node since) → post result trace') :
    Safe (lockers lockPath staleAfter) post (attempts lockPath staleAfter pid rest) trace disk := by
  have hfailed : ∀ error trace', post (.error error) trace' :=
    fun error trace' => hpost _ _ fun h => by cases h
  induction rest generalizing trace disk with
  | nil => exact hfailed _ _
  | cons attempt rest ih =>
    refine Safe.call (fun _ _ _ => .inr (.inl ⟨rfl, by rw [hphase]; rfl⟩)) ?_
    intro before created after _ _ _
    cases created with
    | true =>
      change Safe _ post (writeAll lockPath pid >>= fun written =>
        .done (if written then .ok () else .error .interrupted)) _ _
      refine Safe.bind (Q := fun (written : Bool) (trace' : List (FileEntry κ)) =>
        written = true → ∃ node since, phaseOf lockPath staleAfter trace' = .inside node since) ?_ ?_
      · refine safe_writeLock before.nextNode before.clock ?_ ?_
        · rw [phaseOf_concat, hphase]
          simp [Phase.next]
        · exact fun written trace' h htrue => ⟨_, _, h htrue⟩
      · intro written trace' disk' h
        cases written with
        | true => exact hpost _ _ fun _ => h rfl
        | false => exact hfailed _ _
    | false =>
      have hphase₁ : phaseOf lockPath staleAfter
          (trace ++ [(⟨before, .create lockPath, false⟩ : FileEntry κ)]) = .outside := by
        rw [phaseOf_concat, hphase]
        rfl
      refine Safe.call (fun _ _ _ => .inl trivial) fun before₂ (now : ℕ) after₂ _ _ hexec₂ => ?_
      have hphase₂ : phaseOf lockPath staleAfter
          (trace ++ [(⟨before, .create lockPath, false⟩ : FileEntry κ)] ++ [⟨before₂, .now, now⟩])
            = .timed now := by
        rw [phaseOf_concat, hphase₁]
        cases hexec₂
        rfl
      refine Safe.call (fun _ _ _ => .inl trivial) fun before₃ stat? after₃ _ _ _ => ?_
      change Safe _ post (if attempt = 0 ∧ isStale staleAfter now stat? = true then
        FileProgram.unlink lockPath >>= fun _ => attempts lockPath staleAfter pid rest
        else .done (.error .held)) _ _
      split
      · rename_i hstale
        cases stat? with
        | none => simp [isStale] at hstale
        | some found =>
          obtain ⟨node, modified⟩ := found
          have hold : staleAfter < now - modified := by simpa [isStale] using hstale.2
          refine Safe.call (fun _ _ _ => .inr (.inr (.inr (.inr ⟨rfl, .inl ⟨now, node, modified, ?_⟩⟩))))
            fun before₄ _ after₄ _ _ _ => ih ?_
          · rw [phaseOf_concat, hphase₂]
            simp [Phase.next, hold]
          · rw [phaseOf_concat]
            simp [Phase.next]
      · exact hfailed _ _

theorem safe_withLock {pid : List UInt8} {body : FileProgram κ α}
    (hbody : body.Only (Spares lockPath)) (disk : Disk κ) :
    Safe (lockers lockPath staleAfter) (fun _ _ => True)
      (withLock lockPath staleAfter pid body) [] disk := by
  refine Safe.bind (Q := fun result trace' => result = .ok () →
    ∃ node since, phaseOf lockPath staleAfter trace' = .inside node since) ?_ ?_
  · exact safe_attempts rfl fun result trace' h => h
  · intro result trace' disk' h
    rcases result with error | ⟨⟩
    · exact trivial
    · obtain ⟨node, since, hphase⟩ := h rfl
      refine Safe.bind (Q := fun _ trace'' =>
        phaseOf lockPath staleAfter trace'' = .inside node since) ?_ ?_
      · exact Safe.of_only_append (fun _ _ _ h => .inl h)
          (fun _ rest hrest => phaseOf_section hphase hrest) hbody
      · intro value trace'' disk'' hinside
        exact Safe.call (fun _ _ _ => .inr (.inr (.inr (.inr ⟨rfl, .inr ⟨node, since, hinside⟩⟩))))
          fun _ _ _ _ _ _ => trivial

end Safety

/-! ## What holds of a lock -/

section Kept

variable [DecidableEq κ] (lockPath : κ) (staleAfter : ℕ)

/-- The lock file that the process with a trace holds, and since when. -/
def holderOf (trace : List (FileEntry κ)) : Option (ℕ × ℕ) :=
  (phaseOf lockPath staleAfter trace).holder

/-- Two processes hold different lock files. -/
def Distinct (trace other : List (FileEntry κ)) : Prop :=
  ∀ node since node' since', holderOf lockPath staleAfter trace = some (node, since) →
    holderOf lockPath staleAfter other = some (node', since') → node ≠ node'

/-- The lock files are numbered, their holders change them after they have created them, and who has
found one stale has found so after the time of its holder. The file of a holder whose time has not
passed is in its place. -/
structure LockKept (disk : Disk κ) (traces : List (List (FileEntry κ))) : Prop where
  file_known : ∀ file, disk.files lockPath = some file → file.node < disk.nextNode
  timed : ∀ trace ∈ traces, ∀ now, phaseOf lockPath staleAfter trace = .timed now → now ≤ disk.clock
  known : ∀ trace ∈ traces, ∀ node since, holderOf lockPath staleAfter trace = some (node, since) →
    node < disk.nextNode ∧ since ≤ disk.clock
  unmodified : ∀ trace ∈ traces, ∀ since file,
    holderOf lockPath staleAfter trace = some (file.node, since) →
      disk.files lockPath = some file → since ≤ file.modified
  evidence : ∀ trace ∈ traces, ∀ now node modified,
    phaseOf lockPath staleAfter trace = .stale now node modified →
      now ≤ disk.clock ∧ node < disk.nextNode ∧ staleAfter < now - modified
  evidence_le : ∀ trace ∈ traces, ∀ now node modified,
    phaseOf lockPath staleAfter trace = .stale now node modified → ∀ other ∈ traces, ∀ since,
      holderOf lockPath staleAfter other = some (node, since) → since ≤ modified
  distinct : traces.Pairwise (Distinct lockPath staleAfter)
  present : ∀ trace ∈ traces, ∀ node since, holderOf lockPath staleAfter trace = some (node, since) →
    disk.clock ≤ since + staleAfter → ∃ file, disk.files lockPath = some file ∧ file.node = node

variable {lockPath staleAfter}

theorem mem_replace {β : Type} {before after : List β} {x y z : β} (h : z ∈ before ++ y :: after) :
    z = y ∨ z ∈ before ++ x :: after := by
  rcases List.mem_append.mp h with h | h
  · exact .inr (List.mem_append_left _ h)
  · rcases List.mem_cons.mp h with rfl | h
    · exact .inl rfl
    · exact .inr (List.mem_append_right _ (List.mem_cons_of_mem _ h))

theorem pairwise_replace {β : Type} {R : β → β → Prop} {before after : List β} {x y : β}
    (h : (before ++ x :: after).Pairwise R) (hleft : ∀ z ∈ before, R z x → R z y)
    (hright : ∀ z ∈ after, R x z → R y z) : (before ++ y :: after).Pairwise R := by
  rw [List.pairwise_append, List.pairwise_cons] at h ⊢
  obtain ⟨hbefore, ⟨hhead, hafter⟩, hcross⟩ := h
  refine ⟨hbefore, ⟨fun z hz => hright z hz (hhead z hz), hafter⟩, fun w hw z hz => ?_⟩
  rcases List.mem_cons.mp hz with rfl | hz
  · exact hleft w hw (hcross w hw x List.mem_cons_self)
  · exact hcross w hw z (List.mem_cons_of_mem _ hz)

namespace LockKept

theorem empty : LockKept lockPath staleAfter Disk.empty [] := by
  refine ⟨?_, ?_, ?_, ?_, ?_, ?_, List.Pairwise.nil, ?_⟩
  · intro file h
    cases h
  all_goals simp

theorem start {disk : Disk κ} {traces : List (List (FileEntry κ))}
    (h : LockKept lockPath staleAfter disk traces) :
    LockKept lockPath staleAfter disk (traces ++ [[]]) := by
  have hmem : ∀ trace, trace ∈ traces ++ [[]] → trace = [] ∨ trace ∈ traces := by
    intro trace htrace
    simpa [or_comm] using htrace
  have hnone : ∀ node since, holderOf (κ := κ) lockPath staleAfter [] ≠ some (node, since) := by
    intro node since heq
    cases heq
  constructor
  case file_known => exact h.file_known
  case timed =>
    intro trace htrace now hphase
    rcases hmem trace htrace with rfl | htrace
    · cases hphase
    · exact h.timed trace htrace now hphase
  case known =>
    intro trace htrace node since hholder
    rcases hmem trace htrace with rfl | htrace
    · exact absurd hholder (hnone _ _)
    · exact h.known trace htrace node since hholder
  case unmodified =>
    intro trace htrace since file hholder
    rcases hmem trace htrace with rfl | htrace
    · exact absurd hholder (hnone _ _)
    · exact h.unmodified trace htrace since file hholder
  case evidence =>
    intro trace htrace now node modified hphase
    rcases hmem trace htrace with rfl | htrace
    · cases hphase
    · exact h.evidence trace htrace now node modified hphase
  case evidence_le =>
    intro trace htrace now node modified hphase other hother since hholder
    rcases hmem trace htrace with rfl | htrace
    · cases hphase
    · rcases hmem other hother with rfl | hother
      · exact absurd hholder (hnone _ _)
      · exact h.evidence_le trace htrace now node modified hphase other hother since hholder
  case distinct =>
    refine List.pairwise_append.mpr ⟨h.distinct, List.pairwise_singleton _ _, ?_⟩
    intro trace _ other hother node since node' since' _ hholder
    rw [List.mem_singleton.mp hother] at hholder
    exact absurd hholder (hnone _ _)
  case present =>
    intro trace htrace node since hholder
    rcases hmem trace htrace with rfl | htrace
    · exact absurd hholder (hnone _ _)
    · exact h.present trace htrace node since hholder

theorem tick {disk disk' : Disk κ} {traces : List (List (FileEntry κ))}
    (h : LockKept lockPath staleAfter disk traces) (htick : Tick disk disk') :
    LockKept lockPath staleAfter disk' traces := by
  cases htick with
  | @tick clock hclock =>
    refine ⟨h.file_known, ?_, ?_, h.unmodified, ?_, h.evidence_le, h.distinct, ?_⟩
    · exact fun trace htrace now hphase => (h.timed trace htrace now hphase).trans hclock
    · intro trace htrace node since hholder
      obtain ⟨hnode, hsince⟩ := h.known trace htrace node since hholder
      exact ⟨hnode, hsince.trans hclock⟩
    · intro trace htrace now node modified hphase
      obtain ⟨hnow, hnode, hstale⟩ := h.evidence trace htrace now node modified hphase
      exact ⟨hnow.trans hclock, hnode, hstale⟩
    · exact fun trace htrace node since hholder hle =>
        h.present trace htrace node since hholder (hclock.trans hle)

section Exec

variable {disk disk' : Disk κ} {before after : List (List (FileEntry κ))}
  {trace trace' : List (FileEntry κ)}

/-- An operation that leaves the lock file in its place and gives nobody the lock. -/
structure Quiet (lockPath : κ) (staleAfter : ℕ) (disk disk' : Disk κ)
    (trace trace' : List (FileEntry κ)) : Prop where
  clock : disk'.clock = disk.clock
  nextNode : disk.nextNode ≤ disk'.nextNode
  file : ∀ file', disk'.files lockPath = some file' → ∃ file, disk.files lockPath = some file ∧
    file'.node = file.node ∧ (file'.modified = file.modified ∨ file'.modified = disk.clock)
  file' : ∀ file, disk.files lockPath = some file →
    ∃ file', disk'.files lockPath = some file' ∧ file'.node = file.node
  holder : holderOf lockPath staleAfter trace' = holderOf lockPath staleAfter trace ∨
    holderOf lockPath staleAfter trace' = none
  timed : ∀ now, phaseOf lockPath staleAfter trace' = .timed now →
    phaseOf lockPath staleAfter trace = .timed now ∨ now = disk.clock
  stale : ∀ now node modified, phaseOf lockPath staleAfter trace' = .stale now node modified →
    phaseOf lockPath staleAfter trace = .stale now node modified ∨
      (phaseOf lockPath staleAfter trace = .timed now ∧ staleAfter < now - modified ∧
        ∃ file, disk.files lockPath = some file ∧ file.node = node ∧ file.modified = modified)

theorem quiet (h : LockKept lockPath staleAfter disk (before ++ trace :: after))
    (hquiet : Quiet lockPath staleAfter disk disk' trace trace') :
    LockKept lockPath staleAfter disk' (before ++ trace' :: after) := by
  have hmine : trace ∈ before ++ trace :: after := by simp
  -- Whoever holds the lock afterwards has held it before.
  have hholder : ∀ other ∈ before ++ trace' :: after, ∀ node since,
      holderOf lockPath staleAfter other = some (node, since) →
        ∃ old ∈ before ++ trace :: after, holderOf lockPath staleAfter old = some (node, since) := by
    intro other hother node since hsome
    rcases mem_replace (x := trace) hother with rfl | hother
    · rcases hquiet.holder with heq | heq
      · exact ⟨trace, hmine, heq ▸ hsome⟩
      · rw [heq] at hsome
        cases hsome
    · exact ⟨other, hother, hsome⟩
  constructor
  case file_known =>
    intro file' hfile'
    obtain ⟨file, hfile, hnode, -⟩ := hquiet.file file' hfile'
    rw [hnode]
    exact (h.file_known file hfile).trans_le hquiet.nextNode
  case timed =>
    intro other hother now hphase
    rw [hquiet.clock]
    rcases mem_replace (x := trace) hother with rfl | hother
    · rcases hquiet.timed now hphase with hold | rfl
      · exact h.timed trace hmine now hold
      · exact le_rfl
    · exact h.timed other hother now hphase
  case known =>
    intro other hother node since hsome
    obtain ⟨old, hold, hsome⟩ := hholder other hother node since hsome
    obtain ⟨hnode, hsince⟩ := h.known old hold node since hsome
    exact ⟨hnode.trans_le hquiet.nextNode, hquiet.clock ▸ hsince⟩
  case unmodified =>
    intro other hother since file' hsome hfile'
    obtain ⟨old, hold, hsome⟩ := hholder other hother _ since hsome
    obtain ⟨file, hfile, hnode, hmodified⟩ := hquiet.file file' hfile'
    rw [hnode] at hsome
    rcases hmodified with hmodified | hmodified
    · rw [hmodified]
      exact h.unmodified old hold since file hsome hfile
    · rw [hmodified]
      exact (h.known old hold _ since hsome).2
  case evidence =>
    intro other hother now node modified hphase
    rw [hquiet.clock]
    rcases mem_replace (x := trace) hother with rfl | hother
    · rcases hquiet.stale now node modified hphase with hold | ⟨htimed, hstale, file, hfile, rfl, rfl⟩
      · obtain ⟨hnow, hnode, hstale⟩ := h.evidence trace hmine now node modified hold
        exact ⟨hnow, hnode.trans_le hquiet.nextNode, hstale⟩
      · exact ⟨h.timed trace hmine now htimed,
          (h.file_known file hfile).trans_le hquiet.nextNode, hstale⟩
    · obtain ⟨hnow, hnode, hstale⟩ := h.evidence other hother now node modified hphase
      exact ⟨hnow, hnode.trans_le hquiet.nextNode, hstale⟩
  case evidence_le =>
    intro other hother now node modified hphase third hthird since hsome
    obtain ⟨old, hold, hsome⟩ := hholder third hthird node since hsome
    rcases mem_replace (x := trace) hother with rfl | hother
    · rcases hquiet.stale now node modified hphase with hbefore | ⟨-, -, file, hfile, rfl, rfl⟩
      · exact h.evidence_le trace hmine now node modified hbefore old hold since hsome
      · exact h.unmodified old hold since file hsome hfile
    · exact h.evidence_le other hother now node modified hphase old hold since hsome
  case distinct =>
    refine pairwise_replace h.distinct ?_ ?_
    · intro other _ hdistinct node since node' since' hother htrace'
      rcases hquiet.holder with heq | heq
      · exact hdistinct node since node' since' hother (heq ▸ htrace')
      · rw [heq] at htrace'
        cases htrace'
    · intro other _ hdistinct node since node' since' htrace' hother
      rcases hquiet.holder with heq | heq
      · exact hdistinct node since node' since' (heq ▸ htrace') hother
      · rw [heq] at htrace'
        cases htrace'
  case present =>
    intro other hother node since hsome hle
    obtain ⟨old, hold, hsome⟩ := hholder other hother node since hsome
    obtain ⟨file, hfile, rfl⟩ := h.present old hold node since hsome (hquiet.clock ▸ hle)
    exact hquiet.file' file hfile

/-- Somebody gets the lock. -/
theorem created (h : LockKept lockPath staleAfter disk (before ++ trace :: after))
    (hfree : disk.files lockPath = none)
    (hphase : phaseOf lockPath staleAfter trace' = .entering disk.nextNode disk.clock) :
    LockKept lockPath staleAfter (disk.create lockPath) (before ++ trace' :: after) := by
  have hmine : holderOf lockPath staleAfter trace' = some (disk.nextNode, disk.clock) := by
    rw [holderOf, hphase]
    rfl
  have hfile : ∀ file, (disk.create lockPath).files lockPath = some file →
      file = ⟨disk.nextNode, disk.clock, [], false⟩ := by
    intro file hfile
    rw [Disk.files_create, Function.update_self] at hfile
    exact (Option.some.inj hfile).symm
  have hnone : ∀ other ∈ before ++ trace :: after, ∀ node since,
      holderOf lockPath staleAfter other = some (node, since) →
        ¬ disk.clock ≤ since + staleAfter := by
    intro other hother node since hsome hle
    obtain ⟨file, hfile, -⟩ := h.present other hother node since hsome hle
    rw [hfree] at hfile
    cases hfile
  constructor
  case file_known =>
    intro file hfile'
    rw [hfile file hfile']
    exact Nat.lt_succ_self _
  case timed =>
    intro other hother now htimed
    rcases mem_replace (x := trace) hother with rfl | hother
    · rw [hphase] at htimed
      cases htimed
    · exact h.timed other hother now htimed
  case known =>
    intro other hother node since hsome
    rcases mem_replace (x := trace) hother with rfl | hother
    · rw [hmine] at hsome
      cases hsome
      exact ⟨Nat.lt_succ_self _, le_rfl⟩
    · obtain ⟨hnode, hsince⟩ := h.known other hother node since hsome
      exact ⟨Nat.lt_succ_of_lt hnode, hsince⟩
  case unmodified =>
    intro other hother since file hsome hfile'
    obtain rfl := hfile file hfile'
    rcases mem_replace (x := trace) hother with rfl | hother
    · rw [hmine] at hsome
      cases hsome
      exact le_rfl
    · exact absurd (h.known other hother _ since hsome).1 (Nat.lt_irrefl _)
  case evidence =>
    intro other hother now node modified hstale
    rcases mem_replace (x := trace) hother with rfl | hother
    · rw [hphase] at hstale
      cases hstale
    · obtain ⟨hnow, hnode, hold⟩ := h.evidence other hother now node modified hstale
      exact ⟨hnow, Nat.lt_succ_of_lt hnode, hold⟩
  case evidence_le =>
    intro other hother now node modified hstale third hthird since hsome
    rcases mem_replace (x := trace) hother with rfl | hold
    · rw [hphase] at hstale
      cases hstale
    · rcases mem_replace (x := trace) hthird with rfl | hthird
      · rw [hmine] at hsome
        cases hsome
        exact absurd (h.evidence other hold now _ modified hstale).2.1 (Nat.lt_irrefl _)
      · exact h.evidence_le other hold now node modified hstale third hthird since hsome
  case distinct =>
    refine pairwise_replace h.distinct ?_ ?_
    · intro other hother _ node since node' since' hsome hsome'
      rw [hmine] at hsome'
      cases hsome'
      exact Nat.ne_of_lt (h.known other (List.mem_append_left _ hother) node since hsome).1
    · intro other hother _ node since node' since' hsome hsome'
      rw [hmine] at hsome
      cases hsome
      have hmem : other ∈ before ++ trace :: after := by simp [hother]
      exact Nat.ne_of_gt (h.known other hmem node' since' hsome').1
  case present =>
    intro other hother node since hsome hle
    rcases mem_replace (x := trace) hother with rfl | hother
    · rw [hmine] at hsome
      cases hsome
      exact ⟨_, Function.update_self _ _ _, rfl⟩
    · exact absurd hle (hnone other hother node since hsome)

/-- The lock file is removed while nobody else whose time has not passed holds the lock. -/
theorem removed (h : LockKept lockPath staleAfter disk (before ++ trace :: after))
    (hphase : phaseOf lockPath staleAfter trace' = .outside)
    (hothers : ∀ other, other ∈ before ∨ other ∈ after → ∀ node since,
      holderOf lockPath staleAfter other = some (node, since) →
        ¬ disk.clock ≤ since + staleAfter) :
    LockKept lockPath staleAfter (disk.set lockPath none) (before ++ trace' :: after) := by
  have hmine : holderOf lockPath staleAfter trace' = none := by
    rw [holderOf, hphase]
    rfl
  have hfree : (disk.set lockPath none).files lockPath = none := Function.update_self _ _ _
  constructor
  case file_known =>
    intro file hfile
    rw [hfree] at hfile
    cases hfile
  case timed =>
    intro other hother now htimed
    rcases mem_replace (x := trace) hother with rfl | hother
    · rw [hphase] at htimed
      cases htimed
    · exact h.timed other hother now htimed
  case known =>
    intro other hother node since hsome
    rcases mem_replace (x := trace) hother with rfl | hother
    · rw [hmine] at hsome
      cases hsome
    · exact h.known other hother node since hsome
  case unmodified =>
    intro other hother since file hsome hfile
    rw [hfree] at hfile
    cases hfile
  case evidence =>
    intro other hother now node modified hstale
    rcases mem_replace (x := trace) hother with rfl | hother
    · rw [hphase] at hstale
      cases hstale
    · exact h.evidence other hother now node modified hstale
  case evidence_le =>
    intro other hother now node modified hstale third hthird since hsome
    rcases mem_replace (x := trace) hother with rfl | hother
    · rw [hphase] at hstale
      cases hstale
    · rcases mem_replace (x := trace) hthird with rfl | hthird
      · rw [hmine] at hsome
        cases hsome
      · exact h.evidence_le other hother now node modified hstale third hthird since hsome
  case distinct =>
    refine pairwise_replace h.distinct ?_ ?_
    · intro other _ _ node since node' since' _ hsome
      rw [hmine] at hsome
      cases hsome
    · intro other _ _ node since node' since' hsome
      rw [hmine] at hsome
      cases hsome
  case present =>
    intro other hother node since hsome hle
    rcases List.mem_append.mp hother with hother | hother
    · exact absurd hle (hothers other (.inl hother) node since hsome)
    · rcases List.mem_cons.mp hother with rfl | hother
      · rw [hmine] at hsome
        cases hsome
      · exact absurd hle (hothers other (.inr hother) node since hsome)

variable {op : FileOp κ} {outcome : op.Result}

/-- What a process finds out about the lock without touching it. -/
theorem next_of_spares (staleAfter : ℕ) (phase : Phase) (hspares : Spares lockPath op)
    (hexec : Exec disk op outcome disk') :
    phase.next lockPath staleAfter disk op outcome = phase ∨
      (phase = .outside ∧ phase.next lockPath staleAfter disk op outcome = .timed disk.clock) ∨
      ∃ now node modified, phase = .timed now ∧
        phase.next lockPath staleAfter disk op outcome = .stale now node modified ∧
        staleAfter < now - modified ∧
        ∃ file, disk.files lockPath = some file ∧ file.node = node ∧ file.modified = modified := by
  cases hexec with
  | now =>
    cases phase with
    | outside => exact .inr (.inl ⟨rfl, rfl⟩)
    | _ => exact .inl rfl
  | stat name =>
    cases hfile : disk.files name with
    | none => exact .inl rfl
    | some file =>
      cases phase with
      | timed now =>
        by_cases hstale : name = lockPath ∧ staleAfter < now - file.modified
        · obtain ⟨rfl, hstale⟩ := hstale
          refine .inr (.inr ⟨now, file.node, file.modified, rfl, ?_, hstale, file, hfile, rfl, rfl⟩)
          exact if_pos ⟨rfl, hstale⟩
        · exact .inl (if_neg hstale)
      | _ => exact .inl rfl
  | created => exact .inl (if_neg hspares)
  | «exists» => exact .inl rfl
  | appended => exact .inl rfl
  | appendRaised => exact .inl (if_neg hspares)
  | closed name =>
    cases phase with
    | entering node since => exact .inl (if_neg hspares)
    | _ => exact .inl rfl
  | closeRaised => exact .inl (if_neg hspares)
  | linked => exact .inl rfl
  | notLinked => exact .inl rfl
  | unlinked => exact .inl (if_neg hspares)
  | notFound => exact .inl (if_neg hspares)
  | list => exact .inl rfl
  | read => exact .inl rfl

/-- What an operation that spares the lock file does to the disk. -/
theorem disk_of_spares (hspares : Spares lockPath op) (hexec : Exec disk op outcome disk') :
    disk'.clock = disk.clock ∧ disk.nextNode ≤ disk'.nextNode ∧
      disk'.files lockPath = disk.files lockPath := by
  have hset : ∀ name file?, name ≠ lockPath → (disk.set name file?).clock = disk.clock ∧
      disk.nextNode ≤ (disk.set name file?).nextNode ∧
      (disk.set name file?).files lockPath = disk.files lockPath :=
    fun name file? hne => ⟨rfl, le_rfl, Function.update_of_ne hne.symm _ _⟩
  cases hexec with
  | created => exact ⟨rfl, Nat.le_succ _, Function.update_of_ne (Ne.symm hspares) _ _⟩
  | appended name byte =>
    unfold Disk.append
    split
    · split
      · exact ⟨rfl, le_rfl, rfl⟩
      · exact hset name _ hspares
    · exact ⟨rfl, le_rfl, rfl⟩
  | closed name =>
    unfold Disk.close
    split
    · exact hset name _ hspares
    · exact ⟨rfl, le_rfl, rfl⟩
  | linked => exact hset _ _ hspares.2
  | unlinked => exact hset _ _ hspares
  | _ => exact ⟨rfl, le_rfl, rfl⟩

theorem quiet_of_spares (hspares : Spares lockPath op) (hexec : Exec disk op outcome disk') :
    Quiet lockPath staleAfter disk disk' trace (trace ++ [⟨disk, op, outcome⟩]) := by
  obtain ⟨hclock, hnode, hfiles⟩ := disk_of_spares hspares hexec
  have hphase := next_of_spares staleAfter (phaseOf lockPath staleAfter trace) hspares hexec
  have hconcat := phaseOf_concat lockPath staleAfter trace (⟨disk, op, outcome⟩ : FileEntry κ)
  refine ⟨hclock, hnode, ?_, ?_, ?_, ?_, ?_⟩
  · exact fun file hfile => ⟨file, hfiles ▸ hfile, rfl, .inl rfl⟩
  · exact fun file hfile => ⟨file, hfiles ▸ hfile, rfl⟩
  all_goals
    simp only [holderOf, hconcat]
    rcases hphase with heq | ⟨hold, heq⟩ | ⟨now, node, modified, hold, heq, hstale, hfile⟩
  · exact .inl (by rw [heq])
  · exact .inr (by rw [heq]; rfl)
  · exact .inr (by rw [heq]; rfl)
  · exact fun now hnow => .inl (heq ▸ hnow)
  · exact fun now hnow => .inr (by rw [heq] at hnow; cases hnow; rfl)
  · exact fun now hnow => by rw [heq] at hnow; cases hnow
  · exact fun now node modified hnow => .inl (heq ▸ hnow)
  · exact fun now node modified hnow => by rw [heq] at hnow; cases hnow
  · intro now' node' modified' hnow
    rw [heq] at hnow
    cases hnow
    exact .inr ⟨hold, hstale, hfile⟩

/-- A process that holds the lock writes to its file, or gives up. -/
theorem quiet_of_writing {node since : ℕ} (hclock : disk'.clock = disk.clock)
    (hnode : disk'.nextNode = disk.nextNode)
    (hfile : disk'.files lockPath = disk.files lockPath ∨ ∃ file file',
      disk.files lockPath = some file ∧ disk'.files lockPath = some file' ∧ file'.node = file.node ∧
        (file'.modified = file.modified ∨ file'.modified = disk.clock))
    (hold : (phaseOf lockPath staleAfter trace).holder = some (node, since))
    (hphase : (phaseOf lockPath staleAfter trace').holder = some (node, since) ∨
      phaseOf lockPath staleAfter trace' = .outside) :
    Quiet lockPath staleAfter disk disk' trace trace' := by
  refine ⟨hclock, hnode.ge, ?_, ?_, ?_, ?_, ?_⟩
  · intro file' hfile'
    rcases hfile with heq | ⟨file, other, hfile, hother, hnode, hmodified⟩
    · exact ⟨file', heq ▸ hfile', rfl, .inl rfl⟩
    · rw [hfile'] at hother
      cases hother
      exact ⟨file, hfile, hnode, hmodified⟩
  · intro file hfile'
    rcases hfile with heq | ⟨other, file', hother, hfile, hnode, -⟩
    · exact ⟨file, heq ▸ hfile', rfl⟩
    · rw [hfile'] at hother
      cases hother
      exact ⟨file', hfile, hnode⟩
  · rcases hphase with hsome | hout
    · exact .inl (hsome.trans hold.symm)
    · exact .inr (by rw [holderOf, hout]; rfl)
  · intro now hnow
    rw [hnow] at hphase
    rcases hphase with h | h <;> cases h
  · intro now node' modified hnow
    rw [hnow] at hphase
    rcases hphase with h | h <;> cases h

/-- Who holds the lock and is in time, or has found the lock file stale that it now removes, removes
nobody else's. -/
theorem nobody_else (h : LockKept lockPath staleAfter disk (before ++ trace :: after))
    (hmay : (∃ now node modified, phaseOf lockPath staleAfter trace = .stale now node modified) ∨
      ∃ node since, phaseOf lockPath staleAfter trace = .inside node since)
    (htimely : ∀ node since, holderOf lockPath staleAfter trace = some (node, since) →
      disk.clock ≤ since + staleAfter)
    (hundisturbed : ∀ now node modified, phaseOf lockPath staleAfter trace = .stale now node modified →
      ∀ file, disk.files lockPath = some file → file.node = node)
    {other : List (FileEntry κ)} (hother : other ∈ before ∨ other ∈ after) {node since : ℕ}
    (hsome : holderOf lockPath staleAfter other = some (node, since)) :
    ¬ disk.clock ≤ since + staleAfter := by
  intro hle
  have hmine : trace ∈ before ++ trace :: after := by simp
  have hmem : other ∈ before ++ trace :: after := by
    rcases hother with hother | hother <;> simp [hother]
  obtain ⟨file, hfile, rfl⟩ := h.present other hmem node since hsome hle
  rcases hmay with ⟨now, node', modified, hphase⟩ | ⟨node', since', hphase⟩
  · obtain rfl := hundisturbed now node' modified hphase file hfile
    obtain ⟨hnow, -, hstale⟩ := h.evidence trace hmine now _ modified hphase
    have hsince := h.evidence_le trace hmine now _ modified hphase other hmem since hsome
    omega
  · have hholder : holderOf lockPath staleAfter trace = some (node', since') := by
      rw [holderOf, hphase]
      rfl
    obtain ⟨file', hfile', rfl⟩ :=
      h.present trace hmine node' since' hholder (htimely node' since' hholder)
    rw [hfile] at hfile'
    cases hfile'
    have hdistinct := h.distinct
    rw [List.pairwise_append, List.pairwise_cons] at hdistinct
    rcases hother with hother | hother
    · exact hdistinct.2.2 other hother trace List.mem_cons_self _ _ _ _ hsome hholder rfl
    · exact hdistinct.2.1.1 other hother _ _ _ _ hholder hsome rfl

/-- **The rule of locks.** -/
theorem exec (h : LockKept lockPath staleAfter disk (before ++ trace :: after))
    (hlocks : Locks lockPath staleAfter trace op) (hexec : Exec disk op outcome disk')
    (htimely : ∀ node since, holderOf lockPath staleAfter trace = some (node, since) →
      disk.clock ≤ since + staleAfter)
    (hundisturbed : op = .unlink lockPath → ∀ now node modified,
      phaseOf lockPath staleAfter trace = .stale now node modified →
        ∀ file, disk.files lockPath = some file → file.node = node) :
    LockKept lockPath staleAfter disk' (before ++ (trace ++ [⟨disk, op, outcome⟩]) :: after) := by
  rcases hlocks with hspares | ⟨rfl, hnone⟩ | ⟨⟨byte, rfl⟩, node, since, hphase⟩ |
    ⟨rfl, node, since, hphase⟩ | ⟨rfl, hmay⟩
  · exact h.quiet (quiet_of_spares hspares hexec)
  · cases hexec with
    | created hfree =>
      refine h.created hfree ?_
      rw [phaseOf_concat]
      exact if_pos rfl
    | «exists» _ =>
      refine h.quiet ⟨rfl, le_rfl, fun file hfile => ⟨file, hfile, rfl, .inl rfl⟩,
        fun file hfile => ⟨file, hfile, rfl⟩, .inl ?_, fun now hnow => .inl ?_,
        fun now node modified hnow => .inl ?_⟩
      · rw [holderOf, phaseOf_concat]
        rfl
      · rw [phaseOf_concat] at hnow
        exact hnow
      · rw [phaseOf_concat] at hnow
        exact hnow
  · have hold : (phaseOf lockPath staleAfter trace).holder = some (node, since) := by
      rw [hphase]
      rfl
    cases hexec with
    | appended =>
      refine h.quiet (quiet_of_writing ?_ ?_ ?_ hold (.inl ?_))
      · unfold Disk.append
        split
        · split <;> rfl
        · rfl
      · unfold Disk.append
        split
        · split <;> rfl
        · rfl
      · unfold Disk.append
        split
        · rename_i file hfile
          split
          · exact .inl rfl
          · exact .inr ⟨file, _, hfile, Function.update_self _ _ _, rfl, .inr rfl⟩
        · exact .inl rfl
      · rw [phaseOf_concat]
        exact hold
    | appendRaised =>
      refine h.quiet (quiet_of_writing rfl rfl (.inl rfl) hold (.inr ?_))
      rw [phaseOf_concat]
      exact if_pos rfl
  · have hold : (phaseOf lockPath staleAfter trace).holder = some (node, since) := by
      rw [hphase]
      rfl
    cases hexec with
    | closed =>
      refine h.quiet (quiet_of_writing ?_ ?_ ?_ hold (.inl ?_))
      · unfold Disk.close
        split <;> rfl
      · unfold Disk.close
        split <;> rfl
      · unfold Disk.close
        split
        · rename_i file hfile
          exact .inr ⟨file, _, hfile, Function.update_self _ _ _, rfl, .inl rfl⟩
        · exact .inl rfl
      · rw [phaseOf_concat, hphase]
        simp [Phase.next, Phase.holder]
    | closeRaised =>
      refine h.quiet (quiet_of_writing rfl rfl (.inl rfl) hold (.inr ?_))
      rw [phaseOf_concat]
      exact if_pos rfl
  · have hout : ∀ outcome, phaseOf lockPath staleAfter
        (trace ++ [(⟨disk, .unlink lockPath, outcome⟩ : FileEntry κ)]) = .outside := by
      intro outcome
      rw [phaseOf_concat]
      exact if_pos rfl
    cases hexec with
    | unlinked _ =>
      exact h.removed (hout _) fun other hother node since hsome =>
        h.nobody_else hmay htimely (hundisturbed rfl) hother hsome
    | notFound _ =>
      have hgone := hout false
      exact h.quiet ⟨rfl, le_rfl, fun file hfile => ⟨file, hfile, rfl, .inl rfl⟩,
        fun file hfile => ⟨file, hfile, rfl⟩, .inr (congrArg Phase.holder hgone),
        fun now hnow => (nomatch hgone.symm.trans hnow),
        fun now node modified hnow => (nomatch hgone.symm.trans hnow)⟩

end Exec

end LockKept

end Kept

/-! ## The locks of the host -/

/-- The lock of the trigger state, with its time in seconds, or that of the promoter. -/
inductive Lock
  | trigger (leaseSeconds : ℕ) (h : 60 ≤ leaseSeconds)
  | promotion

/-- The age in microseconds from which a lock file is stale. -/
def Lock.staleAfter : Lock → ℕ
  | trigger leaseSeconds _ => leaseSeconds * 1000000
  | promotion => 10 * 60 * 1000000

section Exclusion

variable [DecidableEq κ] (lock : Lock) (lockPath : κ)

/-- `TriggerStateStore.lease` and `Promoter._lock`: processes that run something under the lock. It
leaves the lock file alone. -/
inductive Contender : FileProgram κ (Except LockError α) → Prop
  | intro (pid : List UInt8) {body : FileProgram κ α} (h : body.Only (Spares lockPath)) :
      Contender (withLock lockPath lock.staleAfter pid body)

/-- The systems of contenders that start without a lock file. -/
def LockReachable (sys : System (Disk κ) (FileOp κ) FileOp.Result (Except LockError α)) : Prop :=
  Relation.ReflTransGen (System.Step semantics (Contender lock lockPath)) ⟨.empty, []⟩ sys

/-- A process is in the section and its time has not passed. One whose time has passed has died. -/
def InSection (disk : Disk κ) (trace : List (FileEntry κ)) : Prop :=
  ∃ node since, phaseOf lockPath lock.staleAfter trace = .inside node since ∧
    disk.clock ≤ since + lock.staleAfter

/-- Whatever a process does while it holds the lock, it does before the lock is stale. -/
def Timely : List (FileEntry κ) → Prop :=
  Throughout fun earlier entry => ∀ node since,
    holderOf lockPath lock.staleAfter earlier = some (node, since) →
      entry.before.clock ≤ since + lock.staleAfter

/-- The lock file that a process removes as stale is the one that it has looked at. -/
def Undisturbed : List (FileEntry κ) → Prop :=
  Throughout fun earlier entry => entry.op = .unlink lockPath → ∀ now node modified,
    phaseOf lockPath lock.staleAfter earlier = .stale now node modified →
      ∀ file, entry.before.files lockPath = some file → file.node = node

variable {lock lockPath}

/-- What holds of the lock in every run of timely contenders that disturb nobody. -/
theorem LockReachable.traced {sys : System (Disk κ) (FileOp κ) FileOp.Result (Except LockError α)}
    (h : LockReachable lock lockPath sys) :
    System.Traced (lockers lockPath lock.staleAfter) (fun _ _ => True) (fun disk traces =>
      (∀ trace ∈ traces, Timely lock lockPath trace ∧ Undisturbed lock lockPath trace) →
        LockKept lockPath lock.staleAfter disk traces) sys := by
  refine System.traced_reachable trivial (fun _ => LockKept.empty) ?_ ?_ ?_ ?_ h
  · rintro program ⟨pid, hbody⟩ disk -
    exact safe_withLock hbody disk
  · intro disk traces hkept hall
    exact (hkept fun trace htrace => hall trace (List.mem_append_left _ htrace)).start
  · intro disk before trace after op outcome disk' _ hkept hlocks hexec hall
    have hmine := hall (trace ++ [⟨disk, op, outcome⟩]) (by simp)
    have hbefore : LockKept lockPath lock.staleAfter disk (before ++ trace :: after) :=
      hkept (forall_mem_replace hall ⟨hmine.1.of_append, hmine.2.of_append⟩)
    exact hbefore.exec hlocks hexec hmine.1.last hmine.2.last
  · exact fun disk traces disk' _ hkept htick hall => (hkept hall).tick htick

/-- **Mutual exclusion.** Where every holder leaves within the threshold and nobody removes a lock file
as stale but the one that it has looked at, at most one process is in the section. -/
theorem Lock.inSection_exclusive {sys : System (Disk κ) (FileOp κ) FileOp.Result (Except LockError α)}
    (h : LockReachable lock lockPath sys)
    (htimely : ∀ thread ∈ sys.threads, Timely lock lockPath thread.trace)
    (hundisturbed : ∀ thread ∈ sys.threads, Undisturbed lock lockPath thread.trace) :
    sys.threads.Pairwise fun thread other =>
      ¬ (InSection lock lockPath sys.state thread.trace ∧
        InSection lock lockPath sys.state other.trace) := by
  have hkept := h.traced.history (by
    intro trace htrace
    obtain ⟨thread, hthread, rfl⟩ := List.mem_map.mp htrace
    exact ⟨htimely thread hthread, hundisturbed thread hthread⟩)
  have hpairs := List.pairwise_map.mp hkept.distinct
  refine hpairs.imp_of_mem fun {thread other} hthread hother hdistinct => ?_
  rintro ⟨⟨node, since, hphase, hle⟩, node', since', hphase', hle'⟩
  have hholder : holderOf lockPath lock.staleAfter thread.trace = some (node, since) := by
    rw [holderOf, hphase]
    rfl
  have hholder' : holderOf lockPath lock.staleAfter other.trace = some (node', since') := by
    rw [holderOf, hphase']
    rfl
  obtain ⟨file, hfile, rfl⟩ :=
    hkept.present _ (List.mem_map_of_mem hthread) node since hholder hle
  obtain ⟨file', hfile', rfl⟩ :=
    hkept.present _ (List.mem_map_of_mem hother) node' since' hholder' hle'
  rw [hfile] at hfile'
  cases hfile'
  exact hdistinct _ _ _ _ hholder hholder' rfl

end Exclusion

/-! ## Two processes in the section -/

section Intrusion

variable [DecidableEq κ] {lockPath : κ} {staleAfter : ℕ} {disk : Disk κ}

/-- A process finds the lock file stale. -/
theorem leads_look (pid : List UInt8) (rest : List ℕ) {file : File}
    (hfile : disk.files lockPath = some file) (hstale : staleAfter < disk.clock - file.modified) :
    Leads semantics (attempts lockPath staleAfter pid (0 :: rest)) disk
      (FileProgram.unlink lockPath >>= fun _ => attempts lockPath staleAfter pid rest) disk
      [⟨disk, .create lockPath, false⟩, ⟨disk, .now, disk.clock⟩,
        ⟨disk, .stat lockPath, some (file.node, file.modified)⟩] := by
  have hstat := Exec.stat disk lockPath
  rw [hfile] at hstat
  refine .call (Exec.exists (by rw [hfile]; rfl)) (.call (Exec.now disk) (.call hstat ?_))
  change Leads semantics (if 0 = 0 ∧ isStale staleAfter disk.clock (some (file.node, file.modified)) = true
    then FileProgram.unlink lockPath >>= fun _ => attempts lockPath staleAfter pid rest
    else .done (.error .held)) _ _ _ _
  rw [if_pos ⟨rfl, by simpa [isStale] using hstale⟩]
  exact .refl _ _

/-- The disk after a process has replaced the lock file by its own. -/
def replaced (lockPath : κ) (byte : UInt8) (disk : Disk κ) : Disk κ :=
  (((disk.set lockPath none).create lockPath).append lockPath byte).close lockPath

/-- A process removes a lock file, whichever it is, and enters the section. -/
theorem leads_take (staleAfter : ℕ) (disk : Disk κ) (byte : UInt8) (attempt : ℕ) (rest : List ℕ)
    (hfile : (disk.files lockPath).isSome) :
    Leads semantics
      (FileProgram.unlink lockPath >>= fun _ =>
        attempts lockPath staleAfter [byte] (attempt :: rest)) disk
      (.done (.ok ())) (replaced lockPath byte disk)
      [⟨disk, .unlink lockPath, true⟩, ⟨disk.set lockPath none, .create lockPath, true⟩,
        ⟨(disk.set lockPath none).create lockPath, .append lockPath byte, true⟩,
        ⟨((disk.set lockPath none).create lockPath).append lockPath byte, .close lockPath, true⟩] :=
  .call (Exec.unlinked hfile) (.call (Exec.created (Function.update_self _ _ _))
    (.call (Exec.appended _ _ _) (.call (Exec.closed _ _) (.refl _ _))))

theorem replaced_eq (lockPath : κ) (byte : UInt8) (disk : Disk κ) :
    (replaced lockPath byte disk).files lockPath = some ⟨disk.nextNode, disk.clock, [byte], true⟩ ∧
      (replaced lockPath byte disk).clock = disk.clock ∧
      (replaced lockPath byte disk).nextNode = disk.nextNode + 1 := by
  have hcreated : ((disk.set lockPath none).create lockPath).files lockPath
      = some ⟨disk.nextNode, disk.clock, [], false⟩ := Function.update_self _ _ _
  have happended := Disk.append_of_open byte hcreated rfl
  have hfile : (((disk.set lockPath none).create lockPath).append lockPath byte).files lockPath
      = some ⟨disk.nextNode, disk.clock, [byte], false⟩ := by
    rw [happended]
    exact Function.update_self _ _ _
  rw [replaced, Disk.close_of_some hfile, happended]
  exact ⟨Function.update_self _ _ _, rfl, rfl⟩

/-- A process holds the lock since one of its operations. -/
theorem exists_of_holderOf {trace : List (FileEntry κ)} {node since : ℕ}
    (h : holderOf lockPath staleAfter trace = some (node, since)) :
    ∃ entry ∈ trace, entry.before.clock = since := by
  induction trace using List.reverseRecOn with
  | nil => cases h
  | append_singleton trace entry ih =>
    have hnext : holderOf lockPath staleAfter trace = some (node, since) ∨
        entry.before.clock = since := by
      rw [holderOf, phaseOf_concat] at h
      unfold Phase.next at h
      split at h <;> (try split at h) <;> (try split at h) <;>
        simp_all [holderOf, Phase.holder]
    rcases hnext with hold | hclock
    · obtain ⟨other, hother, hclock⟩ := ih hold
      exact ⟨other, List.mem_append_left _ hother, hclock⟩
    · exact ⟨entry, by simp, hclock⟩

/-- A process that acts at one time only is timely. -/
theorem timely_of_clock {lock : Lock} {trace : List (FileEntry κ)} (clock : ℕ)
    (h : ∀ entry ∈ trace, entry.before.clock = clock) : Timely lock lockPath trace := by
  rintro earlier entry later rfl node since hholder
  obtain ⟨other, hother, rfl⟩ := exists_of_holderOf hholder
  rw [h other (by simp [hother]), h entry (by simp)]
  exact Nat.le_add_right _ _

/-- What a process has done that has looked at a lock file and then replaced another one. -/
def takeover (lockPath : κ) (found : Disk κ) (file : File) (disk : Disk κ) : List (FileEntry κ) :=
  [⟨found, .create lockPath, false⟩, ⟨found, .now, found.clock⟩,
    ⟨found, .stat lockPath, some (file.node, file.modified)⟩] ++
  [⟨disk, .unlink lockPath, true⟩, ⟨disk.set lockPath none, .create lockPath, true⟩,
    ⟨(disk.set lockPath none).create lockPath, .append lockPath 49, true⟩,
    ⟨((disk.set lockPath none).create lockPath).append lockPath 49, .close lockPath, true⟩]

theorem phaseOf_takeover (found : Disk κ) (file : File) (disk : Disk κ) :
    phaseOf lockPath staleAfter (takeover lockPath found file disk)
      = .inside disk.nextNode disk.clock := by
  simp [takeover, phaseOf, Phase.next, Disk.set]

theorem timely_takeover (lock : Lock) (found : Disk κ) (file : File) (disk : Disk κ)
    (h : disk.clock = found.clock) : Timely lock lockPath (takeover lockPath found file disk) := by
  refine timely_of_clock found.clock ?_
  have happend : (((disk.set lockPath none).create lockPath).append lockPath 49).clock = disk.clock := by
    rw [Disk.append_of_open 49 (Function.update_self _ _ _) rfl]
    rfl
  simp only [takeover, List.cons_append, List.nil_append, List.forall_mem_cons]
  exact ⟨trivial, trivial, trivial, h, h, h, happend.trans h, by simp⟩

theorem undisturbed_takeover (lock : Lock) (found : Disk κ) (file : File) (disk : Disk κ)
    (h : ∀ other, disk.files lockPath = some other → other.node = file.node) :
    Undisturbed lock lockPath (takeover lockPath found file disk) := by
  have hlook : Undisturbed lock lockPath
      ([⟨found, .create lockPath, false⟩] ++ [⟨found, .now, found.clock⟩] ++
        [⟨found, .stat lockPath, some (file.node, file.modified)⟩]) :=
    ((Throughout.nil.concat (by simp)).concat (by simp)).concat (by simp)
  have hunlink : Undisturbed lock lockPath (_ ++ [⟨disk, .unlink lockPath, true⟩]) := hlook.concat (by
    intro _ now node modified hphase other hother
    rw [h other hother]
    by_cases hstale : lock.staleAfter < found.clock - file.modified
    · simp [phaseOf, Phase.next, hstale] at hphase
      exact hphase.2.1
    · simp [phaseOf, Phase.next, hstale] at hphase)
  exact ((hunlink.concat (by simp)).concat (by simp)).concat (by simp)

/-- What is left of the program of a process when it has the lock or not. -/
def afterAttempts (lockPath : κ) : Except LockError Unit → FileProgram κ (Except LockError Unit)
  | .error error => .done (.error error)
  | .ok () => FileProgram.unlink lockPath >>= fun _ => .done (.ok ())

/-- The disk when the lock file of a process that has died has become stale. -/
def late (lock : Lock) (lockPath : κ) : Disk κ :=
  { Disk.empty.create lockPath with clock := lock.staleAfter + 1 }

theorem files_late (lock : Lock) (lockPath : κ) :
    (late lock lockPath).files lockPath = some ⟨0, 0, [], false⟩ := Function.update_self _ _ _

omit [DecidableEq κ] in
theorem contender_empty (lock : Lock) (lockPath : κ) :
    Contender lock lockPath (withLock lockPath lock.staleAfter [49] (.done ())) := .intro [49] trivial

/-- A process dies when it has created the lock file, and time passes. -/
theorem exists_dead (lock : Lock) (lockPath : κ) :
    ∃ rest : FileProgram κ (Except LockError Unit),
      LockReachable lock lockPath ⟨late lock lockPath, [⟨[⟨.empty, .create lockPath, true⟩], rest⟩]⟩ := by
  have hdead : ∃ rest, Leads semantics (withLock lockPath lock.staleAfter [49] (.done ())) .empty rest
      (Disk.empty.create lockPath) [⟨.empty, .create lockPath, true⟩] :=
    ⟨_, .call (Exec.created rfl) (.refl _ _)⟩
  obtain ⟨rest, hdead⟩ := hdead
  exact ⟨rest, (hdead.start_steps (contender_empty lock lockPath) []).tail
    (.env (Tick.tick _ (Nat.zero_le (lock.staleAfter + 1))))⟩

theorem leads_look_late (lock : Lock) (lockPath : κ) :
    Leads semantics (withLock lockPath lock.staleAfter [49] (.done ())) (late lock lockPath)
      ((FileProgram.unlink lockPath >>= fun _ => attempts lockPath lock.staleAfter [49] [1])
        >>= afterAttempts lockPath) (late lock lockPath)
      [⟨late lock lockPath, .create lockPath, false⟩,
        ⟨late lock lockPath, .now, (late lock lockPath).clock⟩,
        ⟨late lock lockPath, .stat lockPath, some (0, 0)⟩] := by
  refine (leads_look [49] [1] (files_late lock lockPath) ?_).bind (afterAttempts lockPath)
  change lock.staleAfter < lock.staleAfter + 1 - 0
  omega

/-- A process takes the lock of one that has died. -/
theorem exists_takeover (lock : Lock) (lockPath : κ) :
    ∃ sys : System (Disk κ) (FileOp κ) FileOp.Result (Except LockError Unit),
      LockReachable lock lockPath sys ∧
      (∃ thread ∈ sys.threads, InSection lock lockPath sys.state thread.trace) ∧
      (∀ thread ∈ sys.threads, Timely lock lockPath thread.trace) ∧
      ∀ thread ∈ sys.threads, Undisturbed lock lockPath thread.trace := by
  obtain ⟨rest, hdead⟩ := exists_dead lock lockPath
  have htake := (leads_take lock.staleAfter (late lock lockPath) 49 1 []
    (by rw [files_late lock lockPath]; rfl)).bind (afterAttempts lockPath)
  have hreach := (hdead.trans ((leads_look_late lock lockPath).start_steps
    (contender_empty lock lockPath) _)).trans (htake.steps [_] [] _)
  refine ⟨_, hreach, ⟨⟨takeover lockPath (late lock lockPath) ⟨0, 0, [], false⟩ (late lock lockPath), _⟩,
    List.mem_cons_of_mem _ (List.mem_singleton_self _), _, _, phaseOf_takeover _ _ _, ?_⟩, ?_, ?_⟩
  · rw [(replaced_eq lockPath 49 _).2.1]
    exact Nat.le_add_right _ _
  · intro thread hthread
    rcases List.mem_cons.mp hthread with rfl | hthread
    · exact timely_of_clock 0 (by simp [Disk.empty])
    · rw [List.mem_singleton.mp hthread]
      exact timely_takeover lock (late lock lockPath) ⟨0, 0, [], false⟩ (late lock lockPath) rfl
  · intro thread hthread
    rcases List.mem_cons.mp hthread with rfl | hthread
    · exact Throughout.nil.concat (by simp)
    · rw [List.mem_singleton.mp hthread]
      refine undisturbed_takeover lock (late lock lockPath) ⟨0, 0, [], false⟩ (late lock lockPath)
        fun other hother => ?_
      rw [files_late] at hother
      cases hother
      rfl

/-- Two processes look at the lock file of one that has died, and each of them removes the file that
it finds then. -/
theorem exists_intrusion (lock : Lock) (lockPath : κ) :
    ∃ (sys : System (Disk κ) (FileOp κ) FileOp.Result (Except LockError Unit)) (dead first second : _),
      LockReachable lock lockPath sys ∧ sys.threads = [dead, first, second] ∧
      (∀ thread ∈ sys.threads, Timely lock lockPath thread.trace) ∧
      InSection lock lockPath sys.state first.trace ∧
      InSection lock lockPath sys.state second.trace := by
  obtain ⟨rest, hdead⟩ := exists_dead lock lockPath
  obtain ⟨hreplaced, hclock, -⟩ :=
    replaced_eq lockPath 49 (late lock lockPath)
  obtain ⟨-, hclock', -⟩ :=
    replaced_eq lockPath 49 (replaced lockPath 49 (late lock lockPath))
  have hlook := leads_look_late lock lockPath
  have htake := (leads_take lock.staleAfter (late lock lockPath) 49 1 []
    (by rw [files_late lock lockPath]; rfl)).bind (afterAttempts lockPath)
  have htake' := (leads_take lock.staleAfter (replaced lockPath 49 (late lock lockPath)) 49 1 []
    (by rw [hreplaced]; rfl)).bind (afterAttempts lockPath)
  have hcontender := contender_empty lock lockPath
  have hreach := (((hdead.trans (hlook.start_steps hcontender _)).trans
    (hlook.start_steps hcontender _)).trans (htake.steps [_] [_] _)).trans (htake'.steps [_, _] [] _)
  refine ⟨_, _, ⟨takeover lockPath (late lock lockPath) ⟨0, 0, [], false⟩ (late lock lockPath), _⟩,
    ⟨takeover lockPath (late lock lockPath) ⟨0, 0, [], false⟩
      (replaced lockPath 49 (late lock lockPath)), _⟩, hreach, rfl, ?_, ?_, ?_⟩
  · intro thread hthread
    rcases List.mem_cons.mp hthread with rfl | hthread
    · exact timely_of_clock 0 (by simp [Disk.empty])
    rcases List.mem_cons.mp hthread with rfl | hthread
    · exact timely_takeover lock (late lock lockPath) ⟨0, 0, [], false⟩ (late lock lockPath) rfl
    · rw [List.mem_singleton.mp hthread]
      exact timely_takeover lock (late lock lockPath) ⟨0, 0, [], false⟩
        (replaced lockPath 49 (late lock lockPath)) hclock
  · refine ⟨_, _, phaseOf_takeover _ _ _, ?_⟩
    rw [hclock', hclock]
    exact Nat.le_add_right _ _
  · refine ⟨_, _, phaseOf_takeover _ _ _, ?_⟩
    rw [hclock']
    exact Nat.le_add_right _ _

/-- A promoter takes the lock of one that has died, and nobody else is in the section. -/
theorem exclusive_takeover :
    ∃ sys : System (Disk Unit) (FileOp Unit) FileOp.Result (Except LockError Unit),
      LockReachable .promotion () sys ∧
      (∃ thread ∈ sys.threads, InSection .promotion () sys.state thread.trace) ∧
      sys.threads.Pairwise fun thread other =>
        ¬ (InSection .promotion () sys.state thread.trace ∧
          InSection .promotion () sys.state other.trace) := by
  obtain ⟨sys, hreach, hinside, htimely, hundisturbed⟩ := exists_takeover .promotion ()
  exact ⟨sys, hreach, hinside, Lock.inSection_exclusive hreach htimely hundisturbed⟩

/-- Two promoters publish at the same time. -/
theorem not_exclusive :
    ∃ sys : System (Disk Unit) (FileOp Unit) FileOp.Result (Except LockError Unit),
      LockReachable .promotion () sys ∧
      (∀ thread ∈ sys.threads, Timely .promotion () thread.trace) ∧
      ¬ sys.threads.Pairwise fun thread other =>
        ¬ (InSection .promotion () sys.state thread.trace ∧
          InSection .promotion () sys.state other.trace) := by
  obtain ⟨sys, dead, first, second, hreach, hthreads, htimely, hfirst, hsecond⟩ :=
    exists_intrusion .promotion ()
  refine ⟨sys, hreach, htimely, fun hpairs => ?_⟩
  rw [hthreads] at hpairs
  have hpair := hpairs.sublist (List.sublist_cons_self dead [first, second])
  exact List.pairwise_pair.mp hpair ⟨hfirst, hsecond⟩

end Intrusion

end IouAi.Storage
