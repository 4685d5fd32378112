import IouAi.Foundations.Threads
import Mathlib.Logic.Function.Basic

/-!
# Files

A directory of named files with its atomic operations: exclusive creation, appending one byte,
closing, linking, removing, listing and reading. A file is open from its creation until its writer
closes it. A writer that dies leaves it open.

`Writers` is the discipline of programs that write one file at a time and touch no file but the one
that they have created. In a system of such programs an open file is what its one writer has written
so far, and a closed file is complete and stays as it is (`Kept`).
-/

namespace IouAi.Files

open Threads

/-- A file, with the number under which it was created and the time of its last change. -/
structure File where
  node : ℕ
  modified : ℕ
  content : List UInt8
  closed : Bool
  deriving DecidableEq

structure Disk (κ : Type) where
  clock : ℕ
  nextNode : ℕ
  files : κ → Option File

/-- `append` and `close` can raise; `stat` is the number of a file and the time of its last
change. -/
inductive FileOp (κ : Type)
  | now
  | create (name : κ)
  | append (name : κ) (byte : UInt8)
  | close (name : κ)
  | link (name target : κ)
  | unlink (name : κ)
  | list
  | read (name : κ)
  | stat (name : κ)

variable {κ : Type}

def FileOp.Result : FileOp κ → Type
  | now => ℕ
  | create _ => Bool
  | append _ _ => Bool
  | close _ => Bool
  | link _ _ => Bool
  | unlink _ => Bool
  | list => List κ
  | read _ => Option (List UInt8)
  | stat _ => Option (ℕ × ℕ)

namespace Disk

def empty : Disk κ := ⟨0, 0, fun _ => none⟩

variable [DecidableEq κ]

def set (disk : Disk κ) (name : κ) (file? : Option File) : Disk κ :=
  { disk with files := Function.update disk.files name file? }

/-- A new empty file. -/
def create (disk : Disk κ) (name : κ) : Disk κ where
  clock := disk.clock
  nextNode := disk.nextNode + 1
  files := Function.update disk.files name (some ⟨disk.nextNode, disk.clock, [], false⟩)

/-- One more byte at the end of an open file. -/
def append (disk : Disk κ) (name : κ) (byte : UInt8) : Disk κ :=
  match disk.files name with
  | some file =>
    if file.closed then disk
    else disk.set name (some { file with content := file.content ++ [byte], modified := disk.clock })
  | none => disk

def close (disk : Disk κ) (name : κ) : Disk κ :=
  match disk.files name with
  | some file => disk.set name (some { file with closed := true })
  | none => disk

@[simp] theorem files_set (disk : Disk κ) (name : κ) (file? : Option File) :
    (disk.set name file?).files = Function.update disk.files name file? := rfl

@[simp] theorem files_create (disk : Disk κ) (name : κ) : (disk.create name).files
    = Function.update disk.files name (some ⟨disk.nextNode, disk.clock, [], false⟩) := rfl

theorem append_of_open {disk : Disk κ} {name : κ} {file : File} (byte : UInt8)
    (h : disk.files name = some file) (hopen : file.closed = false) :
    disk.append name byte
      = disk.set name (some { file with content := file.content ++ [byte], modified := disk.clock }) := by
  simp [append, h, hopen]

theorem close_of_some {disk : Disk κ} {name : κ} {file : File} (h : disk.files name = some file) :
    disk.close name = disk.set name (some { file with closed := true }) := by
  simp [close, h]

end Disk

/-- Time passes. -/
inductive Tick : Disk κ → Disk κ → Prop
  | tick (disk : Disk κ) {clock : ℕ} (h : disk.clock ≤ clock) : Tick disk { disk with clock := clock }

section Semantics

variable [DecidableEq κ]

/-- What an operation does. -/
inductive Exec : Disk κ → (op : FileOp κ) → op.Result → Disk κ → Prop
  | now (disk : Disk κ) : Exec disk .now disk.clock disk
  | created {disk : Disk κ} {name : κ} (h : disk.files name = none) :
      Exec disk (.create name) true (disk.create name)
  | exists {disk : Disk κ} {name : κ} (h : (disk.files name).isSome) :
      Exec disk (.create name) false disk
  | appended (disk : Disk κ) (name : κ) (byte : UInt8) :
      Exec disk (.append name byte) true (disk.append name byte)
  | appendRaised (disk : Disk κ) (name : κ) (byte : UInt8) :
      Exec disk (.append name byte) false disk
  | closed (disk : Disk κ) (name : κ) : Exec disk (.close name) true (disk.close name)
  | closeRaised (disk : Disk κ) (name : κ) : Exec disk (.close name) false disk
  | linked {disk : Disk κ} {name target : κ} {file : File} (h : disk.files name = some file)
      (hfree : disk.files target = none) :
      Exec disk (.link name target) true (disk.set target (some file))
  | notLinked {disk : Disk κ} {name target : κ}
      (h : disk.files name = none ∨ (disk.files target).isSome) :
      Exec disk (.link name target) false disk
  | unlinked {disk : Disk κ} {name : κ} (h : (disk.files name).isSome) :
      Exec disk (.unlink name) true (disk.set name none)
  | notFound {disk : Disk κ} {name : κ} (h : disk.files name = none) :
      Exec disk (.unlink name) false disk
  | list {disk : Disk κ} {names : List κ} (hnodup : names.Nodup)
      (h : ∀ name, name ∈ names ↔ (disk.files name).isSome) : Exec disk .list names disk
  | read (disk : Disk κ) (name : κ) :
      Exec disk (.read name) ((disk.files name).map File.content) disk
  | stat (disk : Disk κ) (name : κ) :
      Exec disk (.stat name) ((disk.files name).map fun file => (file.node, file.modified)) disk

def semantics : Semantics (Disk κ) (FileOp κ) FileOp.Result := ⟨Exec, Tick⟩

end Semantics

abbrev FileProgram (κ α : Type) := Program (FileOp κ) FileOp.Result α

namespace FileProgram

def now : FileProgram κ ℕ := .call .now .done
def create (name : κ) : FileProgram κ Bool := .call (.create name) .done
def append (name : κ) (byte : UInt8) : FileProgram κ Bool := .call (.append name byte) .done
def close (name : κ) : FileProgram κ Bool := .call (.close name) .done
def link (name target : κ) : FileProgram κ Bool := .call (.link name target) .done
def unlink (name : κ) : FileProgram κ Bool := .call (.unlink name) .done
def list : FileProgram κ (List κ) := .call .list .done
def read (name : κ) : FileProgram κ (Option (List UInt8)) := .call (.read name) .done
def stat (name : κ) : FileProgram κ (Option (ℕ × ℕ)) := .call (.stat name) .done

end FileProgram

abbrev FileEntry (κ : Type) := Entry (Disk κ) (FileOp κ) FileOp.Result

/-! ## Writers -/

/-- The file that a thread has open after an operation, and what it has written to it. -/
def holding (held : Option (κ × List UInt8)) : (op : FileOp κ) → op.Result → Option (κ × List UInt8)
  | .create name, true => some (name, [])
  | .append _ byte, true => held.map fun file => (file.1, file.2 ++ [byte])
  | .close _, true => none
  | .unlink _, _ => none
  | _, _ => held

/-- The file that a thread has open, and what it has written to it. -/
def held (trace : List (FileEntry κ)) : Option (κ × List UInt8) :=
  trace.foldl (fun held entry => holding held entry.op entry.outcome) none

@[simp] theorem held_nil : held ([] : List (FileEntry κ)) = none := rfl

@[simp] theorem held_concat (trace : List (FileEntry κ)) (entry : FileEntry κ) :
    held (trace ++ [entry]) = holding (held trace) entry.op entry.outcome := by
  simp [held]

/-- What writers do: the contents that they may leave under a name, the complete ones, and what a
thread has seen when it creates a file. -/
structure Conduct (κ : Type) where
  Fragment : κ → List UInt8 → Prop
  Whole : κ → List UInt8 → Prop
  Creates : List (FileEntry κ) → κ → Prop

variable (C : Conduct κ)

/-- A thread creates one file at a time, and touches no file but that one. -/
def Writes (trace : List (FileEntry κ)) : FileOp κ → Prop
  | .create name => held trace = none ∧ C.Fragment name [] ∧ C.Creates trace name
  | .append name byte => ∃ bytes, held trace = some (name, bytes) ∧ C.Fragment name (bytes ++ [byte])
  | .close name => ∃ bytes, held trace = some (name, bytes) ∧ C.Whole name bytes
  | .unlink name => ∃ bytes, held trace = some (name, bytes)
  | .link _ _ => False
  | _ => True

def writers [DecidableEq κ] : Discipline (semantics (κ := κ)) where
  Inv _ := True
  le _ _ := True
  guard trace _ op := Writes C trace op
  le_refl _ := trivial
  le_trans _ _ := trivial
  exec_inv _ _ _ := trivial
  exec_le _ _ _ := trivial
  env_inv _ _ := trivial
  env_le _ _ := trivial

/-- The files of a disk are fragments, and the closed ones whole. -/
structure Sound (disk : Disk κ) : Prop where
  fragment : ∀ {name file}, disk.files name = some file → C.Fragment name file.content
  whole : ∀ {name file}, disk.files name = some file → file.closed = true → C.Whole name file.content

/-- The closed files of a disk are on the other one. -/
def Keeps (disk later : Disk κ) : Prop :=
  ∀ {name file}, disk.files name = some file → file.closed = true → later.files name = some file

/-- Two threads have different files open. -/
def Apart (trace other : List (FileEntry κ)) : Prop :=
  ∀ name bytes name' bytes', held trace = some (name, bytes) → held other = some (name', bytes') →
    name ≠ name'

/-- What holds in a system of writers. -/
structure Kept (disk : Disk κ) (traces : List (List (FileEntry κ))) : Prop where
  sound : Sound C disk
  owned : ∀ trace ∈ traces, ∀ name bytes, held trace = some (name, bytes) →
    ∃ file, disk.files name = some file ∧ file.closed = false ∧ file.content = bytes
  apart : traces.Pairwise Apart
  before_sound : ∀ trace ∈ traces, ∀ entry ∈ trace, Sound C entry.before
  before_keeps : ∀ trace ∈ traces, ∀ entry ∈ trace, Keeps entry.before disk
  ordered : ∀ trace ∈ traces, trace.Pairwise fun entry later => Keeps entry.before later.before

variable {C}

theorem Apart.symm {trace other : List (FileEntry κ)} (h : Apart trace other) : Apart other trace :=
  fun name bytes name' bytes' hheld hheld' heq => h name' bytes' name bytes hheld' hheld heq.symm

theorem Sound.of_files {disk disk' : Disk κ} (h : Sound C disk) (hfiles : disk'.files = disk.files) :
    Sound C disk' := by
  constructor
  · intro name file hfile
    rw [hfiles] at hfile
    exact h.fragment hfile
  · intro name file hfile
    rw [hfiles] at hfile
    exact h.whole hfile

theorem forall_mem_replace {α : Type} {P : α → Prop} {before after : List α} {x y : α}
    (h : ∀ z ∈ before ++ x :: after, P z) (hy : P y) : ∀ z ∈ before ++ y :: after, P z := by
  intro z hz
  rcases List.mem_append.mp hz with hz | hz
  · exact h z (List.mem_append_left _ hz)
  · rcases List.mem_cons.mp hz with rfl | hz
    · exact hy
    · exact h z (List.mem_append_right _ (List.mem_cons_of_mem _ hz))

namespace Kept

theorem empty : Kept C Disk.empty [] := by
  refine ⟨⟨?_, ?_⟩, by simp, List.Pairwise.nil, by simp, by simp, by simp⟩
  · intro name file h
    cases h
  · intro name file h
    cases h

theorem start {disk : Disk κ} {traces : List (List (FileEntry κ))} (h : Kept C disk traces) :
    Kept C disk (traces ++ [[]]) := by
  have hnew : ∀ {P : List (FileEntry κ) → Prop}, (∀ trace ∈ traces, P trace) → P [] →
      ∀ trace ∈ traces ++ [[]], P trace := by
    intro P hall hnil trace htrace
    rcases List.mem_append.mp htrace with htrace | htrace
    · exact hall trace htrace
    · rwa [List.mem_singleton.mp htrace]
  refine ⟨h.sound, hnew h.owned (by simp), ?_, hnew h.before_sound (by simp),
    hnew h.before_keeps (by simp), hnew h.ordered List.Pairwise.nil⟩
  refine List.pairwise_append.mpr ⟨h.apart, List.pairwise_singleton _ _, ?_⟩
  intro trace _ other hother name bytes name' bytes' _ hheld
  rw [List.mem_singleton.mp hother] at hheld
  cases hheld

theorem tick {disk disk' : Disk κ} {traces : List (List (FileEntry κ))} (h : Kept C disk traces)
    (htick : Tick disk disk') : Kept C disk' traces := by
  cases htick
  exact ⟨h.sound.of_files rfl, h.owned, h.apart, h.before_sound, h.before_keeps, h.ordered⟩

section Exec

variable {disk disk' : Disk κ} {before after : List (List (FileEntry κ))}
  {trace : List (FileEntry κ)} {op : FileOp κ} {outcome : op.Result}

/-- The entries of a trace that grows by one operation. -/
theorem traces_grow (op : FileOp κ) (outcome : op.Result)
    (h : Kept C disk (before ++ trace :: after)) (hkeeps : Keeps disk disk') :
    (∀ other ∈ before ++ (trace ++ [⟨disk, op, outcome⟩]) :: after, ∀ entry ∈ other,
        Sound C entry.before) ∧
      (∀ other ∈ before ++ (trace ++ [⟨disk, op, outcome⟩]) :: after, ∀ entry ∈ other,
        Keeps entry.before disk') ∧
      ∀ other ∈ before ++ (trace ++ [⟨disk, op, outcome⟩]) :: after,
        other.Pairwise fun entry later => Keeps entry.before later.before := by
  have hmem : trace ∈ before ++ trace :: after := by simp
  refine ⟨forall_mem_replace h.before_sound ?_, ?_, forall_mem_replace h.ordered ?_⟩
  · intro entry hentry
    rcases List.mem_append.mp hentry with hentry | hentry
    · exact h.before_sound trace hmem entry hentry
    · rw [List.mem_singleton.mp hentry]
      exact h.sound
  · have hlater : ∀ other ∈ before ++ trace :: after, ∀ entry ∈ other, Keeps entry.before disk' :=
      fun other hother entry hentry name file hfile hclosed =>
        hkeeps (h.before_keeps other hother entry hentry hfile hclosed) hclosed
    refine forall_mem_replace hlater ?_
    intro entry hentry
    rcases List.mem_append.mp hentry with hentry | hentry
    · exact hlater trace hmem entry hentry
    · rw [List.mem_singleton.mp hentry]
      exact hkeeps
  · refine List.pairwise_append.mpr ⟨h.ordered trace hmem, List.pairwise_singleton _ _, ?_⟩
    intro entry hentry later hlater
    rw [List.mem_singleton.mp hlater]
    exact h.before_keeps trace hmem entry hentry

/-- An operation that changes no file. -/
theorem same (h : Kept C disk (before ++ trace :: after))
    (hheld : held (trace ++ [⟨disk, op, outcome⟩]) = held trace) :
    Kept C disk (before ++ (trace ++ [⟨disk, op, outcome⟩]) :: after) := by
  obtain ⟨hsound, hkeeps, hordered⟩ :=
    traces_grow op outcome h fun hfile _ => hfile
  refine ⟨h.sound, forall_mem_replace h.owned ?_, ?_, hsound, hkeeps, hordered⟩
  · rw [hheld]
    exact h.owned trace (by simp)
  · have hapart := h.apart
    rw [List.pairwise_append, List.pairwise_cons] at hapart ⊢
    obtain ⟨hbefore, ⟨hhead, hafter⟩, hcross⟩ := hapart
    refine ⟨hbefore, ⟨?_, hafter⟩, ?_⟩
    · intro other hother name bytes name' bytes'
      rw [hheld]
      exact hhead other hother name bytes name' bytes'
    · intro other hother later hlater
      rcases List.mem_cons.mp hlater with rfl | hlater
      · intro name bytes name' bytes'
        rw [hheld]
        exact hcross other hother trace List.mem_cons_self name bytes name' bytes'
      · exact hcross other hother later (List.mem_cons_of_mem _ hlater)

/-- An operation on the file that a thread has open, or opens: the file was not closed before, no
other thread has it open, and the thread has it open afterwards or no file at all. -/
theorem change [DecidableEq κ] (h : Kept C disk (before ++ trace :: after)) {name : κ} {file? : Option File}
    (hfiles : disk'.files = Function.update disk.files name file?)
    (hopen : ∀ file, disk.files name = some file → file.closed = false)
    (hmine : disk.files name = none ∨ ∃ bytes, held trace = some (name, bytes))
    (hsound : ∀ file ∈ file?, C.Fragment name file.content ∧
      (file.closed = true → C.Whole name file.content))
    (hheld : held (trace ++ [⟨disk, op, outcome⟩]) = none ∨ ∃ file ∈ file?, file.closed = false ∧
      held (trace ++ [⟨disk, op, outcome⟩]) = some (name, file.content)) :
    Kept C disk' (before ++ (trace ++ [⟨disk, op, outcome⟩]) :: after) := by
  have hkeeps : Keeps disk disk' := by
    intro name' file hfile hclosed
    rw [hfiles, Function.update_of_ne]
    · exact hfile
    · rintro rfl
      rw [hopen file hfile] at hclosed
      cases hclosed
  -- The others have no file open under the name.
  have hothers : ∀ other, other ∈ before ∨ other ∈ after → ∀ name' bytes,
      held other = some (name', bytes) → name' ≠ name := by
    rintro other hother name' bytes hheld' rfl
    have hmem : other ∈ before ++ trace :: after := by
      rcases hother with hother | hother <;> simp [hother]
    rcases hmine with hnone | ⟨bytes', htrace⟩
    · obtain ⟨file, hfile, -⟩ := h.owned other hmem _ _ hheld'
      rw [hnone] at hfile
      cases hfile
    · have hapart := h.apart
      rw [List.pairwise_append, List.pairwise_cons] at hapart
      rcases hother with hother | hother
      · exact hapart.2.2 other hother trace List.mem_cons_self _ _ _ _ hheld' htrace rfl
      · exact (hapart.2.1.1 other hother) _ _ _ _ htrace hheld' rfl
  have hnew : ∀ name' bytes, held (trace ++ [⟨disk, op, outcome⟩]) = some (name', bytes) →
      name' = name ∧ ∃ file ∈ file?, file.closed = false ∧ file.content = bytes := by
    intro name' bytes hsome
    rcases hheld with hnone | ⟨file, hfile, hclosed, hfileHeld⟩
    · rw [hnone] at hsome
      cases hsome
    · rw [hfileHeld] at hsome
      cases hsome
      exact ⟨rfl, file, hfile, hclosed, rfl⟩
  obtain ⟨hbefore, hlater, hordered⟩ := traces_grow op outcome h hkeeps
  refine ⟨⟨?_, ?_⟩, ?_, ?_, hbefore, hlater, hordered⟩
  · intro name' file hfile
    rw [hfiles] at hfile
    rcases eq_or_ne name' name with rfl | hne
    · rw [Function.update_self] at hfile
      exact (hsound file hfile).1
    · rw [Function.update_of_ne hne] at hfile
      exact h.sound.fragment hfile
  · intro name' file hfile
    rw [hfiles] at hfile
    rcases eq_or_ne name' name with rfl | hne
    · rw [Function.update_self] at hfile
      exact (hsound file hfile).2
    · rw [Function.update_of_ne hne] at hfile
      exact h.sound.whole hfile
  · intro other hother name' bytes hsome
    rw [hfiles]
    have hcases : other ∈ before ∨ other ∈ after ∨ other = trace ++ [⟨disk, op, outcome⟩] := by
      rcases List.mem_append.mp hother with hother | hother
      · exact .inl hother
      · rcases List.mem_cons.mp hother with hother | hother
        · exact .inr (.inr hother)
        · exact .inr (.inl hother)
    rcases hcases with hother | hother | rfl
    · rw [Function.update_of_ne (hothers other (.inl hother) _ _ hsome)]
      exact h.owned other (by simp [hother]) _ _ hsome
    · rw [Function.update_of_ne (hothers other (.inr hother) _ _ hsome)]
      exact h.owned other (by simp [hother]) _ _ hsome
    · obtain ⟨rfl, file, hfile, hclosed, hcontent⟩ := hnew _ _ hsome
      rw [Function.update_self]
      exact ⟨file, hfile, hclosed, hcontent⟩
  · have hapart := h.apart
    rw [List.pairwise_append, List.pairwise_cons] at hapart ⊢
    obtain ⟨hleft, ⟨-, hright⟩, hcross⟩ := hapart
    refine ⟨hleft, ⟨?_, hright⟩, ?_⟩
    · intro other hother name' bytes name'' bytes' hsome hsome'
      rw [(hnew _ _ hsome).1]
      exact (hothers other (.inr hother) _ _ hsome').symm
    · intro other hother later hlater
      rcases List.mem_cons.mp hlater with rfl | hlater
      · intro name' bytes name'' bytes' hsome hsome'
        rw [(hnew _ _ hsome').1]
        exact hothers other (.inl hother) _ _ hsome
      · exact hcross other hother later (List.mem_cons_of_mem _ hlater)

/-- **The rule of writers.** -/
theorem exec [DecidableEq κ] (h : Kept C disk (before ++ trace :: after)) (hwrites : Writes C trace op)
    (hexec : Exec disk op outcome disk') :
    Kept C disk' (before ++ (trace ++ [⟨disk, op, outcome⟩]) :: after) := by
  have hmem : trace ∈ before ++ trace :: after := by simp
  cases hexec with
  | created hnone =>
    refine h.change rfl ?_ (.inl hnone) ?_ (.inr ⟨_, rfl, rfl, ?_⟩)
    · intro file hfile
      rw [hnone] at hfile
      cases hfile
    · rintro file ⟨⟩
      exact ⟨hwrites.2.1, by simp⟩
    · rw [held_concat]
      rfl
  | appended name byte =>
    obtain ⟨bytes, hheld, hfragment⟩ := hwrites
    obtain ⟨file, hfile, hopen, rfl⟩ := h.owned trace hmem _ _ hheld
    rw [Disk.append_of_open byte hfile hopen]
    refine h.change (Disk.files_set _ _ _) ?_ (.inr ⟨_, hheld⟩) ?_ (.inr ⟨_, rfl, hopen, ?_⟩)
    · intro other hother
      rw [hfile] at hother
      cases hother
      exact hopen
    · rintro other ⟨⟩
      exact ⟨hfragment, by simp [hopen]⟩
    · rw [held_concat, hheld]
      rfl
  | closed name =>
    obtain ⟨bytes, hheld, hwhole⟩ := hwrites
    obtain ⟨file, hfile, hopen, rfl⟩ := h.owned trace hmem _ _ hheld
    rw [Disk.close_of_some hfile]
    refine h.change (Disk.files_set _ _ _) ?_ (.inr ⟨_, hheld⟩) ?_ (.inl ?_)
    · intro other hother
      rw [hfile] at hother
      cases hother
      exact hopen
    · rintro other ⟨⟩
      have hfragment := h.sound.fragment hfile
      exact ⟨hfragment, fun _ => hwhole⟩
    · rw [held_concat]
      rfl
  | @unlinked name _ =>
    obtain ⟨bytes, hheld⟩ := hwrites
    obtain ⟨file, hfile, hopen, -⟩ := h.owned trace hmem _ _ hheld
    refine h.change (Disk.files_set _ _ _) ?_ (.inr ⟨_, hheld⟩) (by simp) (.inl ?_)
    · intro other hother
      rw [hfile] at hother
      cases hother
      exact hopen
    · rw [held_concat]
      rfl
  | @notFound name hnone =>
    obtain ⟨bytes, hheld⟩ := hwrites
    obtain ⟨file, hfile, -⟩ := h.owned trace hmem _ _ hheld
    rw [hnone] at hfile
    cases hfile
  | linked => exact hwrites.elim
  | notLinked => exact hwrites.elim
  | _ =>
    refine h.same ?_
    rw [held_concat]
    rfl

end Exec

end Kept

end IouAi.Files
