import IouAi.Storage.Sequential
import Mathlib.Data.Set.Finite.Lattice

/-!
# Create-only stores whose calls are cut off

A call that is killed stops at one of its operations and leaves the disk that it has made so far
(`Leaves`). What a sequence of programs may leave is what the first one may leave, or what the second
one may leave after the first has ended (`leaves_bind`). A call that stores a file leaves the disk as
it was, or with a new file that holds a beginning of what was to be written
(`leaves_createOrCompare`); readers leave it as it was. A call that meets no bad file can also go
through (`createOrCompare_succeeds_iff`).
-/

namespace IouAi.Storage

open Files Threads

/-! ## Programs that are stopped -/

section Leaves

variable {σ Op α β : Type} {Result : Op → Type} {S : Semantics σ Op Result}

/-- The program, started in a state, stops there or at a later operation, or ends; then the state is
another one. -/
def Leaves (S : Semantics σ Op Result) (program : Program Op Result α) (s s' : σ) : Prop :=
  ∃ rest entries, Leads S program s rest s' entries

theorem Leaves.refl (program : Program Op Result α) (s : σ) : Leaves S program s s :=
  ⟨program, [], .refl _ _⟩

theorem Completes.leaves {program : Program Op Result α} {s s' : σ} {value : α}
    (h : Completes S program s value s') : Leaves S program s s' :=
  ⟨.done value, h⟩

/-- A program that runs by itself under a function that performs its operations ends. -/
theorem completes_play {act : (s : σ) → (op : Op) → Result op × σ}
    (hact : ∀ s op, S.exec s op (act s op).1 (act s op).2) (program : Program Op Result α) (s : σ)
    (trace : List (Entry σ Op Result)) :
    Completes S program s (program.play act s trace).1 (program.play act s trace).2.1 := by
  induction program generalizing s trace with
  | done value => exact completes_done.mpr ⟨rfl, rfl⟩
  | call op next ih => exact completes_call.mpr ⟨_, _, hact s op, ih _ _ _⟩

@[simp] theorem leaves_done {a : α} {s s' : σ} :
    Leaves S (.done a : Program Op Result α) s s' ↔ s' = s := by
  constructor
  · rintro ⟨rest, entries, h⟩
    cases h
    rfl
  · rintro rfl
    exact .refl _ _

theorem leaves_call {op : Op} {next : Result op → Program Op Result α} {s s' : σ} :
    Leaves S (.call op next) s s'
      ↔ s' = s ∨ ∃ outcome s₁, S.exec s op outcome s₁ ∧ Leaves S (next outcome) s₁ s' := by
  constructor
  · rintro ⟨rest, entries, h⟩
    cases h with
    | refl => exact .inl rfl
    | call hexec hrest => exact .inr ⟨_, _, hexec, _, _, hrest⟩
  · rintro (rfl | ⟨outcome, s₁, hexec, rest, entries, hrest⟩)
    · exact .refl _ _
    · exact ⟨_, _, .call hexec hrest⟩

theorem leaves_bind {program : Program Op Result α} {f : α → Program Op Result β} {s s' : σ} :
    Leaves S (program >>= f) s s'
      ↔ Leaves S program s s' ∨ ∃ a s₁, Completes S program s a s₁ ∧ Leaves S (f a) s₁ s' := by
  induction program generalizing s with
  | done a =>
    simp only [Program.done_bind, leaves_done, completes_done]
    constructor
    · exact fun h => .inr ⟨a, s, ⟨rfl, rfl⟩, h⟩
    · rintro (rfl | ⟨_, _, ⟨rfl, rfl⟩, h⟩)
      · exact .refl _ _
      · exact h
  | call op next ih =>
    simp only [Program.call_bind, leaves_call, completes_call, ih]
    constructor
    · rintro (rfl | ⟨outcome, s₁, hexec, h | ⟨a, s₂, hnext, h⟩⟩)
      · exact .inl (.inl rfl)
      · exact .inl (.inr ⟨outcome, s₁, hexec, h⟩)
      · exact .inr ⟨a, s₂, ⟨outcome, s₁, hexec, hnext⟩, h⟩
    · rintro ((rfl | ⟨outcome, s₁, hexec, h⟩) | ⟨a, s₂, ⟨outcome, s₁, hexec, hnext⟩, h⟩)
      · exact .inl rfl
      · exact .inr ⟨outcome, s₁, hexec, .inl h⟩
      · exact .inr ⟨outcome, s₁, hexec, .inr ⟨a, s₂, hnext, h⟩⟩

theorem only_true (program : Program Op Result α) : program.Only fun _ => True := by
  induction program with
  | done a => exact trivial
  | call op next ih => exact ⟨trivial, ih⟩

/-- What the operations of a program keep, the program keeps wherever it stops. -/
theorem Leaves.preserves {P : σ → Prop} {allowed : Op → Prop}
    (hallowed : ∀ op outcome s s', allowed op → S.exec s op outcome s' → P s → P s')
    {program : Program Op Result α} (honly : program.Only allowed) {s s' : σ}
    (h : Leaves S program s s') (hs : P s) : P s' := by
  induction program generalizing s with
  | done a => rwa [leaves_done.mp h]
  | call op next ih =>
    rcases leaves_call.mp h with rfl | ⟨outcome, s₁, hexec, hnext⟩
    · exact hs
    · exact ih outcome (honly.2 outcome) hnext (hallowed op outcome s s₁ honly.1 hexec hs)

end Leaves

/-! ## Calls of a store -/

section Items

variable {κ α ε : Type} [DecidableEq κ] {shelf : Shelf κ α ε} {disk disk' : Disk κ} {name : κ}

theorem eq_of_isLook {op : FileOp κ} {outcome : op.Result} (hop : isLook op = true)
    (h : Exec disk op outcome disk') : disk' = disk := by
  cases h <;> first | rfl | exact absurd hop Bool.false_ne_true

omit [DecidableEq κ] in
theorem only_readItems (names : List κ) :
    (readItems shelf names).Only fun op => isLook op = true := by
  induction names with
  | nil => exact trivial
  | cons name names ih =>
    unfold readItems
    refine Program.Only.bind ⟨rfl, fun _ => trivial⟩ fun bytes? => ?_
    split
    · exact trivial
    · exact ih.bind fun _ => trivial

/-- A file has grown by a beginning of what is written to it, and no other file has changed. -/
def Grown (disk disk' : Disk κ) (name : κ) (file : File) (payload : List UInt8) : Prop :=
  ∃ file' start, disk'.files = Function.update disk.files name (some file') ∧
    file'.content = file.content ++ start ∧ start <+: payload

theorem Grown.refl {file : File} (hfile : disk.files name = some file) (payload : List UInt8) :
    Grown disk disk name file payload := by
  refine ⟨file, [], ?_, (List.append_nil _).symm, List.nil_prefix⟩
  rw [← hfile, Function.update_eq_self]

/-- What is left of a file whose writing stops: it has grown. -/
theorem leaves_writeAll {payload : List UInt8} {file : File} (hfile : disk.files name = some file)
    (hopen : file.closed = false) (h : Leaves semantics (writeAll name payload) disk disk') :
    Grown disk disk' name file payload := by
  induction payload generalizing disk file with
  | nil =>
    rcases leaves_call.mp h with rfl | ⟨outcome, s₁, hexec, hdone⟩
    · exact .refl hfile _
    · obtain rfl := leaves_done.mp hdone
      cases hexec with
      | closed =>
        refine ⟨{ file with closed := true }, [], ?_, (List.append_nil _).symm, List.nil_prefix⟩
        rw [Disk.close_of_some hfile, Disk.files_set]
      | closeRaised => exact .refl hfile _
  | cons byte payload ih =>
    rcases leaves_call.mp h with rfl | ⟨outcome, s₁, hexec, hrest⟩
    · exact .refl hfile _
    · cases hexec with
      | appended =>
        rw [Disk.append_of_open byte hfile hopen] at hrest
        obtain ⟨file', start, hfiles, hcontent, hstart⟩ := @ih (disk.set name _)
          { file with content := file.content ++ [byte], modified := disk.clock }
          (Function.update_self _ _ _) hopen hrest
        refine ⟨file', byte :: start, ?_, ?_, (List.prefix_cons_inj byte).mpr hstart⟩
        · rw [hfiles, Disk.files_set, Function.update_idem]
        · rw [hcontent, List.append_assoc, List.singleton_append]
      | appendRaised =>
        rw [leaves_done.mp hrest]
        exact .refl hfile _

/-! ## New files -/

/-- Create a file and write it, or look at the file that is there. The result says whether the file
is new. -/
def createOrCompare (name : κ) (payload : List UInt8)
    (recheck : Option (List UInt8) → Except ε Unit) (interrupted : ε) :
    FileProgram κ (Except ε Bool) := do
  let created ← FileProgram.create name
  if created then
    let written ← writeOrRemove name payload
    return if written then .ok true else .error interrupted
  else
    let existing ← FileProgram.read name
    return (recheck existing).map fun _ => false

variable {payload : List UInt8} {recheck : Option (List UInt8) → Except ε Unit} {interrupted : ε}

/-- How `createOrCompare` ends when nobody else is at work. -/
inductive Created (disk disk' : Disk κ) (name : κ) (payload : List UInt8)
    (recheck : Option (List UInt8) → Except ε Unit) (interrupted : ε) : Except ε Bool → Prop
  | created {file : File} (hfree : disk.files name = none)
      (hfiles : disk'.files = Function.update disk.files name (some file))
      (hcontent : file.content = payload) :
      Created disk disk' name payload recheck interrupted (.ok true)
  | raised (hfiles : disk'.files = disk.files) :
      Created disk disk' name payload recheck interrupted (.error interrupted)
  | found {file : File} (hfile : disk.files name = some file) (hfiles : disk'.files = disk.files) :
      Created disk disk' name payload recheck interrupted
        ((recheck (some file.content)).map fun _ => false)

theorem completes_createOrCompare {result : Except ε Bool}
    (h : Completes semantics (createOrCompare name payload recheck interrupted) disk result disk') :
    Created disk disk' name payload recheck interrupted result := by
  obtain ⟨created, s₁, hexec, h⟩ := completes_call.mp h
  cases hexec with
  | created hfree =>
    obtain ⟨written, s₂, hwrite, hdone⟩ := completes_bind.mp (show Completes semantics
      (writeOrRemove name payload >>= fun written =>
        .done (if written then .ok true else .error interrupted)) _ result disk' from h)
    obtain ⟨rfl, rfl⟩ := completes_done.mp hdone
    obtain ⟨written', s₃, hwriteAll, hend⟩ := completes_bind.mp hwrite
    obtain ⟨file, hfiles, hcontent⟩ :=
      completes_writeAll (Function.update_self _ _ _) rfl hwriteAll
    rw [Disk.files_create, Function.update_idem] at hfiles
    cases written' with
    | true =>
      obtain ⟨rfl, rfl⟩ := completes_done.mp hend
      exact .created hfree hfiles (hcontent rfl)
    | false =>
      obtain ⟨outcome, s₄, hunlink, hdone⟩ := completes_call.mp hend
      obtain ⟨rfl, rfl⟩ := completes_done.mp hdone
      refine .raised ?_
      cases hunlink with
      | unlinked =>
        rw [Disk.files_set, hfiles, Function.update_idem, ← hfree, Function.update_eq_self]
      | notFound hnone => simp [hfiles] at hnone
  | «exists» hsome =>
    obtain ⟨existing, s₂, hexec, hdone⟩ := completes_call.mp h
    obtain ⟨rfl, rfl⟩ := completes_done.mp hdone
    obtain ⟨file, hfile⟩ := Option.isSome_iff_exists.mp hsome
    cases hexec
    rw [hfile]
    exact .found hfile rfl

/-- What a call that stores a file leaves: the disk as it was, or with a new file that holds a
beginning of the text. -/
inductive Begun (disk disk' : Disk κ) (name : κ) (payload : List UInt8) : Prop
  | same (hfiles : disk'.files = disk.files)
  | begun {file : File} (hfree : disk.files name = none)
      (hfiles : disk'.files = Function.update disk.files name (some file))
      (hcontent : file.content <+: payload)

/-- A write that stops leaves a beginning of the file or has removed it. -/
theorem leaves_writeOrRemove (hfree : disk.files name = none)
    (h : Leaves semantics (writeOrRemove name payload) (disk.create name) disk') :
    Begun disk disk' name payload := by
  have hgrown : ∀ {later}, Leaves semantics (writeAll name payload) (disk.create name) later →
      ∃ file, later.files = Function.update disk.files name (some file) ∧
        file.content <+: payload := by
    intro later hwrite
    obtain ⟨file, start, hfiles, hcontent, hstart⟩ :=
      leaves_writeAll (Function.update_self _ _ _) rfl hwrite
    rw [Disk.files_create, Function.update_idem] at hfiles
    refine ⟨file, hfiles, ?_⟩
    rwa [hcontent, List.nil_append]
  rcases leaves_bind.mp h with hwrite | ⟨written, s₁, hwrite, hend⟩
  · obtain ⟨file, hfiles, hcontent⟩ := hgrown hwrite
    exact .begun hfree hfiles hcontent
  · obtain ⟨file, hfiles, hcontent⟩ := hgrown hwrite.leaves
    cases written with
    | true =>
      rw [leaves_done.mp hend]
      exact .begun hfree hfiles hcontent
    | false =>
      rcases leaves_call.mp hend with rfl | ⟨outcome, s₂, hunlink, hdone⟩
      · exact .begun hfree hfiles hcontent
      · rw [leaves_done.mp hdone]
        refine .same ?_
        cases hunlink with
        | unlinked =>
          rw [Disk.files_set, hfiles, Function.update_idem, ← hfree, Function.update_eq_self]
        | notFound hnone => simp [hfiles] at hnone

theorem leaves_createOrCompare
    (h : Leaves semantics (createOrCompare name payload recheck interrupted) disk disk') :
    Begun disk disk' name payload := by
  rcases leaves_call.mp h with rfl | ⟨created, s₁, hexec, h⟩
  · exact .same rfl
  · cases hexec with
    | created hfree =>
      rcases leaves_bind.mp (show Leaves semantics (writeOrRemove name payload >>= fun written =>
        .done (if written then .ok true else .error interrupted : Except ε Bool)) _ disk' from h)
        with hwrite | ⟨written, s₂, hwrite, hdone⟩
      · exact leaves_writeOrRemove hfree hwrite
      · rw [leaves_done.mp hdone]
        exact leaves_writeOrRemove hfree hwrite.leaves
    | «exists» hsome =>
      rcases leaves_call.mp h with rfl | ⟨existing, s₂, hexec, hdone⟩
      · exact .same rfl
      · rw [leaves_done.mp hdone, eq_of_isLook rfl hexec]
        exact .same rfl

/-! ## Disks that only get new files -/

/-- A disk has the files of another one and new ones of a kind. -/
def Adds (P : κ → List UInt8 → Prop) (disk disk' : Disk κ) : Prop :=
  ∀ name, disk'.files name = disk.files name ∨
    disk.files name = none ∧ ∃ file, disk'.files name = some file ∧ P name file.content

section Adds

variable {P Q : κ → List UInt8 → Prop}

omit [DecidableEq κ] in
theorem Adds.of_files (h : disk'.files = disk.files) : Adds P disk disk' :=
  fun name => .inl (congrFun h name)

omit [DecidableEq κ] in
theorem Adds.keeps {disk disk' : Disk κ} (h : Adds P disk disk') {name : κ} {file : File}
    (hfile : disk.files name = some file) : disk'.files name = some file := by
  rcases h name with hsame | ⟨hfree, -⟩
  · rw [hsame, hfile]
  · rw [hfree] at hfile
    cases hfile

omit [DecidableEq κ] in
theorem Adds.trans {disk₁ disk₂ disk₃ : Disk κ} (h : Adds P disk₁ disk₂) (h' : Adds P disk₂ disk₃) :
    Adds P disk₁ disk₃ := by
  intro name
  rcases h name with hsame | ⟨hfree, file, hfile, hcontent⟩
  · rw [← hsame]
    exact h' name
  · exact .inr ⟨hfree, file, h'.keeps hfile, hcontent⟩

omit [DecidableEq κ] in
theorem Adds.mono (h : Adds P disk disk') (hPQ : ∀ name bytes, P name bytes → Q name bytes) :
    Adds Q disk disk' :=
  fun name => (h name).imp_right fun ⟨hfree, file, hfile, hcontent⟩ =>
    ⟨hfree, file, hfile, hPQ _ _ hcontent⟩

theorem Begun.adds (h : Begun disk disk' name payload)
    (hP : ∀ start, start <+: payload → P name start) : Adds P disk disk' := by
  cases h with
  | same hfiles => exact .of_files hfiles
  | @begun file hfree hfiles hcontent =>
    intro other
    rw [hfiles]
    rcases eq_or_ne other name with rfl | hne
    · rw [Function.update_self]
      exact .inr ⟨hfree, file, rfl, hP _ hcontent⟩
    · rw [Function.update_of_ne hne]
      exact .inl rfl

end Adds

/-! ## Calls that go through -/

/-- The directory can be listed. -/
def Listable (disk : Disk κ) : Prop := {name | (disk.files name).isSome = true}.Finite

omit [DecidableEq κ] in
theorem listable_empty : Listable (Disk.empty : Disk κ) := by
  simp [Listable, Disk.empty]

omit [DecidableEq κ] in
theorem Listable.exists_names (h : Listable disk) : ∃ names : List κ, names.Nodup ∧
    ∀ name, name ∈ names ↔ (disk.files name).isSome := by
  refine ⟨h.toFinset.toList, Finset.nodup_toList _, fun name => ?_⟩
  rw [Finset.mem_toList, h.mem_toFinset]
  rfl

theorem Listable.update (h : Listable disk) {name : κ} {file? : Option File}
    (hfiles : disk'.files = Function.update disk.files name file?) : Listable disk' := by
  refine (h.insert name).subset fun other hother => ?_
  rcases eq_or_ne other name with rfl | hne
  · exact Set.mem_insert _ _
  · rw [Set.mem_ofPred_eq, hfiles, Function.update_of_ne hne] at hother
    exact Set.mem_insert_of_mem _ hother

theorem Listable.exec (h : Listable disk) {op : FileOp κ} {outcome : op.Result}
    (hexec : Exec disk op outcome disk') : Listable disk' := by
  cases hexec with
  | created | linked | unlinked => exact h.update rfl
  | appended name byte =>
    unfold Disk.append
    split
    · split
      · exact h
      · exact h.update rfl
    · exact h
  | closed name =>
    unfold Disk.close
    split
    · exact h.update rfl
    · exact h
  | now | «exists» | appendRaised | closeRaised | notLinked | notFound | list | read | stat => exact h

theorem Leaves.listable {program : FileProgram κ α} (h : Leaves semantics program disk disk')
    (hdisk : Listable disk) : Listable disk' :=
  h.preserves (fun _ _ _ _ _ (hexec : Exec _ _ _ _) hlist => hlist.exec hexec) (only_true program)
    hdisk

/-- A call that stores a file can go through, unless it finds a file that it refuses. -/
theorem createOrCompare_succeeds_iff :
    (∃ created disk', Completes semantics (createOrCompare name payload recheck interrupted) disk
      (.ok created) disk')
      ↔ ∀ file, disk.files name = some file → recheck (some file.content) = .ok () := by
  constructor
  · rintro ⟨created, disk', h⟩ file hfile
    have hcreated := completes_createOrCompare h
    generalize hresult : (Except.ok created : Except ε Bool) = result at hcreated
    cases hcreated with
    | created hfree =>
      rw [hfree] at hfile
      cases hfile
    | raised => cases hresult
    | found hfound =>
      rw [hfile] at hfound
      cases hfound
      cases hrecheck : recheck (some file.content) with
      | error error =>
        rw [hrecheck] at hresult
        cases hresult
      | ok _ => rfl
  · intro hfound
    cases hfile : disk.files name with
    | none =>
      obtain ⟨file, disk', entries, hwrite, -⟩ :=
        leads_writeAll name payload (disk.create name) (Function.update_self _ _ _) rfl
      exact ⟨true, disk', _, .call (Exec.created hfile) ((hwrite.bind _).bind _)⟩
    | some file =>
      have hread : Exec disk (.read name) (some file.content) disk := by
        have hexec := Exec.read disk name
        rwa [hfile] at hexec
      refine ⟨false, disk, completes_call.mpr ⟨false, disk, .exists (by simp [hfile]), ?_⟩⟩
      refine completes_call.mpr ⟨_, disk, hread, completes_done.mpr ⟨?_, rfl⟩⟩
      rw [hfound file hfile]
      rfl

end Items

end IouAi.Storage
