import IouAi.Storage.CreateOnly

/-!
# Create-only stores, one call after the other

A program that runs by itself to its end has a result and leaves a disk (`Completes`). A call that
stores an item then does one of three things: it writes the whole file, it finds the file that is
there, or it fails and leaves the files as they were (`completes_createOnly`). A reader gets what the
files say (`completes_readAll`).
-/

namespace IouAi.Storage

open Files Threads

/-! ## Programs that run by themselves -/

section Completes

variable {σ Op α β : Type} {Result : Op → Type} {S : Semantics σ Op Result}

/-- The program, started in a state, ends with a value and leaves another state. -/
def Completes (S : Semantics σ Op Result) (program : Program Op Result α) (s : σ) (value : α)
    (s' : σ) : Prop :=
  ∃ entries, Leads S program s (.done value) s' entries

@[simp] theorem completes_done {a value : α} {s s' : σ} :
    Completes S (.done a) s value s' ↔ value = a ∧ s' = s := by
  constructor
  · rintro ⟨entries, h⟩
    cases h
    exact ⟨rfl, rfl⟩
  · rintro ⟨rfl, rfl⟩
    exact ⟨[], .refl _ _⟩

theorem completes_call {op : Op} {next : Result op → Program Op Result α} {value : α} {s s' : σ} :
    Completes S (.call op next) s value s'
      ↔ ∃ outcome s₁, S.exec s op outcome s₁ ∧ Completes S (next outcome) s₁ value s' := by
  constructor
  · rintro ⟨entries, h⟩
    cases h with
    | call hexec hrest => exact ⟨_, _, hexec, _, hrest⟩
  · rintro ⟨outcome, s₁, hexec, entries, hrest⟩
    exact ⟨_, .call hexec hrest⟩

theorem completes_bind {program : Program Op Result α} {f : α → Program Op Result β} {value : β}
    {s s' : σ} :
    Completes S (program >>= f) s value s'
      ↔ ∃ a s₁, Completes S program s a s₁ ∧ Completes S (f a) s₁ value s' := by
  induction program generalizing s with
  | done a =>
    simp only [Program.done_bind, completes_done]
    constructor
    · exact fun h => ⟨a, s, ⟨rfl, rfl⟩, h⟩
    · rintro ⟨_, _, ⟨rfl, rfl⟩, h⟩
      exact h
  | call op next ih =>
    simp only [Program.call_bind, completes_call, ih]
    constructor
    · rintro ⟨outcome, s₁, hexec, a, s₂, hnext, h⟩
      exact ⟨a, s₂, ⟨outcome, s₁, hexec, hnext⟩, h⟩
    · rintro ⟨a, s₂, ⟨outcome, s₁, hexec, hnext⟩, h⟩
      exact ⟨outcome, s₁, hexec, a, s₂, hnext, h⟩

end Completes

/-! ## The write of an item -/

section Items

variable {κ α ε : Type} [DecidableEq κ] {shelf : Shelf κ α ε} {disk disk' : Disk κ} {name : κ}

/-- A file that is written while nobody else is at work changes alone; when the writing succeeds,
all bytes are there. -/
theorem completes_writeAll {payload : List UInt8} {written : Bool} {file : File}
    (hfile : disk.files name = some file) (hopen : file.closed = false)
    (h : Completes semantics (writeAll name payload) disk written disk') :
    ∃ file', disk'.files = Function.update disk.files name (some file') ∧
      (written = true → file'.content = file.content ++ payload) := by
  induction payload generalizing disk file with
  | nil =>
    obtain ⟨outcome, s₁, hexec, hdone⟩ := completes_call.mp h
    obtain ⟨rfl, rfl⟩ := completes_done.mp hdone
    cases hexec with
    | closed =>
      refine ⟨{ file with closed := true }, ?_, fun _ => (List.append_nil _).symm⟩
      rw [Disk.close_of_some hfile, Disk.files_set]
    | closeRaised =>
      refine ⟨file, ?_, fun hfalse => nomatch hfalse⟩
      rw [← hfile, Function.update_eq_self]
  | cons byte payload ih =>
    obtain ⟨outcome, s₁, hexec, hrest⟩ := completes_call.mp h
    cases hexec with
    | appended =>
      rw [Disk.append_of_open byte hfile hopen] at hrest
      obtain ⟨file', hfiles, hcontent⟩ := @ih (disk.set name _)
        { file with content := file.content ++ [byte], modified := disk.clock }
        (Function.update_self _ _ _) hopen hrest
      refine ⟨file', ?_, fun htrue => ?_⟩
      · rw [hfiles, Disk.files_set, Function.update_idem]
      · rw [hcontent htrue, List.append_assoc, List.singleton_append]
    | appendRaised =>
      obtain ⟨rfl, rfl⟩ := completes_done.mp hrest
      refine ⟨file, ?_, fun hfalse => nomatch hfalse⟩
      rw [← hfile, Function.update_eq_self]

/-- How `createOnly` ends when nobody else is at work. -/
inductive Creates (shelf : Shelf κ α ε) (item : α) (disk disk' : Disk κ) : Except ε Unit → Prop
  | stored {file : File} (hfree : disk.files (shelf.nameOf item) = none)
      (hfiles : disk'.files = Function.update disk.files (shelf.nameOf item) (some file))
      (hcontent : file.content = shelf.payload item) : Creates shelf item disk disk' (.ok ())
  | raised (hfiles : disk'.files = disk.files) :
      Creates shelf item disk disk' (.error shelf.interrupted)
  | found {file : File} (hfile : disk.files (shelf.nameOf item) = some file)
      (hfiles : disk'.files = disk.files) :
      Creates shelf item disk disk' (shelf.recheck item (some file.content))

theorem completes_createOnly {item : α} {result : Except ε Unit}
    (h : Completes semantics (createOnly shelf item) disk result disk') :
    Creates shelf item disk disk' result := by
  obtain ⟨created, s₁, hexec, h⟩ := completes_call.mp h
  cases hexec with
  | created hfree =>
    have hbind : Completes semantics (writeOrRemove (shelf.nameOf item) (shelf.payload item) >>=
        fun written => .done (if written then .ok () else .error shelf.interrupted)) _ result
        disk' := h
    obtain ⟨written, s₂, hwrite, hdone⟩ := completes_bind.mp hbind
    obtain ⟨rfl, rfl⟩ := completes_done.mp hdone
    obtain ⟨written', s₃, hwriteAll, hend⟩ := completes_bind.mp hwrite
    obtain ⟨file, hfiles, hcontent⟩ :=
      completes_writeAll (Function.update_self _ _ _) rfl hwriteAll
    rw [Disk.files_create, Function.update_idem] at hfiles
    cases written' with
    | true =>
      obtain ⟨rfl, rfl⟩ := completes_done.mp hend
      exact .stored hfree hfiles (hcontent rfl)
    | false =>
      -- what raises removes the file
      obtain ⟨outcome, s₄, hunlink, hdone⟩ := completes_call.mp hend
      obtain ⟨rfl, rfl⟩ := completes_done.mp hdone
      refine .raised ?_
      have hsome : s₃.files (shelf.nameOf item) = some file := by
        rw [hfiles, Function.update_self]
      cases hunlink with
      | unlinked =>
        rw [Disk.files_set, hfiles, Function.update_idem, ← hfree, Function.update_eq_self]
      | notFound hnone => simp [hnone] at hsome
  | «exists» hsome =>
    obtain ⟨existing, s₂, hexec, hdone⟩ := completes_call.mp h
    obtain ⟨rfl, rfl⟩ := completes_done.mp hdone
    obtain ⟨file, hfile⟩ := Option.isSome_iff_exists.mp hsome
    cases hexec
    rw [hfile]
    exact .found hfile rfl

/-! ## Readers -/

/-- What a reader makes of a file. -/
def reading (shelf : Shelf κ α ε) (disk : Disk κ) (name : κ) : Except ε α :=
  shelf.decode name ((disk.files name).map File.content)

/-- A read goes on with the content of the file, and leaves the disk as it is. -/
theorem completes_read_bind {α : Type} {name : κ} {next : Option (List UInt8) → FileProgram κ α}
    {result : α} :
    Completes semantics (FileProgram.read name >>= next) disk result disk'
      ↔ Completes semantics (next ((disk.files name).map File.content)) disk result disk' := by
  refine Iff.trans (b := ∃ outcome s₁, Exec disk (.read name) outcome s₁ ∧
    Completes semantics (next outcome) s₁ result disk') completes_call ?_
  constructor
  · rintro ⟨outcome, s₁, hexec, h⟩
    cases hexec
    exact h
  · intro h
    exact ⟨_, _, .read _ _, h⟩

theorem completes_readItems {names : List κ} {result : Except ε (List α)} :
    Completes semantics (readItems shelf names) disk result disk'
      ↔ result = names.mapM (reading shelf disk) ∧ disk' = disk := by
  induction names generalizing result disk' with
  | nil => exact completes_done
  | cons name names ih =>
    rw [readItems, completes_read_bind, List.mapM_cons]
    cases hdecode : reading shelf disk name with
    | error error =>
      rw [show shelf.decode name _ = _ from hdecode]
      exact completes_done
    | ok item =>
      have hmap : ∀ result : Except ε (List α), result.map (fun items => item :: items)
          = (do
            let items ← result
            pure (item :: items)) := by
        intro result
        cases result <;> rfl
      rw [show shelf.decode name _ = _ from hdecode]
      constructor
      · intro h
        obtain ⟨items, s₂, hitems, hdone⟩ := completes_bind.mp h
        obtain ⟨rfl, rfl⟩ := ih.mp hitems
        obtain ⟨rfl, rfl⟩ := completes_done.mp hdone
        exact ⟨hmap _, rfl⟩
      · rintro ⟨rfl, rfl⟩
        exact completes_bind.mpr ⟨_, _, ih.mpr ⟨rfl, rfl⟩, completes_done.mpr ⟨(hmap _).symm, rfl⟩⟩

/-- A reader of a store without a limit gets what the files say, in the order of the store. -/
theorem completes_readAll (hlimit : shelf.limit = none) {result : Except ε (List α)} :
    Completes semantics (readAll shelf) disk result disk'
      ↔ ∃ names : List κ, names.Nodup ∧ (∀ name, name ∈ names ↔ (disk.files name).isSome) ∧
        result = (shelf.order names).mapM (reading shelf disk) ∧ disk' = disk := by
  have hlimited : ∀ names, readLimited shelf names = readItems shelf names := by
    intro names
    rw [readLimited, hlimit]
  have hcall : Completes semantics (readAll shelf) disk result disk'
      ↔ ∃ outcome s₁, Exec disk .list outcome s₁ ∧
        Completes semantics (readLimited shelf (shelf.order outcome)) s₁ result disk' :=
    completes_call
  rw [hcall]
  simp only [hlimited, completes_readItems]
  constructor
  · rintro ⟨names, s₁, hexec, rfl, rfl⟩
    cases hexec with
    | list hnodup hnames => exact ⟨names, hnodup, hnames, rfl, rfl⟩
  · rintro ⟨names, hnodup, hnames, rfl, rfl⟩
    exact ⟨names, _, .list hnodup hnames, rfl, rfl⟩

/-- How a visit ends when nobody else is at work: it fails to read, it makes up its mind not to
store, or it stores the item. -/
theorem completes_visit (hlimit : shelf.limit = none) {decide : List α → Except ε (Option α)}
    {result : Except ε (List α)} :
    Completes semantics (visit shelf decide) disk result disk'
      ↔ ∃ names : List κ, names.Nodup ∧ (∀ name, name ∈ names ↔ (disk.files name).isSome) ∧
        match (shelf.order names).mapM (reading shelf disk) with
        | .error error => result = .error error ∧ disk' = disk
        | .ok found =>
          match decide found with
          | .error error => result = .error error ∧ disk' = disk
          | .ok none => result = .ok found ∧ disk' = disk
          | .ok (some item) => Completes semantics (putItem shelf item) disk result disk' := by
  have hbind : Completes semantics (visit shelf decide) disk result disk'
      ↔ ∃ found s₁, Completes semantics (readAll shelf) disk found s₁ ∧
        Completes semantics (match found with
          | .error error => .done (.error error)
          | .ok found =>
            match decide found with
            | .error error => .done (.error error)
            | .ok none => .done (.ok found)
            | .ok (some item) => putItem shelf item) s₁ result disk' := completes_bind
  rw [hbind]
  simp only [completes_readAll hlimit]
  constructor
  · rintro ⟨found, s₁, ⟨names, hnodup, hnames, rfl, rfl⟩, h⟩
    refine ⟨names, hnodup, hnames, ?_⟩
    split at h
    · exact completes_done.mp h
    · split at h
      · exact completes_done.mp h
      · exact completes_done.mp h
      · exact h
  · rintro ⟨names, hnodup, hnames, h⟩
    refine ⟨_, _, ⟨names, hnodup, hnames, rfl, rfl⟩, ?_⟩
    split at h
    · exact completes_done.mpr h
    · split at h
      · exact completes_done.mpr h
      · exact completes_done.mpr h
      · exact h

end Items

end IouAi.Storage
