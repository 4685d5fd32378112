import IouAi.Foundations.Files
import Mathlib.Data.List.Induction

/-!
# Create-only stores

The stores of the host keep one file for each item, named by the digest of its text. To store an
item is to create its file, which only one writer can do, and then to write it (`createOnly`); to
read the store is to list the directory and to verify one file after the other (`readAll`). Anybody
can look at a file before its writer is done with it.
-/

namespace IouAi.Storage

open Files Threads

/-- A directory of items: the text and the name of an item, what a reader makes of the file under a
name, what a writer makes of the file that it finds under the name of its item, the order in which a
reader takes the names, and how many it takes before it gives up. A reader and a writer may find no
file, although they have just seen it. -/
structure Shelf (κ α ε : Type) where
  payload : α → List UInt8
  nameOf : α → κ
  decode : κ → Option (List UInt8) → Except ε α
  recheck : α → Option (List UInt8) → Except ε Unit
  interrupted : ε
  order : List κ → List κ
  order_perm : ∀ names, (order names).Perm names
  limit : Option (ℕ × ε)

variable {κ α ε : Type}

/-! ## Programs -/

/-- Write the bytes one by one and close the file, unless something raises. -/
def writeAll (name : κ) : List UInt8 → FileProgram κ Bool
  | [] => FileProgram.close name
  | byte :: bytes => do
    let written ← FileProgram.append name byte
    if written then writeAll name bytes else return false

/-- Write a file that was just created. What raises removes the file. -/
def writeOrRemove (name : κ) (payload : List UInt8) : FileProgram κ Bool := do
  let written ← writeAll name payload
  if written then return true
  else
    let _ ← FileProgram.unlink name
    return false

/-- The end of every `put`: create the file of an item and write it, or look at the file that is
there. -/
def createOnly (shelf : Shelf κ α ε) (item : α) : FileProgram κ (Except ε Unit) := do
  let created ← FileProgram.create (shelf.nameOf item)
  if created then
    let written ← writeOrRemove (shelf.nameOf item) (shelf.payload item)
    return if written then .ok () else .error shelf.interrupted
  else
    let existing ← FileProgram.read (shelf.nameOf item)
    return shelf.recheck item existing

/-- Read the files under some names; the first bad one ends the reading. -/
def readItems (shelf : Shelf κ α ε) : List κ → FileProgram κ (Except ε (List α))
  | [] => return .ok []
  | name :: names => do
    let bytes? ← FileProgram.read name
    match shelf.decode name bytes? with
    | .error error => return .error error
    | .ok item =>
      let items ← readItems shelf names
      return items.map fun items => item :: items

/-- Read the files under some names, as many as the limit allows. -/
def readLimited (shelf : Shelf κ α ε) (names : List κ) : FileProgram κ (Except ε (List α)) :=
  match shelf.limit with
  | none => readItems shelf names
  | some (limit, tooMany) => do
    let items ← readItems shelf (names.take limit)
    return if limit < names.length then items.bind fun _ => .error tooMany else items

/-- Read the whole directory. -/
def readAll (shelf : Shelf κ α ε) : FileProgram κ (Except ε (List α)) := do
  let names ← FileProgram.list
  readLimited shelf (shelf.order names)

/-! ## What a thread has seen -/

/-- The operation reads the file under the name and finds these bytes. -/
def Met (entry : FileEntry κ) (name : κ) (bytes? : Option (List UInt8)) : Prop :=
  entry.op = .read name ∧ (entry.before.files name).map File.content = bytes?

/-- The operation lists the directory. -/
def Listed (entry : FileEntry κ) (names : List κ) : Prop :=
  entry.op = .list ∧ ∀ name, name ∈ names ↔ (entry.before.files name).isSome

/-- The operation finds the file of an item that it was to create. -/
def Found (entry : FileEntry κ) (name : κ) : Prop :=
  entry.op = .create name ∧ (entry.before.files name).isSome

/-- The write of a byte or the last flush raises. -/
def Raised : FileEntry κ → Prop
  | ⟨_, .append _ _, outcome⟩ => outcome = false
  | ⟨_, .close _, outcome⟩ => outcome = false
  | _ => False

/-- Operations that change no file and open none. -/
def isLook : FileOp κ → Bool
  | .now | .list | .read _ | .stat _ => true
  | _ => false

theorem holding_of_isLook {held? : Option (κ × List UInt8)} {op : FileOp κ} (h : isLook op = true)
    (outcome : op.Result) : holding held? op outcome = held? := by
  cases op <;> first | rfl | exact absurd h Bool.false_ne_true

theorem held_append_of_isLook (trace : List (FileEntry κ)) {rest : List (FileEntry κ)}
    (h : ∀ entry ∈ rest, isLook entry.op = true) : held (trace ++ rest) = held trace := by
  induction rest using List.reverseRecOn with
  | nil => rw [List.append_nil]
  | append_singleton rest entry ih =>
    rw [← List.append_assoc, held_concat, holding_of_isLook (h entry (by simp))]
    exact ih fun other hother => h other (List.mem_append_left _ hother)

/-- How `createOnly` ends: the item is stored, the write has raised, or there was a file. -/
def Ended (shelf : Shelf κ α ε) (item : α) (rest : List (FileEntry κ)) (result : Except ε Unit) :
    Prop :=
  result = .ok () ∨ (result = .error shelf.interrupted ∧ ∃ entry ∈ rest, Raised entry) ∨
    ∃ first later bytes?, rest = [first, later] ∧ Found first (shelf.nameOf item) ∧
      Met later (shelf.nameOf item) bytes? ∧ result = shelf.recheck item bytes?

/-- How a reading of some names ends: every file was decoded, or one of them was not. -/
def ReadFrom (shelf : Shelf κ α ε) (names : List κ) (rest : List (FileEntry κ)) :
    Except ε (List α) → Prop
  | .ok items => ∀ name ∈ names, ∃ entry ∈ rest, ∃ bytes?, Met entry name bytes? ∧
      ∃ item ∈ items, shelf.decode name bytes? = .ok item
  | .error error => ∃ name ∈ names, ∃ entry ∈ rest, ∃ bytes?, Met entry name bytes? ∧
      shelf.decode name bytes? = .error error

/-- The directory has more files than a reader takes. -/
def Exceeded (shelf : Shelf κ α ε) (result : Except ε (List α)) : Prop :=
  ∃ limit tooMany, shelf.limit = some (limit, tooMany) ∧ result = .error tooMany

/-- How a reading of the directory ends. -/
def ReadAll (shelf : Shelf κ α ε) (rest : List (FileEntry κ)) (result : Except ε (List α)) : Prop :=
  ∃ listing names reads, rest = listing :: reads ∧ Listed listing names ∧
    (∀ entry ∈ rest, isLook entry.op = true) ∧
      (ReadFrom shelf names reads result ∨ Exceeded shelf result)

/-! ## Safety of the programs -/

section Safety

variable [DecidableEq κ] {C : Conduct κ} {trace : List (FileEntry κ)} {disk : Disk κ}

theorem safe_look {β : Type} {post : β → List (FileEntry κ) → Prop} {op : FileOp κ}
    {next : op.Result → FileProgram κ β} (hop : isLook op = true)
    (hnext : ∀ before outcome after, Exec before op outcome after →
      Safe (writers C) post (next outcome) (trace ++ [⟨before, op, outcome⟩]) after) :
    Safe (writers C) post (.call op next) trace disk := by
  refine Safe.call (fun _ _ _ => ?_) fun before outcome after _ _ hexec => hnext _ _ _ hexec
  cases op <;> first | exact trivial | exact absurd hop Bool.false_ne_true

/-- What is left of a file that is written to the end: it is closed, or something has raised. -/
theorem safe_writeAll {post : Bool → List (FileEntry κ) → Prop} {name : κ}
    {bytes payload : List UInt8} (hheld : held trace = some (name, bytes))
    (hfragment : ∀ start, start <+: payload → C.Fragment name (bytes ++ start))
    (hwhole : C.Whole name (bytes ++ payload))
    (hwritten : ∀ rest, held (trace ++ rest) = none → post true (trace ++ rest))
    (hraised : ∀ rest written, held (trace ++ rest) = some (name, written) →
      (∃ entry ∈ rest, Raised entry) → post false (trace ++ rest)) :
    Safe (writers C) post (writeAll name payload) trace disk := by
  induction payload generalizing trace bytes disk with
  | nil =>
    rw [List.append_nil] at hwhole
    refine Safe.call (fun _ _ _ => ⟨bytes, hheld, hwhole⟩) fun before outcome after _ _ _ => ?_
    cases outcome with
    | true =>
      refine hwritten _ ?_
      rw [held_concat]
      rfl
    | false =>
      refine hraised _ bytes ?_ ⟨_, List.mem_singleton_self _, rfl⟩
      rw [held_concat]
      exact hheld
  | cons byte payload ih =>
    have hfirst : C.Fragment name (bytes ++ [byte]) :=
      hfragment [byte] (List.prefix_append [byte] payload)
    refine Safe.call (fun _ _ _ => ⟨bytes, hheld, hfirst⟩) fun before outcome after _ _ _ => ?_
    cases outcome with
    | true =>
      have hheld' : held (trace ++ [⟨before, .append name byte, true⟩])
          = some (name, bytes ++ [byte]) := by
        rw [held_concat, hheld]
        rfl
      refine ih hheld' ?_ ?_ ?_ ?_
      · intro start hstart
        rw [List.append_assoc]
        exact hfragment _ (List.prefix_cons_inj byte |>.mpr hstart)
      · rwa [List.append_assoc]
      · intro rest hrest
        rw [List.append_assoc] at hrest ⊢
        exact hwritten _ hrest
      · rintro rest written hrest ⟨entry, hentry, hraise⟩
        rw [List.append_assoc] at hrest ⊢
        exact hraised _ written hrest ⟨entry, List.mem_append_right _ hentry, hraise⟩
    | false =>
      refine hraised _ bytes ?_ ⟨_, List.mem_singleton_self _, rfl⟩
      rw [held_concat, hheld]
      rfl

variable {shelf : Shelf κ α ε}

/-- A file that was just created is written to the end, or something has raised. -/
theorem safe_writeOrRemove {post : Bool → List (FileEntry κ) → Prop} {name : κ}
    {payload : List UInt8} (hheld : held trace = some (name, []))
    (hfragment : ∀ start, start <+: payload → C.Fragment name start)
    (hwhole : C.Whole name payload)
    (hpost : ∀ rest written, (written = false → ∃ entry ∈ rest, Raised entry) →
      post written (trace ++ rest)) :
    Safe (writers C) post (writeOrRemove name payload) trace disk := by
  refine Safe.bind (Q := fun written trace' => ∃ rest, trace' = trace ++ rest ∧
    (written = false → (∃ bytes, held trace' = some (name, bytes)) ∧
      ∃ entry ∈ rest, Raised entry)) ?_ ?_
  · refine safe_writeAll hheld hfragment hwhole ?_ ?_
    · exact fun rest _ => ⟨rest, rfl, fun h => absurd h (by decide)⟩
    · exact fun rest written hrest hraised => ⟨rest, rfl, fun _ => ⟨⟨written, hrest⟩, hraised⟩⟩
  · rintro (_ | _) trace' disk' ⟨rest, rfl, hrest⟩
    · obtain ⟨⟨bytes, hbytes⟩, entry, hentry, hraised⟩ := hrest rfl
      refine Safe.call (fun _ _ _ => ⟨bytes, hbytes⟩) fun _ _ _ _ _ _ => ?_
      rw [List.append_assoc]
      exact hpost _ _ fun _ => ⟨entry, List.mem_append_left _ hentry, hraised⟩
    · exact hpost _ _ fun h => absurd h (by decide)

theorem safe_createOnly {post : Except ε Unit → List (FileEntry κ) → Prop} {item : α}
    (hnone : held trace = none) (hcreates : C.Creates trace (shelf.nameOf item))
    (hfragment : ∀ start, start <+: shelf.payload item → C.Fragment (shelf.nameOf item) start)
    (hwhole : C.Whole (shelf.nameOf item) (shelf.payload item))
    (hpost : ∀ rest result, Ended shelf item rest result → post result (trace ++ rest)) :
    Safe (writers C) post (createOnly shelf item) trace disk := by
  refine Safe.call (fun _ _ _ => ⟨hnone, hfragment [] List.nil_prefix, hcreates⟩)
    fun before outcome after _ _ hexec => ?_
  cases outcome with
  | false =>
    have hfound : Found (⟨before, .create (shelf.nameOf item), false⟩ : FileEntry κ)
        (shelf.nameOf item) := by
      cases hexec with
      | «exists» h => exact ⟨rfl, h⟩
    refine safe_look rfl fun before' outcome' after' hexec' => ?_
    have hmet : Met (⟨before', .read (shelf.nameOf item), outcome'⟩ : FileEntry κ)
        (shelf.nameOf item) outcome' := by
      cases hexec'
      exact ⟨rfl, rfl⟩
    rw [List.append_assoc]
    exact hpost _ _ (.inr (.inr ⟨_, _, _, rfl, hfound, hmet, rfl⟩))
  | true =>
    have hheld : held (trace ++ [⟨before, .create (shelf.nameOf item), true⟩])
        = some (shelf.nameOf item, []) := by
      rw [held_concat]
      rfl
    change Safe (writers C) post (writeOrRemove (shelf.nameOf item) (shelf.payload item) >>=
      fun written => .done (if written then .ok () else .error shelf.interrupted)) _ _
    refine Safe.bind (Q := fun written trace' => ∃ rest, trace' = trace ++ rest ∧
      (written = false → ∃ entry ∈ rest, Raised entry)) ?_ ?_
    · refine safe_writeOrRemove hheld hfragment hwhole fun rest written hrest => ?_
      refine ⟨_, List.append_assoc _ _ _, fun hfalse => ?_⟩
      obtain ⟨entry, hentry, hraised⟩ := hrest hfalse
      exact ⟨entry, List.mem_append_right _ hentry, hraised⟩
    · rintro (_ | _) trace' disk' ⟨rest, rfl, hrest⟩
      · exact hpost _ _ (.inr (.inl ⟨rfl, hrest rfl⟩))
      · exact hpost _ _ (.inl rfl)

omit [DecidableEq κ] in
theorem ReadFrom.cons {name : κ} {names : List κ} {entry : FileEntry κ} {rest : List (FileEntry κ)}
    {bytes? : Option (List UInt8)} {item : α} {result : Except ε (List α)}
    (hmet : Met entry name bytes?) (hitem : shelf.decode name bytes? = .ok item)
    (h : ReadFrom shelf names rest result) :
    ReadFrom shelf (name :: names) (entry :: rest) (result.map fun items => item :: items) := by
  cases result with
  | error error =>
    obtain ⟨name', hname', entry', hentry', h⟩ := h
    exact ⟨name', List.mem_cons_of_mem _ hname', entry', List.mem_cons_of_mem _ hentry', h⟩
  | ok items =>
    intro name' hname'
    rcases List.mem_cons.mp hname' with rfl | hname'
    · exact ⟨entry, List.mem_cons_self, _, hmet, item, List.mem_cons_self, hitem⟩
    · obtain ⟨entry', hentry', bytes', hmet', item', hitem', h⟩ := h name' hname'
      exact ⟨entry', List.mem_cons_of_mem _ hentry', bytes', hmet', item',
        List.mem_cons_of_mem _ hitem', h⟩

theorem safe_readItems {post : Except ε (List α) → List (FileEntry κ) → Prop} {names : List κ}
    (hpost : ∀ rest result, (∀ entry ∈ rest, isLook entry.op = true) →
      ReadFrom shelf names rest result → post result (trace ++ rest)) :
    Safe (writers C) post (readItems shelf names) trace disk := by
  induction names generalizing trace disk post with
  | nil =>
    have hnil := hpost [] (.ok []) (by simp) (by simp [ReadFrom])
    rwa [List.append_nil] at hnil
  | cons name names ih =>
    refine safe_look rfl fun before bytes? after hexec => ?_
    have hmet : Met (⟨before, .read name, bytes?⟩ : FileEntry κ) name bytes? := by
      cases hexec
      exact ⟨rfl, rfl⟩
    change Safe _ _ (match shelf.decode name bytes? with
      | .error error => .done (.error error)
      | .ok item => readItems shelf names >>= fun items =>
          .done (items.map fun items => item :: items)) _ _
    split
    · rename_i error herror
      refine hpost _ _ ?_ ⟨name, List.mem_cons_self, _, List.mem_singleton_self _, _, hmet, herror⟩
      simp [isLook]
    · rename_i item hitem
      refine Safe.bind (Q := fun result trace' => ∃ rest, trace' = trace ++ rest ∧
        post (result.map fun items => item :: items) trace') ?_ ?_
      · refine ih fun rest result hlook hread => ?_
        refine ⟨_, List.append_assoc _ _ _, ?_⟩
        rw [List.append_assoc]
        exact hpost _ _ (by simpa [isLook] using hlook) (hread.cons hmet hitem)
      · rintro result trace' disk' ⟨rest, -, h⟩
        exact h

theorem safe_readLimited {post : Except ε (List α) → List (FileEntry κ) → Prop} {names : List κ}
    (hpost : ∀ rest result, (∀ entry ∈ rest, isLook entry.op = true) →
      (ReadFrom shelf names rest result ∨ Exceeded shelf result) → post result (trace ++ rest)) :
    Safe (writers C) post (readLimited shelf names) trace disk := by
  rw [readLimited]
  split
  · exact safe_readItems fun rest result hlook hread => hpost rest result hlook (.inl hread)
  · rename_i limit tooMany hlimit
    refine Safe.bind (Q := fun result trace' => ∃ rest, trace' = trace ++ rest ∧
      (∀ entry ∈ rest, isLook entry.op = true) ∧ ReadFrom shelf (names.take limit) rest result) ?_ ?_
    · exact safe_readItems fun rest result hlook hread => ⟨rest, rfl, hlook, hread⟩
    · rintro result trace' disk' ⟨rest, rfl, hlook, hread⟩
      refine hpost rest _ hlook ?_
      rcases result with error | items
      · obtain ⟨name, hname, h⟩ := hread
        have hfrom : ReadFrom shelf names rest (.error error) := ⟨name, List.mem_of_mem_take hname, h⟩
        left
        split <;> exact hfrom
      · split
        · exact .inr ⟨limit, tooMany, hlimit, rfl⟩
        · rename_i hle
          left
          rwa [List.take_of_length_le (Nat.le_of_not_lt hle)] at hread

theorem safe_readAll {post : Except ε (List α) → List (FileEntry κ) → Prop}
    (hpost : ∀ rest result, ReadAll shelf rest result → post result (trace ++ rest)) :
    Safe (writers C) post (readAll shelf) trace disk := by
  refine safe_look rfl fun before names after hexec => ?_
  have hlisted : Listed (⟨before, .list, names⟩ : FileEntry κ) names := by
    cases hexec with
    | list _ h => exact ⟨rfl, h⟩
  refine safe_readLimited fun rest result hlook hread => ?_
  rw [List.append_assoc]
  refine hpost _ _ ⟨_, names, rest, rfl, hlisted, by simpa [isLook] using hlook, ?_⟩
  have hperm := shelf.order_perm names
  refine hread.imp (fun hread => ?_) id
  cases result with
  | ok items => exact fun name hname => hread name (hperm.mem_iff.mpr hname)
  | error error =>
    obtain ⟨name, hname, h⟩ := hread
    exact ⟨name, hperm.mem_iff.mp hname, h⟩

end Safety

/-! ## The clients of a store -/

section Clients

variable (shelf : Shelf κ α ε) (items : Set α) (Refusal : ε → Prop)

/-- A `put` by itself. -/
def putItem (item : α) : FileProgram κ (Except ε (List α)) := do
  let result ← createOnly shelf item
  return result.map fun _ => []

/-- A `get` of one name. -/
def getItem (name : κ) : FileProgram κ (Except ε (List α)) := readItems shelf [name]

/-- Read the directory and make up one's mind about an item to store. -/
def visit (decide : List α → Except ε (Option α)) : FileProgram κ (Except ε (List α)) := do
  match ← readAll shelf with
  | .error error => return .error error
  | .ok found =>
    match decide found with
    | .error error => return .error error
    | .ok none => return .ok found
    | .ok (some item) => putItem shelf item

/-- The programs that work on a store: they put some items, read one or all, or read all before they
put one. A client may refuse to begin or to go on. -/
inductive Client : FileProgram κ (Except ε (List α)) → Prop
  | refuse {error : ε} (h : Refusal error) : Client (.done (.error error))
  | put {item : α} (h : item ∈ items) : Client (putItem shelf item)
  | get (name : κ) : Client (getItem shelf name)
  | read : Client (readAll shelf)
  | visit {decide : List α → Except ε (Option α)}
      (h : ∀ found item, decide found = .ok (some item) → item ∈ items)
      (hrefusal : ∀ found error, decide found = .error error → Refusal error) :
      Client (visit shelf decide)

abbrev ShelfSystem (κ α ε : Type) := System (Disk κ) (FileOp κ) FileOp.Result (Except ε (List α))

/-- The systems of some programs that start on an empty store. -/
def ShelfReachable [DecidableEq κ] (calls : FileProgram κ (Except ε (List α)) → Prop)
    (sys : ShelfSystem κ α ε) : Prop :=
  Relation.ReflTransGen (System.Step semantics calls) ⟨.empty, []⟩ sys

/-- Readers and writers accept the items or refuse them, and the names of the items differ. -/
structure Lawful : Prop where
  decode : ∀ item ∈ items, ∀ error,
    shelf.decode (shelf.nameOf item) (some (shelf.payload item)) = .error error → Refusal error
  recheck : ∀ item ∈ items, ∀ error,
    shelf.recheck item (some (shelf.payload item)) = .error error → Refusal error
  limit : ∀ limit tooMany, shelf.limit = some (limit, tooMany) → Refusal tooMany
  payload_eq : ∀ item ∈ items, ∀ other ∈ items, shelf.nameOf item = shelf.nameOf other →
    shelf.payload item = shelf.payload other

/-- A file holds the beginning of an item's text, and a complete one all of it. -/
def conduct : Conduct κ where
  Fragment name bytes := ∃ item ∈ items, shelf.nameOf item = name ∧ bytes <+: shelf.payload item
  Whole name bytes := ∃ item ∈ items, shelf.nameOf item = name ∧ bytes = shelf.payload item
  Creates _ _ := True

/-- What readers see is complete, and a client ends with an error only when its own write has raised,
when it refuses to go on, or when it gets a name without a file. -/
structure Unharmed (sys : ShelfSystem κ α ε) : Prop where
  observed : ∀ thread ∈ sys.threads, ∀ entry ∈ thread.trace, ∀ name bytes,
    Met entry name (some bytes) → ∃ item ∈ items, shelf.nameOf item = name ∧ bytes = shelf.payload item
  finished : ∀ thread ∈ sys.threads, ∀ error, thread.program = .done (.error error) →
    (∃ entry ∈ thread.trace, Raised entry) ∨ Refusal error ∨
      ∃ entry name, thread.trace = [entry] ∧ Met entry name none

/-- The operation looks at no file that is still being written, or whose writer has died. -/
def Calm (entry : FileEntry κ) : Prop :=
  match entry.op with
  | .create name => ∀ file, entry.before.files name = some file → file.closed = true
  | .read name => ∀ file, entry.before.files name = some file → file.closed = true
  | .list => ∀ name file, entry.before.files name = some file → file.closed = true
  | _ => True

end Clients

/-! ## Calm runs -/

section Calm

variable {shelf : Shelf κ α ε} {items : Set α} {Refusal : ε → Prop}

/-- The operation sees that there is a file under the name. -/
def Sees (entry : FileEntry κ) (name : κ) : Prop :=
  (entry.op = .list ∨ entry.op = .create name ∨ entry.op = .read name)
    ∧ (entry.before.files name).isSome

/-- A thread takes offence at a file that it has seen there, then or before. -/
def Faulty (shelf : Shelf κ α ε) (items : Set α) (trace : List (FileEntry κ)) (error : ε) : Prop :=
  ∃ earlier entry name bytes?, (trace = [entry] ∧ earlier = entry ∨ [earlier, entry].Sublist trace) ∧
    Sees earlier name ∧ Met entry name bytes? ∧
    (shelf.decode name bytes? = .error error ∨
      ∃ item ∈ items, shelf.nameOf item = name ∧ shelf.recheck item bytes? = .error error)

/-- What the end of a client with an error comes from. -/
def Explained (shelf : Shelf κ α ε) (items : Set α) (Refusal : ε → Prop)
    (result : Except ε (List α)) (trace : List (FileEntry κ)) : Prop :=
  ∀ error, result = .error error → (∃ entry ∈ trace, Raised entry) ∨
    (Refusal error ∨ ∃ limit, shelf.limit = some (limit, error)) ∨
    (∃ entry name, trace = [entry] ∧ Met entry name none) ∨ Faulty shelf items trace error

theorem explained_ok (found : List α) (trace : List (FileEntry κ)) :
    Explained shelf items Refusal (.ok found) trace := fun error h => by cases h

theorem explained_of_ended {item : α} (hitem : item ∈ items) {trace rest : List (FileEntry κ)}
    {result : Except ε Unit} (h : Ended shelf item rest result) :
    Explained shelf items Refusal (result.map fun _ => []) (trace ++ rest) := by
  intro error herror
  rcases h with rfl | ⟨-, entry, hentry, hraised⟩ | ⟨first, later, bytes?, rfl, hfound, hmet, rfl⟩
  · cases herror
  · exact .inl ⟨entry, List.mem_append_right _ hentry, hraised⟩
  · refine .inr (.inr (.inr ⟨first, later, _, bytes?, .inr (List.sublist_append_right _ _),
      ⟨.inr (.inl hfound.1), hfound.2⟩, hmet, .inr ⟨item, hitem, rfl, ?_⟩⟩))
    cases hrecheck : shelf.recheck item bytes? with
    | ok _ => rw [hrecheck] at herror; cases herror
    | error other => rw [hrecheck] at herror; cases herror; rfl

theorem explained_of_readAll {rest : List (FileEntry κ)} {result : Except ε (List α)}
    (h : ReadAll shelf rest result) : Explained shelf items Refusal result rest := by
  rintro error rfl
  obtain ⟨listing, names, reads, rfl, hlisted, -, hread | ⟨limit, tooMany, hlimit, herror⟩⟩ := h
  rotate_left
  · cases herror
    exact .inr (.inl (.inr ⟨limit, hlimit⟩))
  obtain ⟨name, hname, entry, hentry, bytes?, hmet, hdecode⟩ := hread
  refine .inr (.inr (.inr ⟨listing, entry, name, bytes?, .inr ?_, ?_, hmet, .inl hdecode⟩))
  · exact (List.singleton_sublist.mpr hentry).cons_cons _
  · exact ⟨.inl hlisted.1, (hlisted.2 name).mp hname⟩

/-- What a calm operation sees is complete. -/
theorem closed_of_sees {entry : FileEntry κ} {name : κ} (hcalm : Calm entry) (hsees : Sees entry name) :
    ∃ file, entry.before.files name = some file ∧ file.closed = true := by
  obtain ⟨hop, hsome⟩ := hsees
  obtain ⟨file, hfile⟩ := Option.isSome_iff_exists.mp hsome
  refine ⟨file, hfile, ?_⟩
  unfold Calm at hcalm
  rcases hop with hop | hop | hop <;> rw [hop] at hcalm
  · exact hcalm name file hfile
  · exact hcalm file hfile
  · exact hcalm file hfile

/-- A client that works calmly takes offence at nothing but what it refuses. -/
theorem refusal_of_faulty (hlawful : Lawful shelf items Refusal) {disk : Disk κ}
    {traces : List (List (FileEntry κ))} (hkept : Kept (conduct shelf items) disk traces)
    {trace : List (FileEntry κ)} (htrace : trace ∈ traces) (hcalm : ∀ entry ∈ trace, Calm entry)
    {error : ε} (h : Faulty shelf items trace error) : Refusal error := by
  obtain ⟨earlier, entry, name, bytes?, horder, hsees, ⟨-, hbytes⟩, hbad⟩ := h
  have hfile : ∃ file, entry.before.files name = some file ∧ file.closed = true := by
    rcases horder with ⟨rfl, rfl⟩ | hsub
    · exact closed_of_sees (hcalm _ (List.mem_singleton_self _)) hsees
    · obtain ⟨file, hfile, hclosed⟩ := closed_of_sees (hcalm earlier (hsub.subset (by simp))) hsees
      have hkeeps : Keeps earlier.before entry.before := fun hfile hclosed =>
        List.pairwise_pair.mp ((hkept.ordered trace htrace).sublist hsub) hfile hclosed
      exact ⟨file, hkeeps hfile hclosed, hclosed⟩
  obtain ⟨file, hfile, hclosed⟩ := hfile
  have hentry : entry ∈ trace := by
    rcases horder with ⟨rfl, -⟩ | hsub
    · exact List.mem_singleton_self _
    · exact hsub.subset (by simp)
  obtain ⟨item, hitem, rfl, hcontent⟩ :=
    (hkept.before_sound trace htrace entry hentry).whole hfile hclosed
  rw [hfile, Option.map_some, hcontent] at hbytes
  subst hbytes
  rcases hbad with hdecode | ⟨other, hother, hname, hrecheck⟩
  · exact hlawful.decode item hitem error hdecode
  · rw [← hlawful.payload_eq other hother item hitem hname] at hrecheck
    exact hlawful.recheck other hother error hrecheck

variable [DecidableEq κ]

theorem safe_putItem {item : α} (hitem : item ∈ items) {trace : List (FileEntry κ)}
    (hnone : held trace = none) (disk : Disk κ) :
    Safe (writers (conduct shelf items)) (Explained shelf items Refusal) (putItem shelf item) trace
      disk := by
  refine Safe.bind (Q := fun result trace' =>
    Explained shelf items Refusal (result.map fun _ => []) trace') ?_ ?_
  rotate_left
  · exact fun result trace' disk' h => h
  refine safe_createOnly hnone trivial ?_ ⟨item, hitem, rfl, rfl⟩ ?_
  · exact fun start hstart => ⟨item, hitem, rfl, hstart⟩
  · exact fun rest result hended => explained_of_ended hitem hended

theorem safe_getItem (name : κ) (disk : Disk κ) :
    Safe (writers (conduct shelf items)) (Explained shelf items Refusal) (getItem shelf name) []
      disk := by
  refine safe_look rfl fun before bytes? after hexec => ?_
  have hmet : Met (⟨before, .read name, bytes?⟩ : FileEntry κ) name bytes? := by
    cases hexec
    exact ⟨rfl, rfl⟩
  change Safe _ (Explained shelf items Refusal) (match shelf.decode name bytes? with
    | .error error => .done (.error error)
    | .ok item => .done (.ok [item])) _ _
  split
  · rename_i error herror
    rintro _ ⟨⟩
    cases hbytes : (before.files name).map File.content with
    | none => exact .inr (.inr (.inl ⟨_, name, rfl, hmet.1, hbytes⟩))
    | some bytes =>
      refine .inr (.inr (.inr ⟨_, _, name, bytes?, .inl ⟨rfl, rfl⟩, ⟨.inr (.inr rfl), ?_⟩, hmet,
        .inl herror⟩))
      rw [← Option.isSome_map, hbytes]
      rfl
  · exact explained_ok _ _

theorem safe_client {program : FileProgram κ (Except ε (List α))}
    (h : Client shelf items Refusal program) (disk : Disk κ) :
    Safe (writers (conduct shelf items)) (Explained shelf items Refusal) program [] disk := by
  cases h with
  | refuse hrefusal => exact fun error herror => .inr (.inl (.inl (by cases herror; exact hrefusal)))
  | put hitem => exact safe_putItem hitem rfl disk
  | get name => exact safe_getItem name disk
  | read => exact safe_readAll fun rest result hread => explained_of_readAll hread
  | @visit decide hitems hrefusal =>
    refine Safe.bind (Q := fun result trace' => ReadAll shelf trace' result) ?_ ?_
    · exact safe_readAll fun rest result hread => hread
    · intro result trace disk' hread
      cases result with
      | error error => exact explained_of_readAll hread
      | ok found =>
        change Safe _ _ (match decide found with
          | .error error => .done (.error error)
          | .ok none => .done (.ok found)
          | .ok (some item) => putItem shelf item) _ _
        split
        · rename_i error herror
          rintro _ ⟨⟩
          exact .inr (.inl (.inl (hrefusal found error herror)))
        · exact explained_ok _ _
        · rename_i item hitem
          refine safe_putItem (hitems found item hitem) ?_ disk'
          obtain ⟨-, -, -, -, -, hlook, -⟩ := hread
          exact held_append_of_isLook [] hlook

/-- The invariant of the clients of a store. -/
theorem ShelfReachable.traced {calls : FileProgram κ (Except ε (List α)) → Prop}
    (hcalls : ∀ program, calls program → Client shelf items Refusal program)
    {sys : ShelfSystem κ α ε} (h : ShelfReachable calls sys) :
    System.Traced (writers (conduct shelf items)) (Explained shelf items Refusal)
      (Kept (conduct shelf items)) sys :=
  System.traced_reachable trivial Kept.empty
    (fun program hcall s _ => safe_client (hcalls program hcall) s) (fun _ _ => Kept.start) (fun _ _ _ _ _ _ _ _ hkept hwrites hexec => hkept.exec hwrites hexec)
    (fun _ _ _ _ hkept htick => hkept.tick htick) h

/-- **Calm runs do no harm.** When no operation looks at a file that is still being written or whose
writer has died, readers see complete files, and nobody fails because of another one's `put`. -/
theorem unharmed_of_calm {calls : FileProgram κ (Except ε (List α)) → Prop}
    (hcalls : ∀ program, calls program → Client shelf items Refusal program)
    (hlawful : Lawful shelf items Refusal) {sys : ShelfSystem κ α ε}
    (h : ShelfReachable calls sys)
    (hcalm : ∀ thread ∈ sys.threads, ∀ entry ∈ thread.trace, Calm entry) :
    Unharmed shelf items Refusal sys := by
  have htraced := h.traced hcalls
  have hkept := htraced.history
  constructor
  case observed =>
    intro thread hthread entry hentry name bytes ⟨hop, hbytes⟩
    have htrace := List.mem_map_of_mem (f := Thread.trace) hthread
    obtain ⟨file, hfile, rfl⟩ := Option.map_eq_some_iff.mp hbytes
    have hsees : Sees entry name := ⟨.inr (.inr hop), by rw [hfile]; rfl⟩
    obtain ⟨other, hother, hclosed⟩ := closed_of_sees (hcalm thread hthread entry hentry) hsees
    obtain rfl : file = other := Option.some.inj (hfile.symm.trans hother)
    exact (hkept.before_sound _ htrace entry hentry).whole hfile hclosed
  case finished =>
    intro thread hthread error hdone
    have hsafe := htraced.safe thread hthread
    rw [hdone] at hsafe
    rcases hsafe error rfl with h | (h | ⟨limit, h⟩) | h | h
    · exact .inl h
    · exact .inr (.inl h)
    · exact .inr (.inl (hlawful.limit _ _ h))
    · exact .inr (.inr h)
    · exact .inr (.inl (refusal_of_faulty hlawful hkept
        (List.mem_map_of_mem (f := Thread.trace) hthread) (hcalm thread hthread) h))

end Calm

/-! ## Particular runs -/

section Runs

variable [DecidableEq κ]

/-- A file of one byte more. -/
theorem leads_append {disk : Disk κ} {name : κ} {file : File} (byte : UInt8)
    (hfile : disk.files name = some file) (hopen : file.closed = false) :
    semantics.exec disk (.append name byte) true
      (disk.set name (some { file with content := file.content ++ [byte], modified := disk.clock })) := by
  have hexec := Exec.appended disk name byte
  rwa [Disk.append_of_open byte hfile hopen] at hexec

/-- A file can be written to its end. -/
theorem leads_writeAll (name : κ) (payload : List UInt8) (disk : Disk κ) {file : File}
    (hfile : disk.files name = some file) (hopen : file.closed = false) :
    ∃ file' disk' entries, Leads semantics (writeAll name payload) disk (.done true) disk' entries ∧
      disk'.files = Function.update disk.files name (some file') ∧
      file'.content = file.content ++ payload ∧ file'.closed = true ∧
      ∀ entry ∈ entries, Calm entry ∧ ∀ name, entry.op ≠ .create name := by
  induction payload generalizing disk file with
  | nil =>
    have hexec := Exec.closed disk name
    rw [Disk.close_of_some hfile] at hexec
    refine ⟨_, _, _, .call hexec (.refl _ _), rfl, (List.append_nil _).symm, rfl, ?_⟩
    simp [Calm]
  | cons byte payload ih =>
    obtain ⟨file', disk', entries, hleads, hfiles, hcontent, hclosed, hcalm⟩ :=
      @ih (disk.set name _) { file with content := file.content ++ [byte], modified := disk.clock }
        (Function.update_self _ _ _) hopen
    refine ⟨file', disk', _, .call (leads_append byte hfile hopen) hleads, ?_, ?_, hclosed, ?_⟩
    · rw [hfiles, Disk.files_set, Function.update_idem]
    · rw [hcontent, List.append_assoc, List.singleton_append]
    · intro entry hentry
      rcases List.mem_cons.mp hentry with rfl | hentry
      · exact ⟨trivial, by simp⟩
      · exact hcalm entry hentry

/-- An item can be stored under a new name. -/
theorem leads_putItem (shelf : Shelf κ α ε) (item : α) (disk : Disk κ)
    (hfree : disk.files (shelf.nameOf item) = none) :
    ∃ file disk' entries,
      Leads semantics (putItem shelf item) disk (.done (.ok [])) disk' entries ∧
      disk'.files = Function.update disk.files (shelf.nameOf item) (some file) ∧
      file.content = shelf.payload item ∧ file.closed = true ∧
      ∀ entry ∈ entries, Calm entry ∧ ∀ name, entry.op = .create name → entry.before = disk := by
  obtain ⟨file, disk', entries, hleads, hfiles, hcontent, hclosed, hcalm⟩ :=
    leads_writeAll (shelf.nameOf item) (shelf.payload item)
      (disk.create (shelf.nameOf item)) (Function.update_self _ _ _) rfl
  refine ⟨file, disk', _, .call (Exec.created hfree) (((hleads.bind _).bind _).bind _), ?_, hcontent,
    hclosed, ?_⟩
  · rw [hfiles, Disk.files_create, Function.update_idem]
  · intro entry hentry
    rcases List.mem_cons.mp hentry with rfl | hentry
    · refine ⟨fun file hfile => ?_, fun _ _ => rfl⟩
      change disk.files _ = some file at hfile
      rw [hfree] at hfile
      cases hfile
    · exact ⟨(hcalm entry hentry).1, fun name hname => absurd hname ((hcalm entry hentry).2 name)⟩

section Leads

variable {β : Type} {disk disk' : Disk κ} {name : κ} {rest : FileProgram κ β}
  {entries : List (FileEntry κ)}

theorem leads_read {next : Option (List UInt8) → FileProgram κ β} {bytes? : Option (List UInt8)}
    (hbytes : (disk.files name).map File.content = bytes?)
    (h : Leads semantics (next bytes?) disk rest disk' entries) :
    Leads semantics (FileProgram.read name >>= next) disk rest disk'
      (⟨disk, .read name, bytes?⟩ :: entries) := by
  subst hbytes
  exact .call (Exec.read disk name) h

theorem leads_list {next : List κ → FileProgram κ β} {names : List κ} (hnodup : names.Nodup)
    (hnames : ∀ name, name ∈ names ↔ (disk.files name).isSome)
    (h : Leads semantics (next names) disk rest disk' entries) :
    Leads semantics (FileProgram.list >>= next) disk rest disk' (⟨disk, .list, names⟩ :: entries) :=
  .call (Exec.list hnodup hnames) h

end Leads

/-- A `put` by itself stores its item. -/
theorem exists_stored (shelf : Shelf κ α ε) (item : α)
    {calls : FileProgram κ (Except ε (List α)) → Prop} (hput : calls (putItem shelf item)) :
    ∃ (sys : ShelfSystem κ α ε) (thread : _), ShelfReachable calls sys ∧ sys.threads = [thread] ∧
      thread.program = .done (.ok []) ∧ (∀ entry ∈ thread.trace, Calm entry) ∧
      ∃ file, sys.state.files (shelf.nameOf item) = some file ∧ file.content = shelf.payload item := by
  obtain ⟨file, disk, entries, hleads, hfiles, hcontent, -, hcalm⟩ :=
    leads_putItem shelf item .empty rfl
  refine ⟨_, _, hleads.start_steps hput [], rfl, rfl, fun entry hentry => (hcalm entry hentry).1, file,
    ?_, hcontent⟩
  rw [hfiles, Function.update_self]

/-- A reader of a directory with one bad file fails. -/
theorem leads_readAll_error (shelf : Shelf κ α ε) {disk : Disk κ} {name : κ} {error : ε}
    (hfiles : ∀ name', name' = name ↔ (disk.files name').isSome)
    (hlimit : ∀ limit tooMany, shelf.limit = some (limit, tooMany) → 0 < limit)
    {bytes? : Option (List UInt8)} (hbytes : (disk.files name).map File.content = bytes?)
    (hdecode : shelf.decode name bytes? = .error error) :
    Leads semantics (readAll shelf) disk (.done (.error error)) disk
      [⟨disk, .list, [name]⟩, ⟨disk, .read name, bytes?⟩] := by
  have hread : Leads semantics (readItems shelf [name]) disk (.done (.error error)) disk
      [⟨disk, .read name, bytes?⟩] := by
    refine leads_read hbytes ?_
    rw [hdecode]
    exact .refl _ _
  refine leads_list (List.pairwise_singleton _ _) (fun name' => ?_) ?_
  · rw [List.mem_singleton]
    exact hfiles name'
  · rw [List.perm_singleton.mp (shelf.order_perm [name]), readLimited]
    split
    · exact hread
    · rename_i limit tooMany hsome
      rw [List.take_of_length_le (hlimit limit tooMany hsome)]
      have hbind := hread.bind fun items => .done
        (if limit < ([name] : List κ).length then items.bind fun _ => .error tooMany else items)
      simp only [Program.done_bind, Except.bind, ite_self] at hbind
      exact hbind

/-- A visitor reads the directory and is about to put its item. -/
theorem leads_visit {shelf : Shelf κ α ε} {decide : List α → Except ε (Option α)} {found : List α}
    {item : α} {disk disk' : Disk κ} {entries : List (FileEntry κ)}
    (hread : Leads semantics (readAll shelf) disk (.done (.ok found)) disk' entries)
    (hdecide : decide found = .ok (some item)) :
    Leads semantics (visit shelf decide) disk (putItem shelf item) disk' entries := by
  have hnext : ∀ next, next (.ok found) = putItem shelf item →
      Leads semantics (readAll shelf >>= next) disk (putItem shelf item) disk' entries := by
    intro next heq
    have hbind := hread.bind next
    rwa [Program.done_bind, heq] at hbind
  exact hnext _ (by simp only [hdecide])

theorem leads_readAll_empty (shelf : Shelf κ α ε) :
    Leads semantics (readAll shelf) .empty (.done (.ok [])) .empty [⟨.empty, .list, []⟩] := by
  refine leads_list List.nodup_nil (fun name => by simp [Disk.empty]) ?_
  rw [List.perm_nil.mp (shelf.order_perm []), readLimited]
  split
  · exact .refl _ _
  · rw [List.take_nil]
    exact .refl _ _

/-- A visitor reads the empty store and puts its item. -/
theorem exists_visited (shelf : Shelf κ α ε) {decide : List α → Except ε (Option α)} {item : α}
    {calls : FileProgram κ (Except ε (List α)) → Prop} (hcall : calls (visit shelf decide))
    (hdecide : decide [] = .ok (some item)) :
    ∃ (sys : ShelfSystem κ α ε) (thread : _) (file : _), ShelfReachable calls sys ∧
      sys.threads = [thread] ∧ sys.state.files (shelf.nameOf item) = some file ∧
      file.content = shelf.payload item ∧
      ∀ entry ∈ thread.trace, ∀ name, entry.op = .create name → entry.before = .empty := by
  obtain ⟨file, disk, entries, hput, hfiles, hcontent, -, hcreate⟩ :=
    leads_putItem shelf item .empty rfl
  have hreach := ((leads_visit (leads_readAll_empty shelf) hdecide).trans hput).start_steps hcall []
  refine ⟨_, _, file, hreach, rfl, ?_, hcontent, ?_⟩
  · change disk.files (shelf.nameOf item) = some file
    rw [hfiles, Function.update_self]
  · intro entry hentry
    rcases List.mem_append.mp hentry with hentry | hentry
    · intro name _
      rw [List.mem_singleton.mp hentry]
    · exact (hcreate entry hentry).2

/-- Two visitors read the empty store, and then each of them puts its item. -/
theorem exists_both (shelf : Shelf κ α ε) {decide decide' : List α → Except ε (Option α)}
    {item item' : α} {calls : FileProgram κ (Except ε (List α)) → Prop}
    (hcall : calls (visit shelf decide)) (hcall' : calls (visit shelf decide'))
    (hdecide : decide [] = .ok (some item)) (hdecide' : decide' [] = .ok (some item'))
    (hname : shelf.nameOf item ≠ shelf.nameOf item') :
    ∃ (sys : ShelfSystem κ α ε) (file file' : _), ShelfReachable calls sys ∧
      sys.state.files (shelf.nameOf item) = some file ∧ file.content = shelf.payload item ∧
      sys.state.files (shelf.nameOf item') = some file' ∧ file'.content = shelf.payload item' := by
  obtain ⟨file, disk, entries, hput, hfiles, hcontent, -, -⟩ :=
    leads_putItem shelf item .empty rfl
  obtain ⟨file', disk', entries', hput', hfiles', hcontent', -, -⟩ :=
    leads_putItem shelf item' disk (by
      rw [hfiles, Function.update_of_ne hname.symm]
      rfl)
  have hread := leads_readAll_empty shelf
  have hreach := (((leads_visit hread hdecide).start_steps hcall []).trans
    ((leads_visit hread hdecide').start_steps hcall' _)).trans
      ((hput.steps [] [_] _).trans (hput'.steps [_] [] _))
  refine ⟨_, file, file', hreach, ?_, hcontent, ?_, hcontent'⟩
  · change disk'.files (shelf.nameOf item) = some file
    rw [hfiles', Function.update_of_ne hname, hfiles]
    exact Function.update_self _ _ _
  · change disk'.files (shelf.nameOf item') = some file'
    rw [hfiles']
    exact Function.update_self _ _ _

/-- A `put` that is interrupted after its creation leaves a file that readers and a second `put` of
the same item take offence at. -/
theorem exists_interrupted (shelf : Shelf κ α ε) (item : α) {error error' : ε}
    {calls : FileProgram κ (Except ε (List α)) → Prop} (hput : calls (putItem shelf item))
    (hread : calls (readAll shelf))
    (hlimit : ∀ limit tooMany, shelf.limit = some (limit, tooMany) → 0 < limit)
    (hdecode : shelf.decode (shelf.nameOf item) (some []) = .error error)
    (hrecheck : shelf.recheck item (some []) = .error error') :
    ∃ (sys : ShelfSystem κ α ε) (interrupted reader again : _), ShelfReachable calls sys ∧
      sys.threads = [interrupted, reader, again] ∧
      (∃ entry ∈ reader.trace, Met entry (shelf.nameOf item) (some [])) ∧
      reader.program = .done (.error error) ∧ again.program = .done (.error error') ∧
      ∀ thread ∈ sys.threads, ∀ entry ∈ thread.trace, ¬ Raised entry := by
  have hcreate : ∃ rest, Leads semantics (putItem shelf item) .empty rest
      (Disk.empty.create (shelf.nameOf item)) [⟨.empty, .create (shelf.nameOf item), true⟩] :=
    ⟨_, .call (Exec.created rfl) (.refl _ _)⟩
  obtain ⟨rest, hcreate⟩ := hcreate
  have hfile : (Disk.empty.create (shelf.nameOf item)).files (shelf.nameOf item)
      = some ⟨0, 0, [], false⟩ := Function.update_self _ _ _
  have hfiles : ∀ name, name = shelf.nameOf item
      ↔ ((Disk.empty.create (shelf.nameOf item)).files name).isSome := by
    intro name
    constructor
    · rintro rfl
      rw [hfile]
      rfl
    · intro hsome
      by_contra hne
      rw [Disk.files_create, Function.update_of_ne hne] at hsome
      cases hsome
  have hcontent : ((Disk.empty.create (shelf.nameOf item)).files (shelf.nameOf item)).map File.content
      = some [] := by
    rw [hfile]
    rfl
  have hreader := leads_readAll_error shelf hfiles hlimit hcontent hdecode
  have hagain : Leads semantics (putItem shelf item) (Disk.empty.create (shelf.nameOf item))
      (.done (.error error')) (Disk.empty.create (shelf.nameOf item))
      [⟨Disk.empty.create (shelf.nameOf item), .create (shelf.nameOf item), false⟩,
        ⟨Disk.empty.create (shelf.nameOf item), .read (shelf.nameOf item), some []⟩] := by
    refine .call (Exec.exists ((hfiles _).mp rfl)) ?_
    have hlook : Leads semantics
        (FileProgram.read (shelf.nameOf item) >>= fun existing => .done (shelf.recheck item existing))
        (Disk.empty.create (shelf.nameOf item)) (.done (.error error'))
        (Disk.empty.create (shelf.nameOf item)) _ := leads_read hcontent (by rw [hrecheck]; exact .refl _ _)
    change Leads semantics ((FileProgram.read (shelf.nameOf item) >>= fun existing =>
      .done (shelf.recheck item existing)) >>= fun result => .done (result.map fun _ => [])) _ _ _ _
    exact hlook.bind _
  refine ⟨_, _, _, _, ((hcreate.start_steps hput []).trans (hreader.start_steps hread _)).trans
    (hagain.start_steps hput _), rfl, ?_, rfl, rfl, ?_⟩
  · exact ⟨_, List.mem_cons_of_mem _ (List.mem_singleton_self _), rfl, hcontent⟩
  · simp [Raised]

end Runs

end IouAi.Storage
