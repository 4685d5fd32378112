import IouAi.Foundations.Archive
import IouAi.Storage.Sequential
import IouAi.Storage.Stores
import Mathlib.Data.String.Basic

/-!
# The quarantine store as its files

`QuarantineStore` when nobody else is at work: its files are an archive of texts under their digests.
`iterVerified` reads all of them in the order of their names, and raises on the first bad one and on
one file too many. It is what the program `readAll` of the store ends with
(`completes_readAll_quarantine`).
-/

namespace IouAi.Storage

open Authority Checks Files Threads Wire

/-- The files of the quarantine. -/
abbrev Quarantine := Archive Digest Bytes

namespace QuarantineStore

variable (sha256 : Sha256) (loads : Parse Json) (maxItems maxBytes : ℕ)

/-- `QuarantineStore.get`. -/
def get (quarantine : Quarantine) (digest : Digest) : Except QuarantineError Envelope :=
  decode sha256 loads maxBytes digest (quarantine.get? digest)

/-- The names of the files. -/
def names (quarantine : Quarantine) : List Digest := byName (quarantine.entries.map Prod.fst)

/-- `QuarantineStore.iter_verified`, read to its end. -/
def iterVerified (quarantine : Quarantine) : Except QuarantineError (List (Digest × Envelope)) := do
  let found ← ((names quarantine).take maxItems).mapM fun digest => do
    let envelope ← get sha256 loads maxBytes quarantine digest
    return (digest, envelope)
  raiseIf (maxItems < (names quarantine).length) .countLimit
  return found

/-- `QuarantineStore.put`. -/
def put (quarantine : Quarantine) (envelope : Envelope) :
    Except QuarantineError (Digest × Quarantine) :=
  match quarantine.put (contentDigest sha256 (canonicalJson (.obj envelope)))
      (canonicalJson (.obj envelope)) with
  | none => .error .collision
  | some stored => .ok (contentDigest sha256 (canonicalJson (.obj envelope)), stored)

/-! ## What is read -/

theorem nodup_names (quarantine : Quarantine) : (names quarantine).Nodup :=
  (byName_perm _).nodup_iff.mpr quarantine.keys_nodup

theorem mem_names {quarantine : Quarantine} {digest : Digest} :
    digest ∈ names quarantine ↔ (quarantine.get? digest).isSome := by
  rw [names, (byName_perm _).mem_iff, ← not_iff_not, ← Archive.get?_eq_none, Bool.not_eq_true,
    Option.isSome_eq_false_iff, Option.isNone_iff_eq_none]

theorem length_names (quarantine : Quarantine) :
    (names quarantine).length = quarantine.entries.length := by
  rw [names, (byName_perm _).length_eq, List.length_map]

/-- Only a digest that names a file is read. -/
theorem mem_names_of_get {quarantine : Quarantine} {digest : Digest} {envelope : Envelope}
    (h : get sha256 loads maxBytes quarantine digest = .ok envelope) : digest ∈ names quarantine := by
  rw [mem_names, Option.isSome_iff_ne_none]
  intro hnone
  rw [get, hnone] at h
  cases h

variable {sha256 loads maxItems maxBytes}

/-- The whole store is read when it has no bad file and not too many. -/
theorem iterVerified_eq_ok {quarantine : Quarantine} {found : List (Digest × Envelope)} :
    iterVerified sha256 loads maxItems maxBytes quarantine = .ok found
      ↔ quarantine.entries.length ≤ maxItems ∧
        List.Forall₂ (fun digest item => item.1 = digest ∧
          get sha256 loads maxBytes quarantine digest = .ok item.2) (names quarantine) found := by
  have hitem : ∀ digest (item : Digest × Envelope), (do
      let envelope ← get sha256 loads maxBytes quarantine digest
      return (digest, envelope)) = Except.ok item
        ↔ item.1 = digest ∧ get sha256 loads maxBytes quarantine digest = .ok item.2 := by
    intro digest item
    rw [bind_eq_ok]
    constructor
    · rintro ⟨envelope, hget, heq⟩
      cases heq
      exact ⟨rfl, hget⟩
    · rintro ⟨rfl, hget⟩
      exact ⟨item.2, hget, rfl⟩
  unfold iterVerified
  rw [bind_eq_ok]
  simp only [raiseIf_bind_eq_ok, Nat.not_lt, length_names, mapM_eq_ok_iff_forall₂, hitem]
  constructor
  · rintro ⟨found', hfound, hlength, heq⟩
    cases heq
    rw [← length_names] at hlength
    rw [List.take_of_length_le hlength] at hfound
    exact ⟨length_names quarantine ▸ hlength, hfound⟩
  · rintro ⟨hlength, hfound⟩
    refine ⟨found, ?_, hlength, rfl⟩
    rw [← length_names] at hlength
    rwa [List.take_of_length_le hlength]

theorem map_fst_of_iterVerified {quarantine : Quarantine} {found : List (Digest × Envelope)}
    (h : iterVerified sha256 loads maxItems maxBytes quarantine = .ok found) :
    found.map Prod.fst = names quarantine := by
  have hforall := (iterVerified_eq_ok.mp h).2
  clear h
  generalize names quarantine = digests at hforall
  induction hforall with
  | nil => rfl
  | cons hitem _ ih => rw [List.map_cons, hitem.1, ih]

theorem mem_iterVerified {quarantine : Quarantine} {found : List (Digest × Envelope)}
    (h : iterVerified sha256 loads maxItems maxBytes quarantine = .ok found) {digest : Digest}
    {envelope : Envelope} : (digest, envelope) ∈ found
      ↔ get sha256 loads maxBytes quarantine digest = .ok envelope := by
  have hforall := (iterVerified_eq_ok.mp h).2
  constructor
  · intro hmem
    obtain ⟨digest', -, hdigest, hget⟩ := exists_of_mem_right hforall hmem
    cases hdigest
    exact hget
  · intro hget
    have hmem := mem_names_of_get sha256 loads maxBytes hget
    rw [← map_fst_of_iterVerified h] at hmem
    obtain ⟨⟨_, envelope'⟩, hitem, rfl⟩ := List.mem_map.mp hmem
    obtain ⟨digest', -, hdigest, hget'⟩ := exists_of_mem_right hforall hitem
    cases hdigest
    cases hget.symm.trans hget'
    exact hitem

/-! ## The program of the store -/

theorem pairwise_byName (names : List Digest) :
    (byName names).Pairwise fun name other => name.val ≤ other.val := by
  have : Std.Total fun name other : Digest => name.val ≤ other.val := ⟨fun _ _ => le_total _ _⟩
  have : IsTrans Digest fun name other => name.val ≤ other.val := ⟨fun _ _ _ => le_trans⟩
  exact List.pairwise_insertionSort _ names

theorem byName_eq_of_perm {names others : List Digest} (h : names.Perm others) :
    byName names = byName others :=
  List.Perm.eq_of_pairwise (fun _ _ _ _ hle hge => Subtype.ext (le_antisymm hle hge))
    (pairwise_byName names) (pairwise_byName others)
    ((byName_perm names).trans (h.trans (byName_perm others).symm))

theorem map_mapM_pair {ε α : Type} (g : Digest → Except ε α) (digests : List Digest) :
    (digests.mapM fun digest => do
        let a ← g digest
        return (digest, a)).map (List.map Prod.snd) = digests.mapM g := by
  induction digests with
  | nil => rfl
  | cons digest digests ih =>
    rw [List.mapM_cons, List.mapM_cons, ← ih]
    cases g digest with
    | error error => rfl
    | ok a =>
      cases digests.mapM fun digest => do
        let a ← g digest
        return (digest, a) <;> rfl

/-- What `iterVerified` finds, without the digests. -/
theorem map_iterVerified (quarantine : Quarantine) :
    (iterVerified sha256 loads maxItems maxBytes quarantine).map (List.map Prod.snd)
      = (((names quarantine).take maxItems).mapM (get sha256 loads maxBytes quarantine) >>=
        fun envelopes => if maxItems < (names quarantine).length then .error .countLimit
          else .ok envelopes) := by
  rw [← map_mapM_pair, iterVerified]
  cases ((names quarantine).take maxItems).mapM fun digest => do
      let envelope ← get sha256 loads maxBytes quarantine digest
      return (digest, envelope) with
  | error error => rfl
  | ok found =>
    change Except.map _ (raiseIf _ _ >>= fun _ => _) = ite _ _ _
    by_cases hcount : maxItems < (names quarantine).length
    · rw [raiseIf, if_pos hcount, if_pos hcount]
      rfl
    · rw [raiseIf_bind_of_not hcount, if_neg hcount]
      rfl

/-- The program that reads the store ends with what `iterVerified` says of its files. -/
theorem completes_readAll_quarantine {quarantine : Quarantine} {disk disk' : Disk Digest}
    (hdisk : ∀ digest, (disk.files digest).map File.content = quarantine.get? digest)
    {result : Except QuarantineError (List Envelope)} :
    Completes semantics (readAll (shelf sha256 loads maxItems maxBytes)) disk result disk'
      ↔ result = (iterVerified sha256 loads maxItems maxBytes quarantine).map (List.map Prod.snd) ∧
        disk' = disk := by
  have hkeys : ∀ name, name ∈ quarantine.entries.map Prod.fst ↔ (disk.files name).isSome := by
    intro name
    rw [← not_iff_not, ← Archive.get?_eq_none, ← hdisk, Option.map_eq_none_iff, Bool.not_eq_true,
      Option.isSome_eq_false_iff, Option.isNone_iff_eq_none]
  have hreading : reading (shelf sha256 loads maxItems maxBytes) disk
      = get sha256 loads maxBytes quarantine := by
    funext name
    rw [reading, hdisk]
    rfl
  have hlimited : ∀ listed : List Digest, listed.Perm (quarantine.entries.map Prod.fst) →
      (Completes semantics (readLimited (shelf sha256 loads maxItems maxBytes) (byName listed)) disk
          result disk'
        ↔ result = (iterVerified sha256 loads maxItems maxBytes quarantine).map (List.map Prod.snd)
          ∧ disk' = disk) := by
    intro listed hperm
    have hbind : Completes semantics
        (readLimited (shelf sha256 loads maxItems maxBytes) (names quarantine)) disk result disk'
        ↔ ∃ items s₁, Completes semantics (readItems (shelf sha256 loads maxItems maxBytes)
            ((names quarantine).take maxItems)) disk items s₁ ∧
          Completes semantics (.done (if maxItems < (names quarantine).length
            then items.bind fun _ => .error .countLimit else items)) s₁ result disk' :=
      completes_bind
    rw [byName_eq_of_perm hperm, ← names, hbind, map_iterVerified]
    simp only [completes_readItems, completes_done, hreading]
    constructor
    · rintro ⟨items, s₁, ⟨rfl, rfl⟩, rfl, rfl⟩
      refine ⟨?_, rfl⟩
      cases ((names quarantine).take maxItems).mapM (get sha256 loads maxBytes quarantine) with
      | error error => exact ite_self _
      | ok envelopes => rfl
    · rintro ⟨rfl, rfl⟩
      refine ⟨_, _, ⟨rfl, rfl⟩, ?_, rfl⟩
      cases ((names quarantine).take maxItems).mapM (get sha256 loads maxBytes quarantine) with
      | error error => exact (ite_self _).symm
      | ok envelopes => rfl
  have hcall : Completes semantics (readAll (shelf sha256 loads maxItems maxBytes)) disk result disk'
      ↔ ∃ listed s₁, Exec disk .list listed s₁ ∧
        Completes semantics (readLimited (shelf sha256 loads maxItems maxBytes) (byName listed)) s₁
          result disk' := completes_call
  rw [hcall]
  constructor
  · rintro ⟨listed, s₁, hexec, h⟩
    cases hexec with
    | list hnodup hlisted =>
      refine (hlimited listed ?_).mp h
      exact (List.perm_ext_iff_of_nodup hnodup quarantine.keys_nodup).mpr
        fun name => (hlisted name).trans (hkeys name).symm
  · intro h
    exact ⟨_, disk, .list quarantine.keys_nodup hkeys, (hlimited _ (.refl _)).mpr h⟩

end QuarantineStore

end IouAi.Storage
