import Mathlib.Data.List.Nodup

/-!
# Create-only archives

A table that grows by new keys only. An entry is stored once; storing it again changes nothing, and
another entry is refused under its key. What an archive holds under a key it holds for good
(`get?_of_put`).
-/

namespace IouAi

/-- Entries under different keys, in the order in which they were stored. -/
structure Archive (κ β : Type) where
  entries : List (κ × β)
  keys_nodup : (entries.map Prod.fst).Nodup

namespace Archive

variable {κ β : Type} [DecidableEq κ]

def empty : Archive κ β := ⟨[], List.nodup_nil⟩

/-- The entry under a key. -/
def get? (archive : Archive κ β) (key : κ) : Option β :=
  (archive.entries.find? fun entry => entry.1 = key).map Prod.snd

theorem get?_eq_some {archive : Archive κ β} {key : κ} {value : β} :
    archive.get? key = some value ↔ (key, value) ∈ archive.entries := by
  constructor
  · intro h
    obtain ⟨entry, hentry, rfl⟩ := Option.map_eq_some_iff.mp h
    have hkey := List.find?_some hentry
    rw [← of_decide_eq_true hkey]
    exact List.mem_of_find?_eq_some hentry
  · intro hmem
    cases hfound : archive.entries.find? fun entry => entry.1 = key with
    | none => simpa using List.find?_eq_none.mp hfound _ hmem
    | some entry =>
      have hkey := List.find?_some hfound
      have heq : entry = (key, value) := List.inj_on_of_nodup_map archive.keys_nodup
        (List.mem_of_find?_eq_some hfound) hmem (of_decide_eq_true hkey)
      rw [get?, hfound, heq]
      rfl

theorem get?_eq_none {archive : Archive κ β} {key : κ} :
    archive.get? key = none ↔ key ∉ archive.entries.map Prod.fst := by
  rw [get?, Option.map_eq_none_iff, List.find?_eq_none]
  simp only [decide_eq_true_eq, List.mem_map, not_exists, not_and]

variable [DecidableEq β]

/-- Store an entry under a new key; under a known key only the entry that is there. -/
def put (archive : Archive κ β) (key : κ) (value : β) : Option (Archive κ β) :=
  match h : archive.get? key with
  | none => some ⟨archive.entries ++ [(key, value)], by
      rw [List.map_append, List.nodup_append]
      refine ⟨archive.keys_nodup, List.nodup_singleton _, ?_⟩
      rintro k hk k' hk' rfl
      rw [List.map_singleton, List.mem_singleton] at hk'
      rw [hk'] at hk
      exact get?_eq_none.mp h hk⟩
  | some existing => if existing = value then some archive else none

theorem entries_of_put {archive archive' : Archive κ β} {key : κ} {value : β}
    (h : archive.put key value = some archive') :
    archive.get? key = none ∧ archive'.entries = archive.entries ++ [(key, value)]
      ∨ archive.get? key = some value ∧ archive' = archive := by
  unfold put at h
  split at h
  · rename_i hnone
    cases h
    exact .inl ⟨hnone, rfl⟩
  · rename_i existing hsome
    split at h
    · rename_i heq
      cases h
      exact .inr ⟨heq ▸ hsome, rfl⟩
    · cases h

/-- What was stored can be read. -/
theorem get?_put {archive archive' : Archive κ β} {key : κ} {value : β}
    (h : archive.put key value = some archive') : archive'.get? key = some value := by
  rcases entries_of_put h with ⟨-, hentries⟩ | ⟨hget, rfl⟩
  · rw [get?_eq_some, hentries]
    exact List.mem_append_right _ (List.mem_singleton_self _)
  · exact hget

/-- What could be read can still be read. -/
theorem get?_of_put {archive archive' : Archive κ β} {key key' : κ} {value value' : β}
    (h : archive.put key value = some archive') (hget : archive.get? key' = some value') :
    archive'.get? key' = some value' := by
  rcases entries_of_put h with ⟨-, hentries⟩ | ⟨-, rfl⟩
  · rw [get?_eq_some, hentries]
    exact List.mem_append_left _ (get?_eq_some.mp hget)
  · exact hget

end Archive

end IouAi
