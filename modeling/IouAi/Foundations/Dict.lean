import Mathlib.Data.List.Nodup

/-!
# Lists as dictionaries

A list of items with keys, read as the dictionary built from it item by item: a later item replaces
an earlier one with the same key.
-/

namespace IouAi.Dict

variable {α κ : Type*} [DecidableEq κ] {key : α → κ} {items : List α} {k : κ} {item : α}

/-- The item under a key: the last one in the list. -/
def get? (key : α → κ) (items : List α) (k : κ) : Option α :=
  items.reverse.find? fun item => key item = k

theorem mem_of_get?_eq_some (h : get? key items k = some item) : item ∈ items ∧ key item = k := by
  have hmem := List.mem_of_find?_eq_some h
  have hkey := List.find?_some h
  exact ⟨List.mem_reverse.mp hmem, by simpa using hkey⟩

theorem get?_isSome_iff : (get? key items k).isSome ↔ ∃ item ∈ items, key item = k := by
  rw [get?, List.find?_isSome]
  simp

theorem exists_get?_of_mem (h : k ∈ items.map key) : ∃ item, get? key items k = some item := by
  rw [← Option.isSome_iff_exists, get?_isSome_iff]
  simpa using h

/-- Under distinct keys every item is found. -/
theorem get?_key_of_mem (hnodup : (items.map key).Nodup) (h : item ∈ items) :
    get? key items (key item) = some item := by
  obtain ⟨other, hother⟩ := exists_get?_of_mem (List.mem_map_of_mem (f := key) h)
  obtain ⟨hmem, hkey⟩ := mem_of_get?_eq_some hother
  rw [hother, List.inj_on_of_nodup_map hnodup hmem h hkey]

/-- Under distinct keys the items with a key are at most one. -/
theorem filter_eq_toList_find? (hnodup : (items.map key).Nodup) (k : κ) :
    (items.filter fun item => key item = k) = (items.find? fun item => key item = k).toList := by
  induction items with
  | nil => rfl
  | cons item items ih =>
    obtain ⟨hnotmem, hrest⟩ := List.nodup_cons.mp hnodup
    by_cases hkey : key item = k
    · have hnone : (items.filter fun other => key other = k) = [] := by
        rw [List.filter_eq_nil_iff]
        intro other hother heq
        apply hnotmem
        rw [hkey, ← of_decide_eq_true heq]
        exact List.mem_map_of_mem hother
      rw [List.filter_cons_of_pos (by simpa using hkey), hnone,
        List.find?_cons_of_pos (by simpa using hkey)]
      rfl
    · rw [List.filter_cons_of_neg (by simpa using hkey),
        List.find?_cons_of_neg (by simpa using hkey)]
      exact ih hrest

omit [DecidableEq κ] in
/-- An item with a new key leaves the keys distinct. -/
theorem nodup_map_append_singleton (hnodup : (items.map key).Nodup)
    (hnew : ∀ other ∈ items, key other ≠ key item) : ((items ++ [item]).map key).Nodup := by
  rw [List.map_append, List.nodup_append]
  refine ⟨hnodup, List.nodup_singleton _, ?_⟩
  rintro k hk k' hk' rfl
  obtain ⟨other, hother, rfl⟩ := List.mem_map.mp hk
  exact hnew other hother (List.mem_singleton.mp hk')

end IouAi.Dict
