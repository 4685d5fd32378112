import Mathlib.Data.List.Nodup
import Mathlib.Data.List.Sort
import Mathlib.Order.Lattice

/-!
# Stable sorts

A stable sort by a key leaves the elements of one key in their order. Two lists are sorted to one list
exactly when they have the same elements of each key in the same order (`sortBy_eq_iff`), as lists of
the same elements do when no key occurs twice.
-/

namespace IouAi.StableSort

variable {α β : Type*} [LinearOrder β] (key : α → β)

/-- The elements in the order of their keys. -/
def sortBy (xs : List α) : List α := xs.insertionSort fun x y => key x ≤ key y

variable {key} {xs ys : List α}

theorem perm_sortBy (xs : List α) : (sortBy key xs).Perm xs := List.perm_insertionSort _ xs

theorem pairwise_sortBy (xs : List α) : (sortBy key xs).Pairwise fun x y => key x ≤ key y := by
  have : Std.Total fun x y : α => key x ≤ key y := ⟨fun _ _ => le_total _ _⟩
  have : IsTrans α fun x y => key x ≤ key y := ⟨fun _ _ _ hxy hyz => hxy.trans hyz⟩
  exact List.pairwise_insertionSort _ xs

/-- An element is inserted before those of its own key. -/
theorem filter_orderedInsert (x : α) (xs : List α) (k : β) :
    (xs.orderedInsert (fun x y => key x ≤ key y) x).filter (fun y => key y = k)
      = (x :: xs).filter fun y => key y = k := by
  induction xs with
  | nil => rfl
  | cons y xs ih =>
    rw [List.orderedInsert_cons]
    split_ifs with hle
    · rfl
    · by_cases hx : key x = k
      · have hy : key y ≠ k := fun hy => hle (hx.trans hy.symm).le
        rw [List.filter_cons_of_neg (by simpa using hy), ih, List.filter_cons_of_pos (by simpa using hx),
          List.filter_cons_of_pos (by simpa using hx), List.filter_cons_of_neg (by simpa using hy)]
      · rw [List.filter_cons, ih, List.filter_cons_of_neg (by simpa using hx),
          List.filter_cons_of_neg (by simpa using hx), List.filter_cons]

/-- **The sort is stable.** -/
theorem filter_sortBy (xs : List α) (k : β) :
    (sortBy key xs).filter (fun x => key x = k) = xs.filter fun x => key x = k := by
  induction xs with
  | nil => rfl
  | cons x xs ih =>
    rw [sortBy, List.insertionSort_cons, filter_orderedInsert, List.filter_cons, ← sortBy, ih,
      List.filter_cons]

theorem head_le (h : xs.Pairwise fun x y => key x ≤ key y) {x y : α} (hhead : xs.head? = some x)
    (hy : y ∈ xs) : key x ≤ key y := by
  cases xs with
  | nil => cases hhead
  | cons z xs =>
    cases hhead
    rcases List.mem_cons.mp hy with rfl | hy
    · exact le_rfl
    · exact (List.pairwise_cons.mp h).1 y hy

theorem mem_of_filter_eq (h : ∀ k, xs.filter (fun x => key x = k) = ys.filter fun x => key x = k)
    {x : α} (hx : x ∈ xs) : x ∈ ys := by
  have hmem : x ∈ xs.filter fun y => key y = key x := List.mem_filter.mpr ⟨hx, by simp⟩
  rw [h] at hmem
  exact List.mem_of_mem_filter hmem

/-- Sorted lists with the same elements of each key are one list. -/
theorem eq_of_filter_eq (hxs : xs.Pairwise fun x y => key x ≤ key y)
    (hys : ys.Pairwise fun x y => key x ≤ key y)
    (h : ∀ k, xs.filter (fun x => key x = k) = ys.filter fun x => key x = k) : xs = ys := by
  induction xs generalizing ys with
  | nil =>
    refine (List.eq_nil_iff_forall_not_mem.mpr fun y hy => ?_).symm
    exact List.not_mem_nil (mem_of_filter_eq (fun k => (h k).symm) hy)
  | cons x xs ih =>
    have hx : x ∈ ys := mem_of_filter_eq h List.mem_cons_self
    cases ys with
    | nil => cases hx
    | cons y ys =>
      have hy : y ∈ x :: xs := mem_of_filter_eq (fun k => (h k).symm) List.mem_cons_self
      -- each of the two heads comes before the other one
      have hkey : key x = key y := le_antisymm (head_le hxs rfl hy) (head_le hys rfl hx)
      have hhead := h (key y)
      rw [List.filter_cons_of_pos (by simpa using hkey), List.filter_cons_of_pos (by simp)] at hhead
      obtain ⟨rfl, -⟩ := List.cons.inj hhead
      congr 1
      refine ih (List.pairwise_cons.mp hxs).2 (List.pairwise_cons.mp hys).2 fun k => ?_
      have hk := h k
      rw [List.filter_cons, List.filter_cons] at hk
      split_ifs at hk with hmem
      · exact (List.cons.inj hk).2
      · exact hk

/-- **Two lists are sorted to one list** exactly when they have the same elements of each key in the
same order. -/
theorem sortBy_eq_iff : sortBy key xs = sortBy key ys
    ↔ ∀ k, xs.filter (fun x => key x = k) = ys.filter fun x => key x = k := by
  constructor
  · intro h k
    rw [← filter_sortBy xs, h, filter_sortBy]
  · intro h
    refine eq_of_filter_eq (pairwise_sortBy xs) (pairwise_sortBy ys) fun k => ?_
    rw [filter_sortBy, filter_sortBy, h]

/-- Under different keys the order of a list does not matter. -/
theorem sortBy_eq_of_perm (h : xs.Perm ys) (hnodup : (xs.map key).Nodup) :
    sortBy key xs = sortBy key ys := by
  have hanti : ∀ x y, x ∈ sortBy key xs → y ∈ sortBy key ys → key x ≤ key y → key y ≤ key x →
      x = y := by
    intro x y hx hy hxy hyx
    have hx' : x ∈ xs := (perm_sortBy xs).mem_iff.mp hx
    have hy' : y ∈ xs := h.mem_iff.mpr ((perm_sortBy ys).mem_iff.mp hy)
    exact List.inj_on_of_nodup_map hnodup hx' hy' (le_antisymm hxy hyx)
  exact List.Perm.eq_of_pairwise hanti (pairwise_sortBy xs) (pairwise_sortBy ys)
    ((perm_sortBy xs).trans (h.trans (perm_sortBy ys).symm))

end IouAi.StableSort
