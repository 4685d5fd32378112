import Mathlib.Algebra.BigOperators.Group.List.Basic
import Mathlib.Algebra.Order.BigOperators.Group.List
import Mathlib.Algebra.Order.Group.Nat
import Mathlib.Algebra.GroupWithZero.Nat

/-!
# Sums over windows

Entries fall into windows (a month, a day, a customer) and carry a weight each. A cap on every
window is kept by the two moves of an append-only account: an entry that is admitted only when its
own window has room, and a change of weights that raises none of them.
-/

namespace IouAi.WindowSum

variable {α κ : Type*} [DecidableEq κ] {window : α → κ} {weight weight' : α → ℕ}
  {entries : List α} {entry : α} {cap : κ → ℕ}

/-- The total weight of the entries in the window `k`. -/
def windowSum (window : α → κ) (weight : α → ℕ) (entries : List α) (k : κ) : ℕ :=
  ((entries.filter fun entry => window entry = k).map weight).sum

/-- No window holds more than its cap. -/
def Capped (window : α → κ) (weight : α → ℕ) (cap : κ → ℕ) (entries : List α) : Prop :=
  ∀ k, windowSum window weight entries k ≤ cap k

@[simp] theorem windowSum_nil (k : κ) : windowSum window weight [] k = 0 := rfl

theorem windowSum_append_singleton (k : κ) :
    windowSum window weight (entries ++ [entry]) k
      = windowSum window weight entries k + if window entry = k then weight entry else 0 := by
  unfold windowSum
  rw [List.filter_append, List.map_append, List.sum_append]
  split
  · rename_i h
    simp [h]
  · rename_i h
    simp [h]

theorem windowSum_le_of_weight_le (h : ∀ entry ∈ entries, weight' entry ≤ weight entry) (k : κ) :
    windowSum window weight' entries k ≤ windowSum window weight entries k := by
  apply List.sum_le_sum
  intro entry hentry
  exact h entry (List.mem_of_mem_filter hentry)

theorem windowSum_congr (h : ∀ entry ∈ entries, weight' entry = weight entry) (k : κ) :
    windowSum window weight' entries k = windowSum window weight entries k :=
  le_antisymm (windowSum_le_of_weight_le (fun entry hentry => (h entry hentry).le) k)
    (windowSum_le_of_weight_le (fun entry hentry => (h entry hentry).ge) k)

/-- With weight one the sum counts the entries of the window. -/
theorem windowSum_one (k : κ) :
    windowSum window (fun _ => 1) entries k
      = (entries.filter fun entry => window entry = k).length := by
  simp [windowSum]

theorem Capped.nil : Capped window weight cap [] := fun k => by simp

/-- An entry is admitted when its own window has room for it; no other window changes. -/
theorem Capped.append_singleton (h : Capped window weight cap entries)
    (hroom : windowSum window weight entries (window entry) + weight entry ≤ cap (window entry)) :
    Capped window weight cap (entries ++ [entry]) := by
  intro k
  rw [windowSum_append_singleton]
  by_cases hk : window entry = k
  · subst hk
    simpa using hroom
  · simpa [hk] using h k

theorem Capped.of_weight_le (h : Capped window weight cap entries)
    (hle : ∀ entry ∈ entries, weight' entry ≤ weight entry) :
    Capped window weight' cap entries :=
  fun k => (windowSum_le_of_weight_le hle k).trans (h k)

end IouAi.WindowSum
