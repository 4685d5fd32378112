import Mathlib.Data.List.Sort
import Mathlib.Data.Rat.Floor
import Mathlib.Order.Interval.Set.Defs
import Mathlib.Tactic.Linarith

/-!
# Rounding and medians

`round` of Python, which takes ties to the even neighbour, and `statistics.median`. Both stay within
the bounds of what they are taken of.
-/

namespace IouAi.Statistics

/-- The nearest integer, the even one of two. -/
def roundHalfEven (q : ℚ) : ℤ :=
  if q - ⌊q⌋ < 1 / 2 then ⌊q⌋
  else if 1 / 2 < q - ⌊q⌋ then ⌊q⌋ + 1
  else if 2 ∣ ⌊q⌋ then ⌊q⌋
  else ⌊q⌋ + 1

theorem roundHalfEven_intCast (n : ℤ) : roundHalfEven n = n := by
  rw [roundHalfEven, Int.floor_intCast, sub_self, if_pos (by norm_num)]

theorem floor_le_roundHalfEven (q : ℚ) : ⌊q⌋ ≤ roundHalfEven q := by
  unfold roundHalfEven
  split_ifs <;> omega

theorem roundHalfEven_le_floor_add_one (q : ℚ) : roundHalfEven q ≤ ⌊q⌋ + 1 := by
  unfold roundHalfEven
  split_ifs <;> omega

theorem le_roundHalfEven {q : ℚ} {n : ℤ} (h : (n : ℚ) ≤ q) : n ≤ roundHalfEven q :=
  (Int.le_floor.mpr h).trans (floor_le_roundHalfEven q)

theorem roundHalfEven_le {q : ℚ} {n : ℤ} (h : q ≤ n) : roundHalfEven q ≤ n := by
  rcases h.eq_or_lt with rfl | hlt
  · exact (roundHalfEven_intCast n).le
  · have hfloor : ⌊q⌋ < n := Int.floor_lt.mpr hlt
    have hle := roundHalfEven_le_floor_add_one q
    omega

/-- The element in the middle, or the mean of the two elements there. -/
def median (values : List ℚ) : ℚ :=
  let sorted := values.insertionSort (· ≤ ·)
  let half := values.length / 2
  if values.length % 2 = 1 then sorted.getD half 0
  else (sorted.getD (half - 1) 0 + sorted.getD half 0) / 2

theorem getD_mem {values : List ℚ} {n : ℕ} (h : n < values.length) :
    (values.insertionSort (· ≤ ·)).getD n 0 ∈ values := by
  have hlength : n < (values.insertionSort (· ≤ ·)).length := by
    rwa [List.length_insertionSort]
  rw [List.getD_eq_getElem?_getD, List.getElem?_eq_getElem hlength, Option.getD_some]
  exact (List.perm_insertionSort _ _).mem_iff.mp (List.getElem_mem hlength)

/-- **The median is between the bounds of the values.** -/
theorem median_mem_Icc {values : List ℚ} (hne : values ≠ []) {low high : ℚ}
    (h : ∀ value ∈ values, value ∈ Set.Icc low high) : median values ∈ Set.Icc low high := by
  have hpos : 0 < values.length := List.length_pos_of_ne_nil hne
  have hhalf := h _ (getD_mem (n := values.length / 2) (by omega))
  unfold median
  split_ifs with hodd
  · exact hhalf
  · have hbefore := h _ (getD_mem (n := values.length / 2 - 1) (by omega))
    obtain ⟨hlow, hhigh⟩ := hhalf
    obtain ⟨hlow', hhigh'⟩ := hbefore
    constructor <;> linarith

end IouAi.Statistics
