import Mathlib.Data.Set.Lattice
import Mathlib.Order.Interval.Set.LinearOrder
import Mathlib.Order.CompletePartialOrder

/-!
# Consecutive intervals

Half-open intervals, each of which starts where the one before it ends. They are disjoint, and
together they are the interval from the first start to the last end.
-/

namespace IouAi.Intervals

variable {α : Type*} [LinearOrder α]

/-- The intervals go from `start` to `stop` without a gap. -/
def Consecutive : α → List (α × α) → α → Prop
  | start, [], stop => start = stop
  | start, p :: ps, stop => p.1 = start ∧ p.1 ≤ p.2 ∧ Consecutive p.2 ps stop

variable {start stop next : α} {p : α × α} {ps : List (α × α)}

theorem Consecutive.concat (h : Consecutive start ps stop) (hle : stop ≤ next) :
    Consecutive start (ps ++ [(stop, next)]) next := by
  induction ps generalizing start with
  | nil => exact ⟨h.symm, hle, rfl⟩
  | cons p ps ih => exact ⟨h.1, h.2.1, ih h.2.2⟩

theorem Consecutive.le (h : Consecutive start ps stop) : start ≤ stop := by
  induction ps generalizing start with
  | nil => exact le_of_eq h
  | cons p ps ih => exact h.1 ▸ h.2.1.trans (ih h.2.2)

theorem Consecutive.bounds_of_mem (h : Consecutive start ps stop) (hp : p ∈ ps) :
    start ≤ p.1 ∧ p.2 ≤ stop := by
  induction ps generalizing start with
  | nil => cases hp
  | cons q ps ih =>
    obtain ⟨rfl, hle, hrest⟩ := h
    rcases List.mem_cons.mp hp with rfl | hp
    · exact ⟨le_rfl, hrest.le⟩
    · exact ⟨hle.trans (ih hrest hp).1, (ih hrest hp).2⟩

/-- Consecutive intervals are disjoint. -/
theorem Consecutive.pairwise_disjoint (h : Consecutive start ps stop) :
    ps.Pairwise fun p q => Disjoint (Set.Ioc p.1 p.2) (Set.Ioc q.1 q.2) := by
  induction ps generalizing start with
  | nil => exact List.Pairwise.nil
  | cons p ps ih =>
    refine List.pairwise_cons.mpr ⟨fun q hq => ?_, ih h.2.2⟩
    rw [Set.disjoint_left]
    intro x hx hx'
    exact absurd (hx.2.trans (h.2.2.bounds_of_mem hq).1) (not_le.mpr hx'.1)

/-- Consecutive intervals are one interval together. -/
theorem Consecutive.iUnion_eq (h : Consecutive start ps stop) :
    ⋃ p ∈ ps, Set.Ioc p.1 p.2 = Set.Ioc start stop := by
  induction ps generalizing start with
  | nil =>
    obtain rfl : start = stop := h
    simp
  | cons p ps ih =>
    obtain ⟨rfl, hle, hrest⟩ := h
    have hunion : ⋃ q ∈ p :: ps, Set.Ioc q.1 q.2
        = Set.Ioc p.1 p.2 ∪ ⋃ q ∈ ps, Set.Ioc q.1 q.2 := by
      ext x
      simp
    rw [hunion, ih hrest, Set.Ioc_union_Ioc_eq_Ioc hle hrest.le]

end IouAi.Intervals
