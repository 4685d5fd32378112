import Mathlib.Data.List.Nodup
import Mathlib.Data.List.Sort
import Mathlib.Order.Lattice

/-!
# The newest element of each key

A loop that goes through a list from the newest element to the oldest one and keeps the first element
of each key, until it has enough of them, keeps the newest element of each key
(`takeDistinct_newestFirst`).
-/

namespace IouAi.Newest

variable {α κ β : Type*} [DecidableEq κ] [LinearOrder β] (key : α → κ) (rank : α → β)

/-- Keep the first element of each key that was not seen, until the limit is reached. -/
def takeDistinct : ℕ → List κ → List α → List α
  | _, _, [] => []
  | limit, seen, x :: xs =>
    if key x ∈ seen then takeDistinct limit seen xs
    else if limit = 1 then [x]
    else x :: takeDistinct (limit - 1) (key x :: seen) xs

/-- The elements in the order of their ranks, the highest rank first. -/
def newestFirst (xs : List α) : List α := xs.insertionSort fun x y => rank y ≤ rank x

/-- The elements that have the highest rank of their key. -/
def newest (xs : List α) : List α := xs.filter fun x => ∀ y ∈ xs, key y = key x → rank y ≤ rank x

variable {key rank} {xs ys : List α}

theorem perm_newestFirst (xs : List α) : (newestFirst rank xs).Perm xs := List.perm_insertionSort _ xs

theorem pairwise_newestFirst (xs : List α) :
    (newestFirst rank xs).Pairwise fun x y => rank y ≤ rank x := by
  have : Std.Total fun x y : α => rank y ≤ rank x := ⟨fun _ _ => le_total _ _⟩
  have : IsTrans α fun x y => rank y ≤ rank x := ⟨fun _ _ _ hxy hyz => hyz.trans hxy⟩
  exact List.pairwise_insertionSort _ xs

/-- Elements of different ranks have one order. -/
theorem pairwise_lt_newestFirst (h : (xs.map rank).Nodup) :
    (newestFirst rank xs).Pairwise fun x y => rank y < rank x := by
  have hnodup : ((newestFirst rank xs).map rank).Nodup :=
    ((perm_newestFirst xs).map rank).nodup_iff.mpr h
  refine (pairwise_newestFirst xs).imp₂ (fun x y hle hne => lt_of_le_of_ne hle (Ne.symm hne)) ?_
  exact List.pairwise_map.mp hnodup

/-- A list in strict order is the order of any list of its elements. -/
theorem eq_newestFirst (hperm : xs.Perm ys) (hxs : xs.Pairwise fun x y => rank y < rank x) :
    xs = newestFirst rank ys := by
  have hanti : ∀ x y, x ∈ xs → y ∈ newestFirst rank ys → rank y ≤ rank x → rank x ≤ rank y →
      x = y := by
    intro x y hx hy hyx hxy
    have hnodup : (xs.map rank).Nodup := List.pairwise_map.mpr (hxs.imp fun h => h.ne')
    have hy' : y ∈ xs := hperm.mem_iff.mpr ((perm_newestFirst ys).mem_iff.mp hy)
    exact List.inj_on_of_nodup_map hnodup hx hy' (le_antisymm hxy hyx)
  exact List.Perm.eq_of_pairwise hanti (hxs.imp le_of_lt) (pairwise_newestFirst ys)
    (hperm.trans (perm_newestFirst ys).symm)

/-- Elements of different ranks have one order, in whatever order they are given. -/
theorem newestFirst_eq_of_perm (h : xs.Perm ys) (hxs : (xs.map rank).Nodup) :
    newestFirst rank xs = newestFirst rank ys :=
  eq_newestFirst ((perm_newestFirst xs).trans h) (pairwise_lt_newestFirst hxs)

/-- The loop on a list in strict order. -/
theorem takeDistinct_eq {limit : ℕ} (hlimit : 1 ≤ limit) (seen : List κ)
    (hxs : xs.Pairwise fun x y => rank y < rank x) :
    takeDistinct key limit seen xs
      = (xs.filter fun x => key x ∉ seen ∧ ∀ y ∈ xs, key y = key x → rank y ≤ rank x).take
        limit := by
  induction xs generalizing limit seen with
  | nil => simp [takeDistinct]
  | cons x xs ih =>
    obtain ⟨hx, htail⟩ := List.pairwise_cons.mp hxs
    rw [takeDistinct]
    by_cases hseen : key x ∈ seen
    · rw [if_pos hseen, ih hlimit seen htail, List.filter_cons_of_neg (by simp [hseen])]
      congr 1
      refine List.filter_congr fun y hy => decide_eq_decide.mpr (and_congr_right fun hfresh => ?_)
      rw [List.forall_mem_cons]
      exact (and_iff_right fun heq => absurd (heq ▸ hseen) hfresh).symm
    · have hkept : ∀ y ∈ x :: xs, key y = key x → rank y ≤ rank x := by
        intro y hy _
        rcases List.mem_cons.mp hy with rfl | hy
        · exact le_rfl
        · exact (hx y hy).le
      rw [if_neg hseen, List.filter_cons, if_pos (decide_eq_true ⟨hseen, hkept⟩)]
      by_cases hone : limit = 1
      · rw [if_pos hone, hone]
        rfl
      · obtain ⟨n, rfl⟩ : ∃ n, limit = n + 1 := ⟨limit - 1, by omega⟩
        rw [if_neg hone, List.take_succ_cons, Nat.add_sub_cancel, ih (by omega) _ htail]
        congr 2
        refine List.filter_congr fun y hy => decide_eq_decide.mpr ?_
        rw [List.forall_mem_cons, List.mem_cons, not_or]
        -- the newest element hides the later ones of its key
        constructor
        · rintro ⟨⟨hne, hfresh⟩, hnewest⟩
          exact ⟨hfresh, fun heq => absurd heq.symm hne, hnewest⟩
        · rintro ⟨hfresh, hle, hnewest⟩
          exact ⟨⟨fun heq => absurd (hle heq.symm) (not_le.mpr (hx y hy)), hfresh⟩, hnewest⟩

/-- **The loop keeps the newest element of each key**, the newest ones first. -/
theorem takeDistinct_newestFirst {limit : ℕ} (hlimit : 1 ≤ limit) (h : (xs.map rank).Nodup) :
    takeDistinct key limit [] (newestFirst rank xs)
      = (newestFirst rank (newest key rank xs)).take limit := by
  rw [takeDistinct_eq hlimit [] (pairwise_lt_newestFirst h)]
  congr 1
  refine eq_newestFirst ?_ ((pairwise_lt_newestFirst h).filter _)
  have hfilter : ((newestFirst rank xs).filter fun x => key x ∉ [] ∧
      ∀ y ∈ newestFirst rank xs, key y = key x → rank y ≤ rank x)
      = (newestFirst rank xs).filter fun x => ∀ y ∈ xs, key y = key x → rank y ≤ rank x := by
    refine List.filter_congr fun x _ => decide_eq_decide.mpr ?_
    simp only [List.not_mem_nil, not_false_eq_true, true_and, (perm_newestFirst xs).mem_iff]
  rw [hfilter]
  exact (perm_newestFirst xs).filter _

end IouAi.Newest
