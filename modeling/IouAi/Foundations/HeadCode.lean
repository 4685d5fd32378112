import Mathlib.Data.List.Basic

/-!
# Streams of head-delimited items

An item is a head symbol followed by a number of symbols that the head alone determines
(`arity head`). A stream of such items needs no separators: `exists_splits` cuts every stream into
complete items and a tail that is empty or one truncated item, and `Splits.unique` says that there
is only one way to do it. In particular the concatenation of complete items determines them
(`flatten_inj`).
-/

namespace IouAi.HeadCode

variable {β : Type*} (arity : β → ℕ)

/-- A complete item: a head followed by as many symbols as it asks for. -/
def IsItem (w : List β) : Prop := ∃ h t, w = h :: t ∧ t.length = arity h

/-- A truncated item: a head followed by fewer symbols than it asks for. -/
def IsTruncated (w : List β) : Prop := ∃ h t, w = h :: t ∧ t.length < arity h

/-- The stream `s` is the complete `items` followed by `tail`, which is empty or truncated. -/
structure Splits (s : List β) (items : List (List β)) (tail : List β) : Prop where
  eq : s = items.flatten ++ tail
  items : ∀ w ∈ items, IsItem arity w
  tail : tail = [] ∨ IsTruncated arity tail

variable {arity}

theorem IsItem.ne_nil {w : List β} (h : IsItem arity w) : w ≠ [] := by
  obtain ⟨a, t, rfl, -⟩ := h
  simp

theorem IsTruncated.ne_nil {w : List β} (h : IsTruncated arity w) : w ≠ [] := by
  obtain ⟨a, t, rfl, -⟩ := h
  simp

/-- A head and everything after it is a truncated item, or starts with a complete one. -/
theorem truncated_or_item (h : β) (t : List β) :
    IsTruncated arity (h :: t) ∨
      IsItem arity (h :: t.take (arity h)) ∧ h :: t = (h :: t.take (arity h)) ++ t.drop (arity h) := by
  by_cases hlt : t.length < arity h
  · exact .inl ⟨h, t, rfl, hlt⟩
  · exact .inr ⟨⟨h, _, rfl, by simp; omega⟩, by simp⟩

/-- Two complete items at the start of one stream are the same item. -/
theorem IsItem.append_inj {v w s t : List β} (hv : IsItem arity v) (hw : IsItem arity w)
    (h : v ++ s = w ++ t) : v = w ∧ s = t := by
  obtain ⟨a, v, rfl, hv⟩ := hv
  obtain ⟨b, w, rfl, hw⟩ := hw
  simp only [List.cons_append, List.cons.injEq] at h
  obtain ⟨rfl, h⟩ := h
  obtain ⟨rfl, rfl⟩ := List.append_inj h (hv.trans hw.symm)
  exact ⟨rfl, rfl⟩

/-- No stream starts with a complete item and is a truncated one. -/
theorem IsItem.not_truncated {w t : List β} (hw : IsItem arity w) :
    ¬ IsTruncated arity (w ++ t) := by
  rintro ⟨b, u, h, hu⟩
  obtain ⟨a, w, rfl, hw⟩ := hw
  simp only [List.cons_append, List.cons.injEq] at h
  obtain ⟨rfl, rfl⟩ := h
  rw [List.length_append] at hu
  omega

namespace Splits

theorem nil : Splits arity [] [] [] := ⟨rfl, by simp, .inl rfl⟩

theorem truncated {s : List β} (h : IsTruncated arity s) : Splits arity s [] s :=
  ⟨rfl, by simp, .inr h⟩

theorem cons {w s tail : List β} {items : List (List β)} (hw : IsItem arity w)
    (h : Splits arity s items tail) : Splits arity (w ++ s) (w :: items) tail :=
  ⟨by rw [h.eq]; simp, by simpa using ⟨hw, h.items⟩, h.tail⟩

/-- A stream that starts with a complete item splits into it and a split of the rest. -/
theorem of_item {w s tail : List β} {items : List (List β)} (hw : IsItem arity w)
    (h : Splits arity (w ++ s) items tail) :
    ∃ items', items = w :: items' ∧ Splits arity s items' tail := by
  rcases items with _ | ⟨v, items⟩
  · have htail := h.tail
    have heq := h.eq
    simp only [List.flatten_nil, List.nil_append] at heq
    rw [← heq] at htail
    rcases htail with h' | h'
    · exact absurd (List.append_eq_nil_iff.mp h').1 hw.ne_nil
    · exact absurd h' hw.not_truncated
  · have hv : IsItem arity v := h.items v (by simp)
    have heq := h.eq
    rw [List.flatten_cons, List.append_assoc] at heq
    obtain ⟨rfl, rfl⟩ := hw.append_inj hv heq
    exact ⟨items, rfl, rfl, fun u hu => h.items u (by simp [hu]), h.tail⟩

/-- A truncated stream has no complete item. -/
theorem of_truncated {s tail : List β} {items : List (List β)} (hs : IsTruncated arity s)
    (h : Splits arity s items tail) : items = [] ∧ tail = s := by
  rcases items with _ | ⟨v, items⟩
  · exact ⟨rfl, by simpa using h.eq.symm⟩
  · have heq := h.eq
    rw [List.flatten_cons, List.append_assoc] at heq
    exact absurd (heq ▸ hs) (h.items v (by simp)).not_truncated

theorem of_nil {tail : List β} {items : List (List β)} (h : Splits arity [] items tail) :
    items = [] ∧ tail = [] := by
  obtain ⟨hitems, htail⟩ := List.append_eq_nil_iff.mp h.eq.symm
  refine ⟨?_, htail⟩
  rcases items with _ | ⟨v, items⟩
  · rfl
  · rw [List.flatten_cons] at hitems
    exact absurd (List.append_eq_nil_iff.mp hitems).1 (h.items v (by simp)).ne_nil

end Splits

variable (arity) in
/-- **Every stream splits** into complete items and an empty or truncated tail. -/
theorem exists_splits (s : List β) : ∃ items tail, Splits arity s items tail := by
  induction hn : s.length using Nat.strongRecOn generalizing s with
  | ind n ih =>
  rcases s with _ | ⟨h, t⟩
  · exact ⟨[], [], .nil⟩
  rcases @truncated_or_item _ arity h t with htr | ⟨hitem, heq⟩
  · exact ⟨[], _, .truncated htr⟩
  · obtain ⟨items, tail, hs⟩ := ih (t.drop (arity h)).length
      (by rw [← hn, List.length_drop, List.length_cons]; omega) _ rfl
    rw [heq]
    exact ⟨_, _, hs.cons hitem⟩

/-- **A stream splits in one way.** -/
theorem Splits.unique {s tail tail' : List β} {items items' : List (List β)}
    (h : Splits arity s items tail) (h' : Splits arity s items' tail') :
    items = items' ∧ tail = tail' := by
  induction items generalizing s items' with
  | nil =>
    have heq := h.eq
    simp only [List.flatten_nil, List.nil_append] at heq
    subst heq
    rcases h.tail with rfl | htr
    · obtain ⟨rfl, rfl⟩ := h'.of_nil
      exact ⟨rfl, rfl⟩
    · obtain ⟨rfl, rfl⟩ := h'.of_truncated htr
      exact ⟨rfl, rfl⟩
  | cons w items ih =>
    have hw : IsItem arity w := h.items w (by simp)
    have heq := h.eq
    rw [List.flatten_cons, List.append_assoc] at heq
    subst heq
    obtain ⟨items', rfl, hrest'⟩ := h'.of_item hw
    obtain ⟨items'', heq, hrest⟩ := h.of_item hw
    obtain rfl : items = items'' := (List.cons.inj heq).2
    obtain ⟨rfl, rfl⟩ := ih hrest hrest'
    exact ⟨rfl, rfl⟩

/-- Complete items are determined by their concatenation. -/
theorem flatten_inj {items items' : List (List β)} (h : ∀ w ∈ items, IsItem arity w)
    (h' : ∀ w ∈ items', IsItem arity w) (heq : items.flatten = items'.flatten) :
    items = items' := by
  have hs : Splits arity items.flatten items [] := ⟨by simp, h, .inl rfl⟩
  have hs' : Splits arity items.flatten items' [] := ⟨by simp [heq], h', .inl rfl⟩
  exact (hs.unique hs').1

/-- Every item has a symbol. -/
theorem length_le_length_flatten {items : List (List β)} (h : ∀ w ∈ items, IsItem arity w) :
    items.length ≤ items.flatten.length := by
  induction items with
  | nil => simp
  | cons w items ih =>
    have hrest := ih fun v hv => h v (by simp [hv])
    have hpos := List.length_pos_of_ne_nil (h w (by simp)).ne_nil
    simp only [List.flatten_cons, List.length_append, List.length_cons]
    omega

/-- A stream of items of at most `n` symbols each is no longer than `n` times their number. -/
theorem length_flatten_le {items : List (List β)} {n : ℕ} (hn : ∀ a, arity a < n)
    (h : ∀ w ∈ items, IsItem arity w) : items.flatten.length ≤ n * items.length := by
  induction items with
  | nil => simp
  | cons w items ih =>
    obtain ⟨a, t, rfl, ht⟩ := h w (by simp)
    have hrest := ih fun v hv => h v (by simp [hv])
    have ha := hn a
    simp only [List.flatten_cons, List.length_append, List.length_cons, ht, Nat.mul_add,
      Nat.mul_one] at hrest ⊢
    omega

end IouAi.HeadCode
