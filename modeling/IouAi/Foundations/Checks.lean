import IouAi.Foundations.Characters
import Mathlib.Data.List.Forall2

/-!
# Sequences of checks

A function that validates its input is a sequence of checks, each of which raises an error or lets
the computation continue. `raiseIf c e` is the statement `if c: raise e`. The lemmas say when such
a sequence succeeds (`bind_eq_ok`, `raiseIf_bind_eq_ok`) and which error it ends with
(`bind_eq_error`, `raiseIf_bind_eq_error`), one check at a time.
-/

namespace IouAi.Checks

variable {ε α β : Type}

/-- Raise `e` when `c` holds; otherwise continue. -/
def raiseIf (c : Prop) [Decidable c] (e : ε) : Except ε Unit :=
  if c then .error e else .ok ()

@[simp] theorem raiseIf_eq_ok {c : Prop} [Decidable c] {e : ε} {u : Unit} :
    raiseIf c e = .ok u ↔ ¬ c := by
  unfold raiseIf
  split <;> simp_all

@[simp] theorem raiseIf_eq_error {c : Prop} [Decidable c] {e e' : ε} :
    raiseIf c e = .error e' ↔ c ∧ e = e' := by
  unfold raiseIf
  split <;> simp_all

@[simp] theorem pure_eq_ok {a b : α} : (pure a : Except ε α) = .ok b ↔ a = b := by
  change Except.ok a = .ok b ↔ _
  simp

@[simp] theorem pure_ne_error {a : α} {e : ε} : (pure a : Except ε α) ≠ .error e := by
  change Except.ok a ≠ .error e
  simp

@[simp] theorem throw_ne_ok {e : ε} {b : α} : (throw e : Except ε α) ≠ .ok b := by
  change Except.error e ≠ .ok b
  simp

@[simp] theorem throw_eq_error {e e' : ε} : (throw e : Except ε α) = .error e' ↔ e = e' := by
  change Except.error e = .error e' ↔ _
  simp

theorem ok_bind {a : α} {f : α → Except ε β} : (.ok a >>= f) = f a := rfl

/-- A sequence succeeds when its first part does and the rest succeeds on its value. -/
theorem bind_eq_ok {x : Except ε α} {f : α → Except ε β} {b : β} :
    (x >>= f) = .ok b ↔ ∃ a, x = .ok a ∧ f a = .ok b := by
  cases x with
  | error e =>
    change Except.error e = .ok b ↔ _
    simp
  | ok a =>
    change f a = .ok b ↔ _
    simp

/-- A sequence fails when its first part does, or when the rest fails on its value. -/
theorem bind_eq_error {x : Except ε α} {f : α → Except ε β} {e : ε} :
    (x >>= f) = .error e ↔ x = .error e ∨ ∃ a, x = .ok a ∧ f a = .error e := by
  cases x with
  | error e' =>
    change Except.error e' = .error e ↔ _
    simp
  | ok a =>
    change f a = .error e ↔ _
    simp

/-- A check that passes is skipped; one that fails ends the sequence. -/
@[simp] theorem raiseIf_bind_eq_ok {c : Prop} [Decidable c] {e : ε} {f : Unit → Except ε β}
    {b : β} : (raiseIf c e >>= f) = .ok b ↔ ¬ c ∧ f () = .ok b := by
  rw [bind_eq_ok]
  exact ⟨fun ⟨_, h, h'⟩ => ⟨raiseIf_eq_ok.mp h, h'⟩, fun ⟨h, h'⟩ => ⟨(), raiseIf_eq_ok.mpr h, h'⟩⟩

theorem raiseIf_bind_eq_error {c : Prop} [Decidable c] {e e' : ε} {f : Unit → Except ε β} :
    (raiseIf c e >>= f) = .error e' ↔ (c ∧ e = e') ∨ (¬ c ∧ f () = .error e') := by
  rw [bind_eq_error, raiseIf_eq_error]
  exact or_congr_right ⟨fun ⟨_, h, h'⟩ => ⟨raiseIf_eq_ok.mp h, h'⟩,
    fun ⟨h, h'⟩ => ⟨(), raiseIf_eq_ok.mpr h, h'⟩⟩

theorem raiseIf_bind_of_not {c : Prop} [Decidable c] {e : ε} {f : Unit → Except ε β}
    (h : ¬ c) : (raiseIf c e >>= f) = f () := by
  unfold raiseIf
  rw [if_neg h]
  rfl

/-- A check of every element of a list passes when each of them does. -/
theorem forM_eq_ok {xs : List α} {f : α → Except ε Unit} {u : Unit} :
    xs.forM f = .ok u ↔ ∀ x ∈ xs, f x = .ok () := by
  induction xs with
  | nil => simp
  | cons x xs ih =>
    rw [List.forM_eq_forM, List.forM_cons, ← List.forM_eq_forM, bind_eq_ok]
    simp only [ih, List.forall_mem_cons]
    exact ⟨fun ⟨_, h, h'⟩ => ⟨h, h'⟩, fun ⟨h, h'⟩ => ⟨(), h, h'⟩⟩

/-- When `f` succeeds exactly on the values with `P`, and then with `g`, so does mapping it. -/
theorem mapM_eq_ok {f : α → Except ε β} {P : α → Prop} {g : α → β}
    (h : ∀ x y, f x = .ok y ↔ P x ∧ y = g x) {xs : List α} {ys : List β} :
    xs.mapM f = .ok ys ↔ (∀ x ∈ xs, P x) ∧ ys = xs.map g := by
  induction xs generalizing ys with
  | nil =>
    rw [List.mapM_nil, pure_eq_ok]
    simp [eq_comm]
  | cons x xs ih =>
    simp only [List.mapM_cons, bind_eq_ok, h, ih, pure_eq_ok]
    constructor
    · rintro ⟨_, ⟨hx, rfl⟩, _, ⟨hxs, rfl⟩, rfl⟩
      exact ⟨by simpa using ⟨hx, hxs⟩, rfl⟩
    · rintro ⟨hall, rfl⟩
      exact ⟨_, ⟨hall x (by simp), rfl⟩, _, ⟨fun z hz => hall z (by simp [hz]), rfl⟩, rfl⟩

/-- Mapping `f` succeeds when it does on every element, in order. -/
theorem mapM_eq_ok_iff_forall₂ {f : α → Except ε β} {xs : List α} {ys : List β} :
    xs.mapM f = .ok ys ↔ List.Forall₂ (fun x y => f x = .ok y) xs ys := by
  induction xs generalizing ys with
  | nil =>
    rw [List.mapM_nil, pure_eq_ok, List.forall₂_nil_left_iff, eq_comm]
  | cons x xs ih =>
    simp only [List.mapM_cons, bind_eq_ok, ih, pure_eq_ok, List.forall₂_cons_left_iff]
    constructor
    · rintro ⟨y, hy, ys, hys, rfl⟩
      exact ⟨y, ys, hy, hys, rfl⟩
    · rintro ⟨y, ys, hy, hys, rfl⟩
      exact ⟨y, hy, ys, hys, rfl⟩

/-- A loop fails at the first element that does. -/
theorem mapM_eq_error {f : α → Except ε β} {xs : List α} {e : ε} :
    xs.mapM f = .error e ↔ ∃ before x after, xs = before ++ x :: after ∧
      (∀ y ∈ before, ∃ b, f y = .ok b) ∧ f x = .error e := by
  induction xs with
  | nil => simp
  | cons x xs ih =>
    rw [List.mapM_cons, bind_eq_error]
    constructor
    · rintro (hx | ⟨b, hb, hrest⟩)
      · exact ⟨[], x, xs, rfl, fun _ h => absurd h List.not_mem_nil, hx⟩
      · rcases bind_eq_error.mp hrest with hxs | ⟨_, _, hpure⟩
        · obtain ⟨before, y, after, rfl, hbefore, hy⟩ := ih.mp hxs
          exact ⟨x :: before, y, after, rfl, List.forall_mem_cons.mpr ⟨⟨b, hb⟩, hbefore⟩, hy⟩
        · exact absurd hpure pure_ne_error
    · rintro ⟨before, y, after, heq, hbefore, hy⟩
      cases before with
      | nil =>
        obtain ⟨rfl, rfl⟩ := List.cons.inj heq
        exact .inl hy
      | cons x' before =>
        obtain ⟨rfl, rfl⟩ := List.cons.inj heq
        obtain ⟨⟨b, hb⟩, hbefore⟩ := List.forall_mem_cons.mp hbefore
        exact .inr ⟨b, hb, bind_eq_error.mpr (.inl (ih.mpr ⟨before, y, after, rfl, hbefore, hy⟩))⟩

/-- A loop over checks and results. -/
theorem mapM_eq_ok_iff_filterMap {g : α → Except ε β} {P : α → Prop}
    {f : α → Option β} {xs : List α} {ys : List β}
    (hg : ∀ x ∈ xs, ∀ y, g x = .ok y ↔ P x ∧ f x = some y) (hsome : ∀ x ∈ xs, P x → (f x).isSome) :
    xs.mapM g = .ok ys ↔ (∀ x ∈ xs, P x) ∧ ys = xs.filterMap f := by
  induction xs generalizing ys with
  | nil =>
    rw [List.mapM_nil, pure_eq_ok, List.filterMap_nil, eq_comm]
    exact (and_iff_right fun x hx => absurd hx List.not_mem_nil).symm
  | cons x xs ih =>
    obtain ⟨hx, hxs⟩ := List.forall_mem_cons.mp hg
    obtain ⟨hxsome, hxssome⟩ := List.forall_mem_cons.mp hsome
    simp only [List.mapM_cons, bind_eq_ok, hx, ih hxs hxssome, List.forall_mem_cons]
    constructor
    · rintro ⟨y, ⟨hP, hf⟩, ys', ⟨hPs, rfl⟩, heq⟩
      cases heq
      exact ⟨⟨hP, hPs⟩, (List.filterMap_cons_some hf).symm⟩
    · rintro ⟨⟨hP, hPs⟩, rfl⟩
      obtain ⟨y, hf⟩ := Option.isSome_iff_exists.mp (hxsome hP)
      exact ⟨y, ⟨hP, hf⟩, _, ⟨hPs, rfl⟩, by rw [List.filterMap_cons_some hf]; rfl⟩

/-- Every element on the right of related lists is related to one on the left. -/
theorem exists_of_mem_right {R : α → β → Prop} {xs : List α} {ys : List β}
    (h : List.Forall₂ R xs ys) {y : β} (hy : y ∈ ys) : ∃ x ∈ xs, R x y := by
  induction h with
  | nil => simp at hy
  | cons hxy _ ih =>
    rcases List.mem_cons.mp hy with rfl | hy
    · exact ⟨_, List.mem_cons_self, hxy⟩
    · obtain ⟨x, hx, hR⟩ := ih hy
      exact ⟨x, List.mem_cons_of_mem _ hx, hR⟩

theorem exists_forall₂ {R : α → β → Prop} {xs : List α} (h : ∀ x ∈ xs, ∃ y, R x y) :
    ∃ ys, List.Forall₂ R xs ys := by
  induction xs with
  | nil => exact ⟨[], .nil⟩
  | cons x xs ih =>
    obtain ⟨y, hy⟩ := h x (by simp)
    obtain ⟨ys, hys⟩ := ih fun z hz => h z (by simp [hz])
    exact ⟨y :: ys, .cons hy hys⟩

theorem exists_getElem?_of_forall₂ {R : α → β → Prop} {xs : List α} {ys : List β}
    (h : List.Forall₂ R xs ys) {i : ℕ} {y : β} (hy : ys[i]? = some y) :
    ∃ x, xs[i]? = some x ∧ R x y := by
  induction h generalizing i with
  | nil => simp at hy
  | @cons a b xs ys hab _ ih =>
    cases i with
    | zero => exact ⟨a, rfl, Option.some.inj hy ▸ hab⟩
    | succ i => exact ih hy

end IouAi.Checks
