import Mathlib.Data.Set.Insert
import Mathlib.Logic.Relation

/-!
# Interleaved programs over a shared state

A `Program` issues operations one after another and goes on with their outcomes. Threads run
programs over one shared state, one operation at a time in any order, while the environment moves
the state between operations. Each thread keeps the trace of its operations, and each entry of a
trace keeps the state that it met.

A `Discipline` has an invariant of the state, an order in which the state only moves upward, and a
guard that an operation must meet. A program that is `Safe` meets its guards whatever the other
threads do (`Safe`), and a system of safe programs keeps the invariant in every interleaving
(`System.reachable`).
-/

namespace IouAi.Threads

/-- A program: a value, or an operation and what follows each of its outcomes. -/
inductive Program (Op : Type) (Result : Op → Type) (α : Type) : Type
  | done (value : α)
  | call (op : Op) (next : Result op → Program Op Result α)

variable {Op : Type} {Result : Op → Type} {α β σ : Type}

namespace Program

protected def bind : Program Op Result α → (α → Program Op Result β) → Program Op Result β
  | done value, f => f value
  | call op next, f => call op fun outcome => (next outcome).bind f

instance : Monad (Program Op Result) where
  pure := done
  bind := Program.bind

/-- One operation. -/
def perform (op : Op) : Program Op Result (Result op) := call op done

@[simp] theorem pure_eq (value : α) : (pure value : Program Op Result α) = done value := rfl

@[simp] theorem done_bind (value : α) (f : α → Program Op Result β) :
    (done value >>= f) = f value := rfl

@[simp] theorem call_bind (op : Op) (next : Result op → Program Op Result α)
    (f : α → Program Op Result β) :
    (call op next >>= f) = call op fun outcome => next outcome >>= f := rfl

@[simp] theorem perform_bind (op : Op) (f : Result op → Program Op Result β) :
    (perform op >>= f) = call op f := rfl

theorem bind_done (program : Program Op Result α) : (program >>= done) = program := by
  induction program with
  | done value => rfl
  | call op next ih => exact congrArg (call op) (funext ih)

/-- Every operation that the program can issue is allowed. -/
def Only (allowed : Op → Prop) : Program Op Result α → Prop
  | done _ => True
  | call op next => allowed op ∧ ∀ outcome, (next outcome).Only allowed

@[simp] theorem only_done {allowed : Op → Prop} {value : α} :
    (done value : Program Op Result α).Only allowed := trivial

@[simp] theorem only_call {allowed : Op → Prop} {op : Op}
    {next : Result op → Program Op Result α} :
    (call op next).Only allowed ↔ allowed op ∧ ∀ outcome, (next outcome).Only allowed := Iff.rfl

theorem Only.mono {allowed allowed' : Op → Prop} {program : Program Op Result α}
    (h : program.Only allowed) (hsub : ∀ op, allowed op → allowed' op) : program.Only allowed' := by
  induction program with
  | done value => exact trivial
  | call op next ih => exact ⟨hsub op h.1, fun outcome => ih outcome (h.2 outcome)⟩

theorem Only.bind {allowed : Op → Prop} {program : Program Op Result α}
    {f : α → Program Op Result β} (h : program.Only allowed) (hf : ∀ value, (f value).Only allowed) :
    (program >>= f).Only allowed := by
  induction program with
  | done value => exact hf value
  | call op next ih => exact ⟨h.1, fun outcome => ih outcome (h.2 outcome)⟩

end Program

/-- An operation of a thread, with the state that it met and its outcome. -/
structure Entry (σ : Type) (Op : Type) (Result : Op → Type) where
  before : σ
  op : Op
  outcome : Result op

/-! ## Disciplines -/

/-- What the operations and the environment do to the shared state. -/
structure Semantics (σ : Type) (Op : Type) (Result : Op → Type) where
  exec : σ → (op : Op) → Result op → σ → Prop
  env : σ → σ → Prop

/-- An invariant, an upward order and a guard that the operations and the environment respect. -/
structure Discipline (S : Semantics σ Op Result) where
  Inv : σ → Prop
  le : σ → σ → Prop
  guard : List (Entry σ Op Result) → σ → Op → Prop
  le_refl : ∀ s, le s s
  le_trans : ∀ {s t u}, le s t → le t u → le s u
  exec_inv : ∀ {trace s op outcome s'}, Inv s → guard trace s op → S.exec s op outcome s' → Inv s'
  exec_le : ∀ {trace s op outcome s'}, Inv s → guard trace s op → S.exec s op outcome s' → le s s'
  env_inv : ∀ {s s'}, Inv s → S.env s s' → Inv s'
  env_le : ∀ {s s'}, Inv s → S.env s s' → le s s'

variable {S : Semantics σ Op Result} (D : Discipline S)

/-- In every state that the others may reach, the program meets the guard of its next operation, and
goes on safely; its value and its trace meet the postcondition. -/
def Safe (post : α → List (Entry σ Op Result) → Prop) :
    Program Op Result α → List (Entry σ Op Result) → σ → Prop
  | .done value, trace, _ => post value trace
  | .call op next, trace, s => ∀ s₁, D.Inv s₁ → D.le s s₁ → D.guard trace s₁ op
      ∧ ∀ outcome s₂, S.exec s₁ op outcome s₂ →
        Safe post (next outcome) (trace ++ [⟨s₁, op, outcome⟩]) s₂

variable {D} {post : α → List (Entry σ Op Result) → Prop} {program : Program Op Result α}
  {trace : List (Entry σ Op Result)} {s s' : σ}

/-- Safety survives what the others do. -/
theorem Safe.mono (h : Safe D post program trace s) (hle : D.le s s') :
    Safe D post program trace s' := by
  cases program with
  | done value => exact h
  | call op next => exact fun s₁ hinv hle₁ => h s₁ hinv (D.le_trans hle hle₁)

/-- A program is safe when its first operation may come at any time and it goes on safely. -/
theorem Safe.call {op : Op} {next : Result op → Program Op Result α}
    (hguard : ∀ s₁, D.Inv s₁ → D.le s s₁ → D.guard trace s₁ op)
    (hnext : ∀ s₁ outcome s₂, D.Inv s₁ → D.le s s₁ → S.exec s₁ op outcome s₂ →
      Safe D post (next outcome) (trace ++ [⟨s₁, op, outcome⟩]) s₂) :
    Safe D post (.call op next) trace s :=
  fun s₁ hinv hle => ⟨hguard s₁ hinv hle, fun outcome s₂ => hnext s₁ outcome s₂ hinv hle⟩

/-- A program goes on safely after one that is safe. -/
theorem Safe.bind {Q : α → List (Entry σ Op Result) → Prop}
    {post' : β → List (Entry σ Op Result) → Prop} {f : α → Program Op Result β}
    (h : Safe D Q program trace s)
    (hf : ∀ value trace s, Q value trace → Safe D post' (f value) trace s) :
    Safe D post' (program >>= f) trace s := by
  induction program generalizing trace s with
  | done value => exact hf value trace s h
  | call op next ih =>
    intro s₁ hinv hle
    obtain ⟨hguard, hnext⟩ := h s₁ hinv hle
    exact ⟨hguard, fun outcome s₂ hexec => ih outcome (hnext outcome s₂ hexec)⟩

/-- A program whose operations are all unguarded is safe; it adds only such operations to the
trace. -/
theorem Safe.of_only_append {allowed : Op → Prop}
    (hguard : ∀ trace s op, allowed op → D.guard trace s op)
    (hpost : ∀ value rest, (∀ entry ∈ rest, allowed entry.op) → post value (trace ++ rest))
    (h : program.Only allowed) : Safe D post program trace s := by
  suffices haux : ∀ (rest : List (Entry σ Op Result)) (s : σ),
      (∀ entry ∈ rest, allowed entry.op) → Safe D post program (trace ++ rest) s by
    have hnone := haux [] s (by simp)
    rwa [List.append_nil] at hnone
  induction program with
  | done value => exact fun rest _ hrest => hpost value rest hrest
  | call op next ih =>
    intro rest s hrest s₁ _ _
    refine ⟨hguard _ _ _ h.1, fun outcome s₂ _ => ?_⟩
    rw [List.append_assoc]
    refine ih outcome (h.2 outcome) _ _ ?_
    intro entry hentry
    rcases List.mem_append.mp hentry with hentry | hentry
    · exact hrest entry hentry
    · rw [List.mem_singleton.mp hentry]
      exact h.1

theorem Safe.of_only {allowed : Op → Prop}
    (hguard : ∀ trace s op, allowed op → D.guard trace s op)
    (hpost : ∀ value trace', (∀ entry ∈ trace', entry ∈ trace ∨ allowed entry.op) →
      post value trace')
    (h : program.Only allowed) : Safe D post program trace s := by
  refine Safe.of_only_append hguard (fun value rest hrest => hpost value _ ?_) h
  intro entry hentry
  exact (List.mem_append.mp hentry).imp id fun hentry => hrest entry hentry

/-! ## Systems -/

/-- A running program and what it has done. -/
structure Thread (σ : Type) (Op : Type) (Result : Op → Type) (α : Type) where
  trace : List (Entry σ Op Result)
  program : Program Op Result α

structure System (σ : Type) (Op : Type) (Result : Op → Type) (α : Type) where
  state : σ
  threads : List (Thread σ Op Result α)

namespace System

/-- The entries of all threads. -/
def entries (sys : System σ Op Result α) : Set (Entry σ Op Result) :=
  {entry | ∃ thread ∈ sys.threads, entry ∈ thread.trace}

/-- A thread starts, the environment moves, or one thread performs its next operation. -/
inductive Step (S : Semantics σ Op Result) (start : Program Op Result α → Prop) :
    System σ Op Result α → System σ Op Result α → Prop
  | start {sys : System σ Op Result α} {program : Program Op Result α} (h : start program) :
      Step S start sys ⟨sys.state, sys.threads ++ [⟨[], program⟩]⟩
  | env {sys : System σ Op Result α} {s' : σ} (h : S.env sys.state s') :
      Step S start sys ⟨s', sys.threads⟩
  | run {s s' : σ} {before after : List (Thread σ Op Result α)}
      {trace : List (Entry σ Op Result)} {op : Op}
      {next : Result op → Program Op Result α} {outcome : Result op}
      (h : S.exec s op outcome s') :
      Step S start ⟨s, before ++ ⟨trace, .call op next⟩ :: after⟩
        ⟨s', before ++ ⟨trace ++ [⟨s, op, outcome⟩], next outcome⟩ :: after⟩

/-- The state moves by an operation or by the environment. -/
def Move (S : Semantics σ Op Result) (s s' : σ) : Prop :=
  (∃ op outcome, S.exec s op outcome s') ∨ S.env s s'

/-- Whatever its threads are, the state of a system only moves. -/
theorem moves {start : Program Op Result α → Prop} {sys sys' : System σ Op Result α}
    (h : Relation.ReflTransGen (Step S start) sys sys') :
    Relation.ReflTransGen (Move S) sys.state sys'.state := by
  induction h with
  | refl => exact .refl
  | tail _ hstep ih =>
    cases hstep with
    | start => exact ih
    | env hmove => exact ih.tail (.inr hmove)
    | run hexec => exact ih.tail (.inl ⟨_, _, hexec⟩)

end System

/-! ## Running a program alone -/

/-- The run of a program by itself, under a function that performs operations: its value, the last
state and the trace. -/
def Program.play (act : (s : σ) → (op : Op) → Result op × σ) :
    Program Op Result α → σ → List (Entry σ Op Result) → α × σ × List (Entry σ Op Result)
  | .done value, s, trace => (value, s, trace)
  | .call op next, s, trace =>
    (next (act s op).1).play act (act s op).2 (trace ++ [⟨s, op, (act s op).1⟩])

/-- The system after one more program has started and run by itself. -/
def System.play (act : (s : σ) → (op : Op) → Result op × σ) (program : Program Op Result α)
    (sys : System σ Op Result α) : System σ Op Result α :=
  let (value, s, trace) := program.play act sys.state []
  ⟨s, sys.threads ++ [⟨trace, .done value⟩]⟩

theorem System.play_reachable {S : Semantics σ Op Result} {start : Program Op Result α → Prop}
    {act : (s : σ) → (op : Op) → Result op × σ}
    (hact : ∀ s op, S.exec s op (act s op).1 (act s op).2) {program : Program Op Result α}
    (hstart : start program) (sys : System σ Op Result α) :
    Relation.ReflTransGen (System.Step S start) sys (System.play act program sys) := by
  have hrun : ∀ (program : Program Op Result α) (s : σ) (trace : List (Entry σ Op Result)),
      Relation.ReflTransGen (System.Step S start) ⟨s, sys.threads ++ [⟨trace, program⟩]⟩
        ⟨(program.play act s trace).2.1,
          sys.threads ++ [⟨(program.play act s trace).2.2, .done (program.play act s trace).1⟩]⟩ := by
    intro program
    induction program with
    | done value => exact fun s trace => .refl
    | call op next ih =>
      intro s trace
      exact Relation.ReflTransGen.head (System.Step.run (hact s op)) (ih _ _ _)
  exact Relation.ReflTransGen.head (System.Step.start hstart) (hrun program sys.state [])

/-- A program goes on alone from a state: what is left of it, the state then and what it has done. -/
inductive Leads (S : Semantics σ Op Result) : Program Op Result α → σ → Program Op Result α → σ →
    List (Entry σ Op Result) → Prop
  | refl (program : Program Op Result α) (s : σ) : Leads S program s program s []
  | call {op : Op} {next : Result op → Program Op Result α} {outcome : Result op} {s s₁ s₂ : σ}
      {rest : Program Op Result α} {entries : List (Entry σ Op Result)} (h : S.exec s op outcome s₁)
      (hrest : Leads S (next outcome) s₁ rest s₂ entries) :
      Leads S (.call op next) s rest s₂ (⟨s, op, outcome⟩ :: entries)

namespace Leads

variable {S : Semantics σ Op Result} {first second third : Program Op Result α} {s₁ s₂ s₃ : σ}
  {entries entries' : List (Entry σ Op Result)}

theorem trans (h : Leads S first s₁ second s₂ entries) (h' : Leads S second s₂ third s₃ entries') :
    Leads S first s₁ third s₃ (entries ++ entries') := by
  induction h with
  | refl => exact h'
  | call hexec _ ih => exact .call hexec (ih h')

theorem bind (h : Leads S first s₁ second s₂ entries) (f : α → Program Op Result β) :
    Leads S (first >>= f) s₁ (second >>= f) s₂ entries := by
  induction h with
  | refl => exact .refl _ _
  | call hexec _ ih => exact .call hexec ih

/-- A thread goes on while the others stand still. -/
theorem steps {start : Program Op Result α → Prop} (h : Leads S first s₁ second s₂ entries)
    (before after : List (Thread σ Op Result α)) (trace : List (Entry σ Op Result)) :
    Relation.ReflTransGen (System.Step S start) ⟨s₁, before ++ ⟨trace, first⟩ :: after⟩
      ⟨s₂, before ++ ⟨trace ++ entries, second⟩ :: after⟩ := by
  induction h generalizing trace with
  | refl => rw [List.append_nil]
  | @call op next outcome s _ _ _ entries hexec _ ih =>
    have hnext := ih (trace ++ [⟨s, op, outcome⟩])
    rw [List.append_assoc] at hnext
    exact .head (System.Step.run hexec) hnext

/-- A thread starts and goes on. -/
theorem start_steps {start : Program Op Result α → Prop} (h : Leads S first s₁ second s₂ entries)
    (hstart : start first) (threads : List (Thread σ Op Result α)) :
    Relation.ReflTransGen (System.Step S start) ⟨s₁, threads⟩ ⟨s₂, threads ++ [⟨entries, second⟩]⟩ :=
  .head (System.Step.start hstart) (h.steps threads [] [])

end Leads

/-- Every entry of the trace met its guard when it came. -/
def Guarded (D : Discipline S) (trace : List (Entry σ Op Result)) : Prop :=
  ∀ before entry after, trace = before ++ entry :: after → D.guard before entry.before entry.op

theorem Guarded.of_append {D : Discipline S} {entry : Entry σ Op Result}
    (h : Guarded D (trace ++ [entry])) :
    Guarded D trace ∧ D.guard trace entry.before entry.op := by
  refine ⟨fun before other after heq => ?_, h trace entry [] rfl⟩
  exact h before other (after ++ [entry]) (by rw [heq, List.append_assoc, List.cons_append])

theorem Guarded.append {D : Discipline S} {entry : Entry σ Op Result} (h : Guarded D trace)
    (hguard : D.guard trace entry.before entry.op) : Guarded D (trace ++ [entry]) := by
  intro before other after heq
  rcases List.eq_nil_or_concat after with rfl | ⟨after', last, rfl⟩
  · obtain ⟨rfl, hother⟩ := List.append_inj' heq rfl
    cases hother
    exact hguard
  · rw [List.concat_eq_append, ← List.cons_append, ← List.append_assoc] at heq
    exact h before other after' (List.append_inj' heq rfl).1

/-- Every entry of the trace is as the entries before it demand. -/
def Throughout (P : List (Entry σ Op Result) → Entry σ Op Result → Prop)
    (trace : List (Entry σ Op Result)) : Prop :=
  ∀ earlier entry later, trace = earlier ++ entry :: later → P earlier entry

namespace Throughout

variable {P : List (Entry σ Op Result) → Entry σ Op Result → Prop}
  {trace rest : List (Entry σ Op Result)} {entry : Entry σ Op Result}

theorem nil : Throughout P [] := by
  intro earlier entry later heq
  simp at heq

theorem of_append (h : Throughout P (trace ++ rest)) : Throughout P trace := by
  rintro earlier entry later rfl
  exact h earlier entry (later ++ rest) (by simp)

theorem last (h : Throughout P (trace ++ [entry])) : P trace entry := h trace entry [] rfl

theorem concat (h : Throughout P trace) (hentry : P trace entry) : Throughout P (trace ++ [entry]) := by
  intro earlier other later heq
  rcases List.eq_nil_or_concat later with rfl | ⟨later', last, rfl⟩
  · obtain ⟨rfl, hother⟩ := List.append_inj' heq rfl
    cases hother
    exact hentry
  · rw [List.concat_eq_append, ← List.cons_append, ← List.append_assoc] at heq
    exact h earlier other later' (List.append_inj' heq rfl).1

end Throughout

/-- What holds in every reachable system. `K` is a property of the state and of the traces of all
threads. -/
structure System.Traced (D : Discipline S) (post : α → List (Entry σ Op Result) → Prop)
    (K : σ → List (List (Entry σ Op Result)) → Prop) (sys : System σ Op Result α) : Prop where
  inv : D.Inv sys.state
  safe : ∀ thread ∈ sys.threads, Safe D post thread.program thread.trace sys.state
  guarded : ∀ thread ∈ sys.threads, Guarded D thread.trace
  history : K sys.state (sys.threads.map Thread.trace)

/-- The rule of interleavings: when every program that starts is safe, the invariant, the guards and
the property of the traces hold in every reachable system. -/
theorem System.traced_reachable {start : Program Op Result α → Prop}
    {K : σ → List (List (Entry σ Op Result)) → Prop} {s₀ : σ} (hinit : D.Inv s₀) (hK : K s₀ [])
    (hstart : ∀ program, start program → ∀ s, D.Inv s → Safe D post program [] s)
    (hnew : ∀ s traces, K s traces → K s (traces ++ [[]]))
    (hexec : ∀ s before trace after op outcome s', D.Inv s → K s (before ++ trace :: after) →
      D.guard trace s op → S.exec s op outcome s' →
        K s' (before ++ (trace ++ [⟨s, op, outcome⟩]) :: after))
    (henv : ∀ s traces s', D.Inv s → K s traces → S.env s s' → K s' traces)
    {sys : System σ Op Result α}
    (h : Relation.ReflTransGen (System.Step S start) ⟨s₀, []⟩ sys) :
    System.Traced D post K sys := by
  induction h with
  | refl => exact ⟨hinit, by simp, by simp, hK⟩
  | tail _ hstep ih =>
    cases hstep with
    | @start _ program hprogram =>
      have hhistory := hnew _ _ ih.history
      refine ⟨ih.inv, ?_, ?_, by simpa using hhistory⟩
      · intro thread hthread
        rcases List.mem_append.mp hthread with hthread | hthread
        · exact ih.safe thread hthread
        · rw [List.mem_singleton.mp hthread]
          exact hstart program hprogram _ ih.inv
      · intro thread hthread
        rcases List.mem_append.mp hthread with hthread | hthread
        · exact ih.guarded thread hthread
        · rw [List.mem_singleton.mp hthread]
          intro before entry after heq
          simp at heq
    | env hmove =>
      exact ⟨D.env_inv ih.inv hmove, fun thread hthread =>
        (ih.safe thread hthread).mono (D.env_le ih.inv hmove), ih.guarded,
        henv _ _ _ ih.inv ih.history hmove⟩
    | @run s s' before after trace op next outcome hop =>
      have hmem : (⟨trace, .call op next⟩ : Thread σ Op Result α)
          ∈ before ++ ⟨trace, .call op next⟩ :: after := by simp
      obtain ⟨hguard, hnext⟩ := ih.safe _ hmem s ih.inv (D.le_refl s)
      have hle := D.exec_le ih.inv hguard hop
      have hothers : ∀ thread, thread ∈ before ∨ thread ∈ after →
          thread ∈ before ++ ⟨trace, .call op next⟩ :: after := by
        rintro thread (hthread | hthread) <;> simp [hthread]
      refine ⟨D.exec_inv ih.inv hguard hop, ?_, ?_, ?_⟩
      · intro thread hthread
        rcases List.mem_append.mp hthread with hthread | hthread
        · exact (ih.safe thread (hothers thread (.inl hthread))).mono hle
        · rcases List.mem_cons.mp hthread with rfl | hthread
          · exact hnext outcome s' hop
          · exact (ih.safe thread (hothers thread (.inr hthread))).mono hle
      · intro thread hthread
        rcases List.mem_append.mp hthread with hthread | hthread
        · exact ih.guarded thread (hothers thread (.inl hthread))
        · rcases List.mem_cons.mp hthread with rfl | hthread
          · exact (ih.guarded _ hmem).append hguard
          · exact ih.guarded thread (hothers thread (.inr hthread))
      · have hhistory := ih.history
        rw [List.map_append, List.map_cons] at hhistory ⊢
        exact hexec _ _ trace _ _ _ _ ih.inv hhistory hguard hop

/-- What holds in every reachable system, for a property of the state and of all entries. -/
structure System.Sound (D : Discipline S) (post : α → List (Entry σ Op Result) → Prop)
    (K : σ → Set (Entry σ Op Result) → Prop) (sys : System σ Op Result α) : Prop where
  inv : D.Inv sys.state
  safe : ∀ thread ∈ sys.threads, Safe D post thread.program thread.trace sys.state
  guarded : ∀ thread ∈ sys.threads, Guarded D thread.trace
  history : K sys.state sys.entries

/-- The entries of some traces. -/
def entriesOf (traces : List (List (Entry σ Op Result))) : Set (Entry σ Op Result) :=
  {entry | ∃ trace ∈ traces, entry ∈ trace}

theorem entriesOf_append_nil (traces : List (List (Entry σ Op Result))) :
    entriesOf (traces ++ [[]]) = entriesOf traces := by
  ext entry
  simp [entriesOf, or_and_right, exists_or]

theorem entriesOf_run (before after : List (List (Entry σ Op Result)))
    (trace : List (Entry σ Op Result)) (entry : Entry σ Op Result) :
    entriesOf (before ++ (trace ++ [entry]) :: after)
      = insert entry (entriesOf (before ++ trace :: after)) := by
  ext other
  simp only [entriesOf, Set.mem_ofPred_eq, Set.mem_insert_iff, List.mem_append, List.mem_cons]
  constructor
  · rintro ⟨trace', htrace | rfl | htrace, hother⟩
    · exact .inr ⟨trace', .inl htrace, hother⟩
    · rcases List.mem_append.mp hother with hother | hother
      · exact .inr ⟨_, .inr (.inl rfl), hother⟩
      · exact .inl (List.mem_singleton.mp hother)
    · exact .inr ⟨trace', .inr (.inr htrace), hother⟩
  · rintro (rfl | ⟨trace', htrace | rfl | htrace, hother⟩)
    · exact ⟨_, .inr (.inl rfl), by simp⟩
    · exact ⟨trace', .inl htrace, hother⟩
    · exact ⟨_, .inr (.inl rfl), List.mem_append_left _ hother⟩
    · exact ⟨trace', .inr (.inr htrace), hother⟩

theorem entriesOf_threads (sys : System σ Op Result α) :
    entriesOf (sys.threads.map Thread.trace) = sys.entries := by
  ext entry
  simp [entriesOf, System.entries]

/-- The rule of interleavings for a property of all entries. -/
theorem System.reachable {start : Program Op Result α → Prop}
    {K : σ → Set (Entry σ Op Result) → Prop} {s₀ : σ} (hinit : D.Inv s₀) (hK : K s₀ ∅)
    (hstart : ∀ program, start program → ∀ s, D.Inv s → Safe D post program [] s)
    (hexec : ∀ s E trace op outcome s', D.Inv s → K s E → (∀ entry ∈ trace, entry ∈ E) →
      D.guard trace s op → S.exec s op outcome s' → K s' (insert ⟨s, op, outcome⟩ E))
    (henv : ∀ s E s', D.Inv s → K s E → S.env s s' → K s' E)
    {sys : System σ Op Result α}
    (h : Relation.ReflTransGen (System.Step S start) ⟨s₀, []⟩ sys) :
    System.Sound D post K sys := by
  have hnone : entriesOf ([] : List (List (Entry σ Op Result))) = ∅ := by
    ext entry
    simp [entriesOf]
  have htraced : System.Traced D post (fun s traces => K s (entriesOf traces)) sys := by
    refine System.traced_reachable hinit ?_ hstart ?_ ?_ ?_ h
    · rwa [hnone]
    · intro s traces hhistory
      rwa [entriesOf_append_nil]
    · intro s before trace after op outcome s' hinv hhistory hguard hop
      rw [entriesOf_run]
      refine hexec s _ trace op outcome s' hinv hhistory ?_ hguard hop
      exact fun entry hentry => ⟨trace, by simp, hentry⟩
    · exact fun s traces s' hinv hhistory hmove => henv s _ s' hinv hhistory hmove
  refine ⟨htraced.inv, htraced.safe, htraced.guarded, ?_⟩
  have hhistory := htraced.history
  rwa [entriesOf_threads] at hhistory

/-- A thread that has finished meets the postcondition. -/
theorem System.Sound.of_done {K : σ → Set (Entry σ Op Result) → Prop} {sys : System σ Op Result α}
    (h : System.Sound D post K sys) {thread : Thread σ Op Result α} (hthread : thread ∈ sys.threads)
    {value : α} (hdone : thread.program = .done value) : post value thread.trace := by
  have hsafe := h.safe thread hthread
  rw [hdone] at hsafe
  exact hsafe

end IouAi.Threads
