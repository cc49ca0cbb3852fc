import Mathlib.Data.List.Basic

/-!
Programs over typed operations. A program either is done with a value or asks
one operation and continues with its answer, so it is a finite tree whose
branches are the possible answers. Nothing here fixes who answers: a run is a
path through the tree, and every assumption about the environment is a
predicate on the events of that path.
-/

namespace Effect

inductive Program {Op : Type} (Ans : Op → Type) (α : Type) : Type where
  | done (value : α)
  | ask (op : Op) (next : Ans op → Program Ans α)

namespace Program

variable {Op : Type} {Ans : Op → Type} {α β γ : Type}

def bind : Program Ans α → (α → Program Ans β) → Program Ans β
  | .done value, rest => rest value
  | .ask op next, rest => .ask op (fun answer => (next answer).bind rest)

instance : Monad (Program Ans) where
  pure := .done
  bind := bind

/-- One operation, answered. -/
def perform (op : Op) : Program Ans (Ans op) := .ask op .done

@[simp] theorem pure_eq (value : α) :
    (pure value : Program Ans α) = .done value := rfl

@[simp] theorem done_bind (value : α) (rest : α → Program Ans β) :
    (Program.done value >>= rest) = rest value := rfl

@[simp] theorem ask_bind (op : Op) (next : Ans op → Program Ans α)
    (rest : α → Program Ans β) :
    (Program.ask op next >>= rest) = .ask op (fun answer => next answer >>= rest) := rfl

@[simp] theorem perform_bind (op : Op) (rest : Ans op → Program Ans β) :
    (perform op >>= rest) = .ask op rest := rfl

@[simp] theorem bind_assoc (p : Program Ans α) (f : α → Program Ans β)
    (g : β → Program Ans γ) :
    (p >>= f >>= g) = (p >>= fun value => f value >>= g) := by
  induction p with
  | done value => rfl
  | ask op next ih =>
      simp only [ask_bind]
      congr 1
      funext answer
      exact ih answer

end Program

/-- An operation together with the answer it received. -/
structure Event {Op : Type} (Ans : Op → Type) where
  op : Op
  answer : Ans op

variable {Op : Type} {Ans : Op → Type} {α β : Type}

/-- `Runs p trace value`: answering the operations of `p` by `trace`, in order,
leads to `value` and uses the trace up. -/
inductive Runs : Program Ans α → List (Event Ans) → α → Prop where
  | done (value : α) : Runs (.done value) [] value
  | ask {op : Op} {next : Ans op → Program Ans α} (answer : Ans op)
      {rest : List (Event Ans)} {value : α} :
      Runs (next answer) rest value → Runs (.ask op next) (⟨op, answer⟩ :: rest) value

/-- `Reaches p trace q`: answering by `trace` leaves the program `q` to run. -/
inductive Reaches : Program Ans α → List (Event Ans) → Program Ans α → Prop where
  | here (p : Program Ans α) : Reaches p [] p
  | ask {op : Op} {next : Ans op → Program Ans α} (answer : Ans op)
      {rest : List (Event Ans)} {q : Program Ans α} :
      Reaches (next answer) rest q → Reaches (.ask op next) (⟨op, answer⟩ :: rest) q

@[simp] theorem runs_done_iff (value result : α) (trace : List (Event Ans)) :
    Runs (.done value) trace result ↔ trace = [] ∧ result = value := by
  constructor
  · intro h
    cases h
    exact ⟨rfl, rfl⟩
  · rintro ⟨rfl, rfl⟩
    exact .done _

@[simp] theorem runs_ask_iff (op : Op) (next : Ans op → Program Ans α)
    (trace : List (Event Ans)) (result : α) :
    Runs (.ask op next) trace result ↔
      ∃ answer rest, trace = ⟨op, answer⟩ :: rest ∧ Runs (next answer) rest result := by
  constructor
  · intro h
    cases h with
    | ask answer tail => exact ⟨answer, _, rfl, tail⟩
  · rintro ⟨answer, rest, rfl, tail⟩
    exact .ask answer tail

/-- A run of a sequence is a run of its first part and then a run of the part
that the first part's value selects. -/
theorem runs_bind_iff (p : Program Ans α) (f : α → Program Ans β)
    (trace : List (Event Ans)) (result : β) :
    Runs (p >>= f) trace result ↔
      ∃ before after value, trace = before ++ after ∧
        Runs p before value ∧ Runs (f value) after result := by
  induction p generalizing trace with
  | done value =>
      constructor
      · intro h
        exact ⟨[], trace, value, rfl, .done value, h⟩
      · rintro ⟨before, after, value, rfl, hfirst, hrest⟩
        cases hfirst
        exact hrest
  | ask op next ih =>
      simp only [Program.ask_bind, runs_ask_iff, ih]
      constructor
      · rintro ⟨answer, _, rfl, before, after, value, rfl, hfirst, hrest⟩
        exact ⟨⟨op, answer⟩ :: before, after, value, rfl,
          ⟨answer, before, rfl, hfirst⟩, hrest⟩
      · rintro ⟨_, after, value, rfl, ⟨answer, before, rfl, hfirst⟩, hrest⟩
        exact ⟨answer, before ++ after, rfl, before, after, value, rfl, hfirst, hrest⟩

theorem Runs.reaches {p : Program Ans α} {trace : List (Event Ans)} {value : α}
    (h : Runs p trace value) : Reaches p trace (.done value) := by
  induction h with
  | done value => exact .here _
  | ask answer _ ih => exact .ask answer ih

/-- Every event of a partial run is the answer to the operation that the events
before it lead to. -/
theorem Reaches.reaches_event {p q : Program Ans α} {before after : List (Event Ans)}
    {event : Event Ans} (h : Reaches p (before ++ event :: after) q) :
    ∃ next, Reaches p before (.ask event.op next) ∧
      Reaches (next event.answer) after q := by
  induction before generalizing p with
  | nil =>
      cases h with
      | ask answer tail => exact ⟨_, .here _, tail⟩
  | cons first before ih =>
      cases h with
      | ask answer tail =>
          obtain ⟨next, hreach, hrest⟩ := ih tail
          exact ⟨next, .ask answer hreach, hrest⟩

theorem Reaches.split {p q : Program Ans α} {first second : List (Event Ans)}
    (h : Reaches p (first ++ second) q) : ∃ r, Reaches p first r ∧ Reaches r second q := by
  induction first generalizing p with
  | nil => exact ⟨p, .here p, h⟩
  | cons event first ih =>
      cases h with
      | ask answer tail =>
          obtain ⟨r, hfirst, hsecond⟩ := ih tail
          exact ⟨r, .ask answer hfirst, hsecond⟩

/-- A strategy answers each operation from the events so far. -/
abbrev Strategy (Ans : Op → Type) := List (Event Ans) → (op : Op) → Ans op

/-- Run a program against a strategy, after the events of `past`. It is total:
programs are finite trees. -/
def execute (respond : Strategy Ans) : List (Event Ans) → Program Ans α →
    List (Event Ans) × α
  | _, .done value => ([], value)
  | past, .ask op next =>
      let event : Event Ans := ⟨op, respond past op⟩
      let (rest, value) := execute respond (past ++ [event]) (next (respond past op))
      (event :: rest, value)

theorem execute_runs (respond : Strategy Ans) (past : List (Event Ans))
    (p : Program Ans α) :
    Runs p (execute respond past p).1 (execute respond past p).2 := by
  induction p generalizing past with
  | done value => exact .done value
  | ask op next ih =>
      exact .ask (respond past op) (ih (respond past op) (past ++ [⟨op, respond past op⟩]))

/-- A partial run against which answers are left can be completed. -/
theorem Reaches.completes (respond : Strategy Ans) {p q : Program Ans α}
    {trace : List (Event Ans)} (h : Reaches p trace q) :
    ∃ rest value, Runs p (trace ++ rest) value := by
  induction h with
  | here p => exact ⟨_, _, execute_runs respond [] p⟩
  | ask answer _ ih =>
      obtain ⟨rest, value, hrun⟩ := ih
      exact ⟨rest, value, .ask answer hrun⟩

/-- Whatever answers a program gets, it comes to an end. -/
theorem execute_terminates (respond : Strategy Ans) (p : Program Ans α) :
    ∃ trace value, Runs p trace value ∧ execute respond [] p = (trace, value) :=
  ⟨_, _, execute_runs respond [] p, rfl⟩

end Effect
