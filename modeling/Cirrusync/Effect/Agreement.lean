import Cirrusync.Effect.Contract

/-!
Two runs of one program. From states that a relation holds together, operations that
they answer alike lead the runs along the same events to states that it holds together
again.
-/

namespace Effect

variable {Op : Type} {Ans : Op → Type} {S α : Type}

/-- At most one run of a program begins a sequence of events. -/
theorem runs_unique {p : Program Ans α} {first first' rest rest' : List (Event Ans)}
    {value value' : α} (hrun : Runs p first value) (hrun' : Runs p first' value')
    (heq : first ++ rest = first' ++ rest') :
    first = first' ∧ value = value' ∧ rest = rest' := by
  induction hrun generalizing first' with
  | done value =>
      cases hrun'
      exact ⟨rfl, rfl, heq⟩
  | ask answer _ ih =>
      cases hrun' with
      | ask answer' hnext =>
          obtain ⟨hevent, htail⟩ := List.cons_eq_cons.mp heq
          cases hevent
          obtain ⟨rfl, hvalue, hrest⟩ := ih hnext htail
          exact ⟨rfl, hvalue, hrest⟩

variable {coherent : S → Event Ans → Prop} {next : S → Event Ans → S}

/-- Each event of a coherent trace is coherent somewhere. -/
theorem coherent_of_mem {s : S} {trace : List (Event Ans)} {event : Event Ans}
    (h : CoherentFrom coherent next s trace) (member : event ∈ trace) :
    ∃ s', coherent s' event := by
  obtain ⟨before, after, rfl⟩ := List.append_of_mem member
  exact ⟨_, (coherentFrom_append.mp h).2.1⟩

/-- Related states answer the allowed operations alike, and stay related. -/
def Deterministic (coherent : S → Event Ans → Prop) (next : S → Event Ans → S)
    (allowed : Op → Prop) (related : S → S → Prop) : Prop :=
  ∀ {s s' op answer answer'}, related s s' → allowed op → coherent s ⟨op, answer⟩ →
    coherent s' ⟨op, answer'⟩ →
    answer = answer' ∧ related (next s ⟨op, answer⟩) (next s' ⟨op, answer'⟩)

theorem runs_agree {allowed : Op → Prop} {related : S → S → Prop}
    (hstep : Deterministic coherent next allowed related) {p : Program Ans α}
    {trace trace' : List (Event Ans)} {value value' : α} (hrun : Runs p trace value)
    (hrun' : Runs p trace' value') (hallowed : ∀ event ∈ trace, allowed event.op) {s s' : S}
    (hrelated : related s s') (hcoherent : CoherentFrom coherent next s trace)
    (hcoherent' : CoherentFrom coherent next s' trace') :
    trace = trace' ∧ value = value' ∧ related (trace.foldl next s) (trace'.foldl next s') := by
  induction hrun generalizing trace' s s' with
  | done value =>
      cases hrun'
      exact ⟨rfl, rfl, hrelated⟩
  | ask answer _ ih =>
      cases hrun' with
      | ask answer' hnext =>
          rw [List.forall_mem_cons] at hallowed
          obtain ⟨hanswer, hafter⟩ := hstep hrelated hallowed.1 hcoherent.1 hcoherent'.1
          subst hanswer
          obtain ⟨rfl, hvalue, hlast⟩ :=
            ih hnext hallowed.2 hafter hcoherent.2 hcoherent'.2
          exact ⟨rfl, hvalue, hlast⟩

/-- A strategy runs a sequence by running its first part and then the part that it
selects. -/
theorem execute_bind {β : Type} (respond : Strategy Ans) (past : List (Event Ans))
    (p : Program Ans α) (f : α → Program Ans β) :
    execute respond past (p >>= f) =
      ((execute respond past p).1 ++
          (execute respond (past ++ (execute respond past p).1)
            (f (execute respond past p).2)).1,
        (execute respond (past ++ (execute respond past p).1)
          (f (execute respond past p).2)).2) := by
  induction p generalizing past with
  | done value => simp [execute]
  | ask op next ih =>
      simp only [Program.ask_bind, execute, ih, List.append_assoc, List.cons_append,
        List.nil_append]

/-- An executed event has an answer of the strategy. -/
theorem answer_of_mem_execute {respond : Strategy Ans} {past : List (Event Ans)}
    {p : Program Ans α} {event : Event Ans} (member : event ∈ (execute respond past p).1) :
    ∃ earlier, event.answer = respond earlier event.op := by
  induction p generalizing past with
  | done value => cases member
  | ask op next ih =>
      rcases List.mem_cons.mp member with rfl | member
      · exact ⟨past, rfl⟩
      · exact ih _ member

/-- A program whose operations always have the same answers comes to one value. -/
theorem runs_answered {respond : (op : Op) → Ans op} {p : Program Ans α}
    {trace : List (Event Ans)} {value : α} (hrun : Runs p trace value)
    (hanswers : ∀ event ∈ trace, event.answer = respond event.op) (past : List (Event Ans)) :
    value = (execute (fun _ => respond) past p).2 := by
  induction hrun generalizing past with
  | done value => rfl
  | ask answer _ ih =>
      rw [List.forall_mem_cons] at hanswers
      obtain ⟨hfirst, hrest⟩ := hanswers
      simp only at hfirst
      subst hfirst
      exact ih hrest _

end Effect
