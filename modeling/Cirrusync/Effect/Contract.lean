import Cirrusync.Effect.Program

/-!
Pre- and postconditions for programs over operations. A contract names what
others may do to a state between two operations, what the program may ask in a
state, and how an answered operation changes it. `Holds` is the weakest
precondition for such a contract, by recursion on the program tree, so it
speaks of unfinished programs as well as finished ones.
-/

namespace Effect

variable {Op : Type} {Ans : Op → Type} {S α β : Type}

structure Contract {Op : Type} (Ans : Op → Type) (S : Type) where
  interferes : S → S → Prop
  permits : S → Op → Prop
  advances : S → (op : Op) → Ans op → S → Prop
  interferes_refl : ∀ s, interferes s s
  interferes_trans : ∀ s t u, interferes s t → interferes t u → interferes s u

/-- A contract for a program that has its state to itself. -/
def Contract.solo (permits : S → Op → Prop)
    (advances : S → (op : Op) → Ans op → S → Prop) : Contract Ans S where
  interferes := Eq
  permits := permits
  advances := advances
  interferes_refl := fun _ => rfl
  interferes_trans := fun _ _ _ h g => h.trans g

variable (c : Contract Ans S)

/-- From a state of which `Holds post p` is true, every operation `p` asks is
permitted when it is asked, and `p` can only end where `post` is true. -/
def Holds (post : α → S → Prop) : Program Ans α → S → Prop
  | .done value, s => ∀ s', c.interferes s s' → post value s'
  | .ask op next, s => ∀ s', c.interferes s s' → c.permits s' op ∧
      ∀ answer s'', c.advances s' op answer s'' → Holds post (next answer) s''

/-- How a trace of answered operations, with interference between them, leads
from one state to another. -/
inductive Path : S → List (Event Ans) → S → Prop where
  | nil {s s' : S} : c.interferes s s' → Path s [] s'
  | cons {s s' s'' t : S} {op : Op} {answer : Ans op} {rest : List (Event Ans)} :
      c.interferes s s' → c.advances s' op answer s'' → Path s'' rest t →
      Path s (⟨op, answer⟩ :: rest) t

variable {c}

theorem holds_interferes {post : α → S → Prop} {p : Program Ans α} {s s' : S}
    (h : Holds c post p s) (hs : c.interferes s s') : Holds c post p s' := by
  cases p with
  | done value => exact fun t ht => h t (c.interferes_trans _ _ _ hs ht)
  | ask op next => exact fun t ht => h t (c.interferes_trans _ _ _ hs ht)

theorem holds_mono {post post' : α → S → Prop} {p : Program Ans α} {s : S}
    (h : Holds c post p s) (himp : ∀ value s', post value s' → post' value s') :
    Holds c post' p s := by
  induction p generalizing s with
  | done value => exact fun s' hs => himp _ _ (h s' hs)
  | ask op next ih =>
      intro s' hs
      obtain ⟨hpermits, hnext⟩ := h s' hs
      exact ⟨hpermits, fun answer s'' hadv => ih answer (hnext answer s'' hadv)⟩

theorem holds_bind {post : β → S → Prop} {p : Program Ans α}
    {f : α → Program Ans β} {s : S}
    (h : Holds c (fun value s' => Holds c post (f value) s') p s) :
    Holds c post (p >>= f) s := by
  induction p generalizing s with
  | done value => exact h s (c.interferes_refl s)
  | ask op next ih =>
      intro s' hs
      obtain ⟨hpermits, hnext⟩ := h s' hs
      exact ⟨hpermits, fun answer s'' hadv => ih answer (hnext answer s'' hadv)⟩

/-- A program under weaker assumptions on the others. -/
theorem holds_weaken {c' : Contract Ans S} {post : α → S → Prop} {p : Program Ans α} {s : S}
    (hinterferes : ∀ s s', c'.interferes s s' → c.interferes s s')
    (hpermits : ∀ s op, c.permits s op → c'.permits s op)
    (hadvances : ∀ s op answer s', c'.advances s op answer s' → c.advances s op answer s')
    (h : Holds c post p s) : Holds c' post p s := by
  induction p generalizing s with
  | done value => exact fun s' hs => h s' (hinterferes s s' hs)
  | ask op next ih =>
      intro s' hs
      obtain ⟨hop, hnext⟩ := h s' (hinterferes s s' hs)
      exact ⟨hpermits s' op hop, fun answer s'' hadv =>
        ih answer (hnext answer s'' (hadvances s' op answer s'' hadv))⟩

@[simp] theorem holds_solo_done {permits : S → Op → Prop}
    {advances : S → (op : Op) → Ans op → S → Prop} {post : α → S → Prop}
    {value : α} {s : S} :
    Holds (.solo permits advances) post (.done value) s ↔ post value s := by
  simp [Holds, Contract.solo]

@[simp] theorem holds_solo_ask {permits : S → Op → Prop}
    {advances : S → (op : Op) → Ans op → S → Prop} {post : α → S → Prop}
    {op : Op} {next : Ans op → Program Ans α} {s : S} :
    Holds (.solo permits advances) post (.ask op next) s ↔
      permits s op ∧ ∀ answer s', advances s op answer s' →
        Holds (.solo permits advances) post (next answer) s' := by
  simp [Holds, Contract.solo]

/-- Where a partial run has got to, the rest of the program still holds. -/
theorem holds_reaches {post : α → S → Prop} {p q : Program Ans α}
    {trace : List (Event Ans)} {s s' : S} (h : Holds c post p s)
    (hreach : Reaches p trace q) (hpath : Path c s trace s') :
    Holds c post q s' := by
  induction hreach generalizing s with
  | here p =>
      cases hpath with
      | nil hs => exact holds_interferes h hs
  | ask answer _ ih =>
      cases hpath with
      | cons hs hadv hrest => exact ih ((h _ hs).2 answer _ hadv) hrest

theorem holds_run {post : α → S → Prop} {p : Program Ans α}
    {trace : List (Event Ans)} {value : α} {s s' : S} (h : Holds c post p s)
    (hrun : Runs p trace value) (hpath : Path c s trace s') : post value s' :=
  holds_reaches h hrun.reaches hpath s' (c.interferes_refl s')

/-- Every operation a partial run comes to is permitted there. -/
theorem permits_of_reaches {post : α → S → Prop} {p : Program Ans α} {op : Op}
    {next : Ans op → Program Ans α} {trace : List (Event Ans)} {s s' : S}
    (h : Holds c post p s) (hreach : Reaches p trace (.ask op next))
    (hpath : Path c s trace s') : c.permits s' op :=
  (holds_reaches h hreach hpath s' (c.interferes_refl s')).1

/-- A contract whose state is computed from the events, of which only coherent
ones can happen. -/
def Contract.track (permits : S → Op → Prop) (coherent : S → Event Ans → Prop)
    (next : S → Event Ans → S) : Contract Ans S :=
  .solo permits fun s op answer s' =>
    coherent s ⟨op, answer⟩ ∧ s' = next s ⟨op, answer⟩

/-- Every event of the trace is coherent where it happens. -/
def CoherentFrom (coherent : S → Event Ans → Prop) (next : S → Event Ans → S) :
    S → List (Event Ans) → Prop
  | _, [] => True
  | s, event :: rest => coherent s event ∧ CoherentFrom coherent next (next s event) rest

section

variable {permits : S → Op → Prop} {coherent : S → Event Ans → Prop}
  {next : S → Event Ans → S}

@[simp] theorem holds_track_done {post : α → S → Prop} {value : α} {s : S} :
    Holds (.track permits coherent next) post (.done value) s ↔ post value s :=
  holds_solo_done

@[simp] theorem holds_track_ask {post : α → S → Prop} {op : Op}
    {rest : Ans op → Program Ans α} {s : S} :
    Holds (.track permits coherent next) post (.ask op rest) s ↔
      permits s op ∧ ∀ answer, coherent s ⟨op, answer⟩ →
        Holds (.track permits coherent next) post (rest answer) (next s ⟨op, answer⟩) := by
  unfold Contract.track
  rw [holds_solo_ask]
  constructor
  · rintro ⟨hpermits, hrest⟩
    exact ⟨hpermits, fun answer hcoherent => hrest answer _ ⟨hcoherent, rfl⟩⟩
  · rintro ⟨hpermits, hrest⟩
    refine ⟨hpermits, ?_⟩
    rintro answer _ ⟨hcoherent, rfl⟩
    exact hrest answer hcoherent

theorem coherentFrom_append {s : S} {first second : List (Event Ans)} :
    CoherentFrom coherent next s (first ++ second) ↔
      CoherentFrom coherent next s first ∧
        CoherentFrom coherent next (first.foldl next s) second := by
  induction first generalizing s with
  | nil => simp [CoherentFrom]
  | cons event first ih => simp [CoherentFrom, ih, and_assoc]

theorem coherentFrom_true {s : S} {trace : List (Event Ans)} :
    CoherentFrom (fun _ _ => True) next s trace := by
  induction trace generalizing s with
  | nil => trivial
  | cons event rest ih => exact ⟨trivial, ih⟩

/-- Each event of a coherent trace is coherent in the state that those before it lead
to. -/
theorem coherentFrom_iff {s : S} {trace : List (Event Ans)} :
    CoherentFrom coherent next s trace ↔
      ∀ before event after, trace = before ++ event :: after →
        coherent (before.foldl next s) event := by
  induction trace generalizing s with
  | nil =>
      constructor
      · intro _ before event after heq
        cases before <;> cases heq
      · exact fun _ => trivial
  | cons first rest ih =>
      simp only [CoherentFrom, ih]
      constructor
      · rintro ⟨hfirst, hrest⟩ before event after heq
        cases before with
        | nil =>
            cases heq
            exact hfirst
        | cons head before =>
            cases heq
            exact hrest before event after rfl
      · intro hall
        refine ⟨hall [] first rest rfl, fun before event after heq => ?_⟩
        exact hall (first :: before) event after (by rw [heq]; rfl)

theorem track_path {s : S} {trace : List (Event Ans)}
    (h : CoherentFrom coherent next s trace) :
    Path (.track permits coherent next) s trace (trace.foldl next s) := by
  induction trace generalizing s with
  | nil => exact .nil rfl
  | cons event rest ih => exact .cons rfl ⟨h.1, rfl⟩ (ih h.2)

/-- A coherent run ends in a state of which the postcondition is true. -/
theorem track_run {post : α → S → Prop} {p : Program Ans α} {s : S}
    (h : Holds (.track permits coherent next) post p s) {trace : List (Event Ans)}
    {value : α} (hrun : Runs p trace value)
    (hcoherent : CoherentFrom coherent next s trace) :
    post value (trace.foldl next s) :=
  holds_run h hrun (track_path hcoherent)

/-- Each operation of a coherent partial run is permitted after the events before
it. -/
theorem track_permits {post : α → S → Prop} {p q : Program Ans α} {s : S}
    (h : Holds (.track permits coherent next) post p s)
    {before after : List (Event Ans)} {event : Event Ans}
    (hreach : Reaches p (before ++ event :: after) q)
    (hcoherent : CoherentFrom coherent next s (before ++ event :: after)) :
    permits (before.foldl next s) event.op := by
  obtain ⟨rest, hbefore, -⟩ := hreach.reaches_event
  exact permits_of_reaches h hbefore (track_path (coherentFrom_append.mp hcoherent).1)

/-- A strategy whose answers are coherent makes coherent traces. -/
theorem execute_coherent {respond : Strategy Ans} {s : S}
    (h : ∀ past op, coherent (past.foldl next s) ⟨op, respond past op⟩)
    (past : List (Event Ans)) (p : Program Ans α) :
    CoherentFrom coherent next (past.foldl next s) (execute respond past p).1 := by
  induction p generalizing past with
  | done value => trivial
  | ask op rest ih =>
      have hlater := ih (respond past op) (past ++ [⟨op, respond past op⟩])
      rw [List.foldl_append] at hlater
      exact ⟨h past op, hlater⟩

end

/-- `Uses allowed p`: whatever the answers, `p` asks allowed operations only. -/
def Uses (allowed : Op → Prop) : Program Ans α → Prop
  | .done _ => True
  | .ask op next => allowed op ∧ ∀ answer, Uses allowed (next answer)

@[simp] theorem uses_done {allowed : Op → Prop} (value : α) :
    Uses allowed (.done value : Program Ans α) := trivial

@[simp] theorem uses_ask {allowed : Op → Prop} {op : Op}
    {next : Ans op → Program Ans α} :
    Uses allowed (.ask op next) ↔ allowed op ∧ ∀ answer, Uses allowed (next answer) :=
  Iff.rfl

theorem uses_bind {allowed : Op → Prop} {p : Program Ans α}
    {f : α → Program Ans β} (hp : Uses allowed p) (hf : ∀ value, Uses allowed (f value)) :
    Uses allowed (p >>= f) := by
  induction p with
  | done value => exact hf value
  | ask op next ih => exact ⟨hp.1, fun answer => ih answer (hp.2 answer)⟩

/-- The second part of a sequence need only be looked at for the values that the
first part can come to. -/
theorem uses_bind_of_runs {allowed : Op → Prop} {p : Program Ans α}
    {f : α → Program Ans β} (hp : Uses allowed p)
    (hf : ∀ value trace, Runs p trace value → Uses allowed (f value)) :
    Uses allowed (p >>= f) := by
  induction p with
  | done value => exact hf value [] (.done value)
  | ask op next ih =>
      refine ⟨hp.1, fun answer => ih answer (hp.2 answer) fun value trace hrun => ?_⟩
      exact hf value _ (.ask answer hrun)

theorem uses_mono {allowed allowed' : Op → Prop} {p : Program Ans α}
    (h : Uses allowed p) (himp : ∀ op, allowed op → allowed' op) : Uses allowed' p := by
  induction p with
  | done value => trivial
  | ask op next ih => exact ⟨himp op h.1, fun answer => ih answer (h.2 answer)⟩

theorem uses_runs {allowed : Op → Prop} {p : Program Ans α}
    {trace : List (Event Ans)} {value : α} (h : Uses allowed p)
    (hrun : Runs p trace value) : ∀ event ∈ trace, allowed event.op := by
  induction hrun with
  | done value => simp
  | ask answer _ ih =>
      intro event member
      rcases List.mem_cons.mp member with rfl | member
      · exact h.1
      · exact ih (h.2 answer) event member

theorem uses_reaches {allowed : Op → Prop} {p q : Program Ans α}
    {trace : List (Event Ans)} (h : Uses allowed p) (hreach : Reaches p trace q) :
    ∀ event ∈ trace, allowed event.op := by
  induction hreach with
  | here p => simp
  | ask answer _ ih =>
      intro event member
      rcases List.mem_cons.mp member with rfl | member
      · exact h.1
      · exact ih (h.2 answer) event member

/-- An invariant that every allowed operation keeps is kept by every program
that uses allowed operations only. -/
theorem holds_of_uses {allowed : Op → Prop} {inv : S → Prop} {p : Program Ans α}
    (hstable : ∀ s s', inv s → c.interferes s s' → inv s')
    (hstep : ∀ s op, inv s → allowed op → c.permits s op ∧
      ∀ answer s', c.advances s op answer s' → inv s')
    (h : Uses allowed p) {s : S} (hs : inv s) : Holds c (fun _ s' => inv s') p s := by
  induction p generalizing s with
  | done value => exact fun s' hi => hstable s s' hs hi
  | ask op next ih =>
      intro s' hi
      obtain ⟨hpermits, hadv⟩ := hstep s' op (hstable s s' hs hi) h.1
      exact ⟨hpermits, fun answer s'' ha => ih answer (h.2 answer) (hadv answer s'' ha)⟩

/-- What the permitted operations of a program keep holds at its end as well. -/
theorem holds_keeps {allowed : Op → Prop} {inv : S → Prop} {post : α → S → Prop}
    {p : Program Ans α} (hstable : ∀ s s', inv s → c.interferes s s' → inv s')
    (hstep : ∀ s op answer s', inv s → allowed op → c.permits s op →
      c.advances s op answer s' → inv s')
    (huses : Uses allowed p) {s : S} (h : Holds c post p s) (hs : inv s) :
    Holds c (fun value s' => post value s' ∧ inv s') p s := by
  induction p generalizing s with
  | done value => exact fun s' hi => ⟨h s' hi, hstable s s' hs hi⟩
  | ask op next ih =>
      intro s' hi
      obtain ⟨hpermits, hnext⟩ := h s' hi
      refine ⟨hpermits, fun answer s'' hadv => ?_⟩
      exact ih answer (huses.2 answer) (hnext answer s'' hadv)
        (hstep s' op answer s'' (hstable s s' hs hi) huses.1 hpermits hadv)

end Effect
