import Cirrusync.Effect.Pool

/-!
Answering a program from a state. A responder gives every operation an answer and the
state after it; where the contract allows what it does, the run that it makes exists. The
processes of a pool are answered in turn, so many steps at a time.
-/

namespace Effect

variable {Op : Type} {Ans : Op → Type} {S α : Type}

/-- An answer to an operation in a state, and the state that it leads to. -/
abbrev Responder (Ans : Op → Type) (S : Type) := S → (op : Op) → Ans op × S

variable (respond : Responder Ans S)

/-- The first operations of a program, at most so many, and where they lead. -/
def walk : Nat → Program Ans α → S → List (Event Ans) × Program Ans α × S
  | 0, p, s => ([], p, s)
  | _ + 1, .done value, s => ([], .done value, s)
  | count + 1, .ask op next, s =>
      let (answer, s') := respond s op
      let (trace, q, t) := walk count (next answer) s'
      (⟨op, answer⟩ :: trace, q, t)

/-- The whole of a program. -/
def simulate : Program Ans α → S → List (Event Ans) × α × S
  | .done value, s => ([], value, s)
  | .ask op next, s =>
      let (answer, s') := respond s op
      let (trace, value, t) := simulate (next answer) s'
      (⟨op, answer⟩ :: trace, value, t)

theorem walk_reaches (count : Nat) (p : Program Ans α) (s : S) :
    Reaches p (walk respond count p s).1 (walk respond count p s).2.1 := by
  induction count generalizing p s with
  | zero => exact .here p
  | succ count ih =>
      cases p with
      | done value => exact .here _
      | ask op next => exact .ask _ (ih (next (respond s op).1) (respond s op).2)

theorem simulate_runs (p : Program Ans α) (s : S) :
    Runs p (simulate respond p s).1 (simulate respond p s).2.1 := by
  induction p generalizing s with
  | done value => exact .done value
  | ask op next ih => exact .ask _ (ih (respond s op).1 (respond s op).2)

/-- What a program asks next. -/
def Program.front : Program Ans α → Option Op
  | .done _ => none
  | .ask op _ => some op

theorem Program.front_eq_some {p : Program Ans α} {op : Op} (h : p.front = some op) :
    ∃ next, p = .ask op next := by
  cases p with
  | done value => cases h
  | ask asked next =>
      cases h
      exact ⟨next, rfl⟩

/-- What a program has come to. -/
def Program.value : Program Ans α → Option α
  | .done value => some value
  | .ask _ _ => none

theorem Program.eq_done_of_value {p : Program Ans α} {value : α} (h : p.value = some value) :
    p = .done value := by
  cases p with
  | done value' => exact congrArg Program.done (Option.some.inj h)
  | ask op next => cases h

/-- A walk that has come to an operation. -/
theorem walk_reaches_ask {count : Nat} {p : Program Ans α} {s : S} {op : Op}
    (h : (walk respond count p s).2.1.front = some op) :
    ∃ next, Reaches p (walk respond count p s).1 (.ask op next) := by
  obtain ⟨next, hnext⟩ := Program.front_eq_some h
  have hreach := walk_reaches respond count p s
  rw [hnext] at hreach
  exact ⟨next, hreach⟩

theorem simulate_runs_unit (p : Program Ans Unit) (s : S) :
    Runs p (simulate respond p s).1 () :=
  simulate_runs respond p s

variable {respond} {permits : S → Op → Prop} {advances : S → (op : Op) → Ans op → S → Prop}

theorem walk_path (hrespond : ∀ s op, advances s op (respond s op).1 (respond s op).2)
    (count : Nat) (p : Program Ans α) (s : S) :
    Path (.solo permits advances) s (walk respond count p s).1 (walk respond count p s).2.2 := by
  induction count generalizing p s with
  | zero => exact .nil rfl
  | succ count ih =>
      cases p with
      | done value => exact .nil rfl
      | ask op next => exact .cons rfl (hrespond s op) (ih (next (respond s op).1) (respond s op).2)

theorem simulate_path (hrespond : ∀ s op, advances s op (respond s op).1 (respond s op).2)
    (p : Program Ans α) (s : S) :
    Path (.solo permits advances) s (simulate respond p s).1 (simulate respond p s).2.2 := by
  induction p generalizing s with
  | done value => exact .nil rfl
  | ask op next ih => exact .cons rfl (hrespond s op) (ih (respond s op).1 (respond s op).2)

/-- A program of which something holds can be answered to its end, as far as the
responder may do what the contract permits. -/
theorem holds_simulates {post : α → S → Prop}
    (hrespond : ∀ s op, permits s op → advances s op (respond s op).1 (respond s op).2)
    {p : Program Ans α} {s : S} (h : Holds (.solo permits advances) post p s) :
    ∃ trace value s', Runs p trace value ∧ Path (.solo permits advances) s trace s' ∧
      post value s' := by
  induction p generalizing s with
  | done value =>
      rw [holds_solo_done] at h
      exact ⟨[], value, s, .done value, .nil rfl, h⟩
  | ask op next ih =>
      rw [holds_solo_ask] at h
      have hadvances := hrespond s op h.1
      obtain ⟨trace, value, s', hrun, hpath, hpost⟩ := ih (respond s op).1 (h.2 _ _ hadvances)
      exact ⟨_, value, s', .ask _ hrun, .cons rfl hadvances hpath, hpost⟩

/-- A contract of which the permissions and the changes are those of another or fewer. -/
theorem path_mono {permits' : S → Op → Prop} {advances' : S → (op : Op) → Ans op → S → Prop}
    (hadvances : ∀ s op answer s', advances s op answer s' → advances' s op answer s')
    {s s' : S} {trace : List (Event Ans)} (h : Path (.solo permits advances) s trace s') :
    Path (.solo permits' advances') s trace s' := by
  induction h with
  | nil hs => exact .nil hs
  | cons hs hadv _ ih => exact .cons hs (hadvances _ _ _ _ hadv) ih

/-- A state that remembers the events so far. -/
def Contract.logged (permits : S × List (Event Ans) → Op → Prop)
    (advances : S → (op : Op) → Ans op → S → Prop) : Contract Ans (S × List (Event Ans)) :=
  .solo permits fun s op answer s' =>
    advances s.1 op answer s'.1 ∧ s'.2 = s.2 ++ [⟨op, answer⟩]

theorem path_logged {permits' : S × List (Event Ans) → Op → Prop} {s s' : S}
    {past trace : List (Event Ans)} (h : Path (.solo permits advances) s trace s') :
    Path (.logged permits' advances) (s, past) trace (s', past ++ trace) := by
  induction h generalizing past with
  | nil hs =>
      cases hs
      refine .nil ?_
      rw [List.append_nil]
      rfl
  | @cons s t u v op answer rest hs hadv _ ih =>
      cases hs
      have hrest : Path (.logged permits' advances) (u, past ++ [⟨op, answer⟩]) rest
          (v, past ++ [⟨op, answer⟩] ++ rest) := ih
      rw [List.append_assoc] at hrest
      have hstep : (Contract.logged permits' advances).advances (s, past) op answer
          (u, past ++ [⟨op, answer⟩]) := ⟨hadv, rfl⟩
      exact .cons rfl hstep hrest

/-- A state that remembers the events does so of a whole path. -/
theorem logged_path {permits' : S × List (Event Ans) → Op → Prop} {permits : S → Op → Prop}
    {s s' : S × List (Event Ans)} {trace : List (Event Ans)}
    (h : Path (.logged permits' advances) s trace s') :
    Path (.solo permits advances) s.1 trace s'.1 ∧ s'.2 = s.2 ++ trace := by
  induction h with
  | nil hs =>
      cases hs
      rw [List.append_nil]
      exact ⟨.nil rfl, rfl⟩
  | cons hs hadv _ ih =>
      cases hs
      obtain ⟨hadvances, hlog⟩ := hadv
      obtain ⟨hpath, hrest⟩ := ih
      rw [hrest, hlog, List.append_assoc]
      exact ⟨.cons rfl hadvances hpath, rfl⟩

/-! The processes of a pool, so many steps at a time. -/

section

variable {ι W Task β : Type} [DecidableEq ι]

/-- The pool after some steps of one process. -/
def Pool.advance (respond : ι → Responder Ans W) (st : Pool Ans ι W Task β) (i : ι)
    (count : Nat) : Pool Ans ι W Task β :=
  { st with
    world := (walk (respond i) count (st.rest i) st.world).2.2
    rest := Function.update st.rest i (walk (respond i) count (st.rest i) st.world).2.1 }

/-- The pool in which a process has taken up another task. -/
def Pool.takeUp (tasks : Tasks Ans Task β) (st : Pool Ans ι W Task β) (i : ι) (task : Task) :
    Pool Ans ι W Task β :=
  { st with
    task := Function.update st.task i task
    rest := Function.update st.rest i (tasks.code task) }

/-- The pool after some steps of one process, then some of another, and so on. -/
def Pool.interleave (respond : ι → Responder Ans W) (st : Pool Ans ι W Task β)
    (turns : List (ι × Nat)) : Pool Ans ι W Task β :=
  turns.foldl (fun st turn => st.advance respond turn.1 turn.2) st

/-- What a responder does, the world may do, perhaps after it has moved. -/
def Plays (world : World Ans ι W) (i : ι) (respond : Responder Ans W) : Prop :=
  ∀ w op, ∃ moved, Relation.ReflTransGen world.moves w moved ∧
    world.answers moved i op (respond w op).1 (respond w op).2

variable {tasks : Tasks Ans Task β} {world : World Ans ι W}

theorem poolReaches_moves {st : Pool Ans ι W Task β} {w : W}
    (h : Relation.ReflTransGen world.moves st.world w) :
    PoolReaches tasks world st { st with world := w } := by
  induction h with
  | refl => exact .refl
  | tail _ hmoves ih => exact ih.tail (.move _ _ hmoves)

/-- A process that has come to the end of its task may take up one that follows. -/
theorem poolReaches_takeUp {st : Pool Ans ι W Task β} {i : ι} {value : β} {task : Task}
    (hvalue : (st.rest i).value = some value) (hfollows : tasks.follows (st.task i) value task) :
    PoolReaches tasks world st (st.takeUp tasks i task) :=
  .single (.turn st i task (Program.eq_done_of_value hvalue) hfollows)

/-- A process takes up a task and is alone in taking steps until it has come to its end. -/
theorem poolReaches_task {st : Pool Ans ι W Task β} {i : ι} {value result : β} {task : Task}
    {trace : List (Event Ans)} {w : W} (hrest : st.rest i = .done value)
    (hfollows : tasks.follows (st.task i) value task) (hrun : Runs (tasks.code task) trace result)
    (hanswered : Answered world i st.world trace w) :
    PoolReaches tasks world st
      { world := w
        task := Function.update st.task i task
        rest := Function.update st.rest i (.done result) } := by
  have hturn : PoolReaches tasks world st (st.takeUp tasks i task) :=
    .single (.turn st i task hrest hfollows)
  have hself : (st.takeUp tasks i task).rest i = tasks.code task := Function.update_self ..
  have hend : PoolReaches tasks world (st.takeUp tasks i task) _ :=
    poolReaches_of_reaches hself hrun.reaches hanswered
  have hrests : Function.update (st.takeUp tasks i task).rest i (.done result) =
      Function.update st.rest i (.done result) := Function.update_idem ..
  rw [hrests] at hend
  exact hturn.trans hend

/-- A process takes its steps where a responder plays the world. -/
theorem poolReaches_advance {respond : ι → Responder Ans W}
    (hplays : ∀ i, Plays world i (respond i)) (st : Pool Ans ι W Task β) (i : ι) (count : Nat) :
    PoolReaches tasks world st (st.advance respond i count) := by
  induction count generalizing st with
  | zero =>
      have hsame : st.advance respond i 0 = st := by
        simp [Pool.advance, walk]
      rw [hsame]
      exact .refl
  | succ count ih =>
      cases hrest : st.rest i with
      | done value =>
          have hwalk : walk (respond i) (count + 1) (st.rest i) st.world =
              ([], st.rest i, st.world) := by
            rw [hrest]
            rfl
          have hsame : st.advance respond i (count + 1) = st := by
            rw [Pool.advance, hwalk, Function.update_eq_self]
          rw [hsame]
          exact .refl
      | ask op next =>
          obtain ⟨moved, hmoves, hanswers⟩ := hplays i st.world op
          have hask : PoolStep tasks world { st with world := moved }
              { st with
                world := (respond i st.world op).2
                rest := Function.update st.rest i (next (respond i st.world op).1) } :=
            .ask { st with world := moved } i _ _ hrest hanswers
          have hsame : st.advance respond i (count + 1) = Pool.advance respond
              { st with
                world := (respond i st.world op).2
                rest := Function.update st.rest i (next (respond i st.world op).1) } i count := by
            simp [Pool.advance, hrest, walk]
          rw [hsame]
          exact ((poolReaches_moves hmoves).tail hask).trans (ih _)

theorem poolReaches_interleave {respond : ι → Responder Ans W}
    (hplays : ∀ i, Plays world i (respond i)) (st : Pool Ans ι W Task β)
    (turns : List (ι × Nat)) : PoolReaches tasks world st (st.interleave respond turns) := by
  induction turns generalizing st with
  | nil => exact .refl
  | cons turn rest ih =>
      exact (poolReaches_advance hplays st turn.1 turn.2).trans (ih _)

end

end Effect
