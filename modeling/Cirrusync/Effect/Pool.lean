import Cirrusync.Effect.Contract
import Mathlib.Logic.Function.Basic
import Mathlib.Logic.Relation

/-!
Any number of processes in one world. A process runs the program of its task,
one operation at a time, and after it may take up another task; the world may
also move by itself. The invariant rule is that of rely and guarantee: each
process is verified against a contract on its own view of the world, and what
one process does must be an interference that the contracts of the others
allow.
-/

namespace Effect

/-- The programs that processes run, and which task may follow a result. -/
structure Tasks {Op : Type} (Ans : Op → Type) (Task β : Type) where
  code : Task → Program Ans β
  follows : Task → β → Task → Prop

/-- How a world answers the operations of a process, and how it moves. -/
structure World {Op : Type} (Ans : Op → Type) (ι W : Type) where
  answers : W → ι → (op : Op) → Ans op → W → Prop
  moves : W → W → Prop

structure Pool {Op : Type} (Ans : Op → Type) (ι W Task β : Type) where
  world : W
  task : ι → Task
  rest : ι → Program Ans β

variable {Op : Type} {Ans : Op → Type} {ι W Task β S : Type} [DecidableEq ι]

/-- One step of a pool: an answered operation of one process, the turn of one
process to another task, or a move of the world. -/
inductive PoolStep (tasks : Tasks Ans Task β) (world : World Ans ι W) :
    Pool Ans ι W Task β → Pool Ans ι W Task β → Prop where
  | ask (st : Pool Ans ι W Task β) (i : ι) {op : Op} {next : Ans op → Program Ans β}
      (answer : Ans op) (w : W) :
      st.rest i = .ask op next → world.answers st.world i op answer w →
      PoolStep tasks world st
        { st with world := w, rest := Function.update st.rest i (next answer) }
  | turn (st : Pool Ans ι W Task β) (i : ι) {value : β} (task : Task) :
      st.rest i = .done value → tasks.follows (st.task i) value task →
      PoolStep tasks world st
        { st with
          task := Function.update st.task i task
          rest := Function.update st.rest i (tasks.code task) }
  | move (st : Pool Ans ι W Task β) (w : W) :
      world.moves st.world w → PoolStep tasks world st { st with world := w }

/-- The pools that a run leads to. -/
def PoolReaches (tasks : Tasks Ans Task β) (world : World Ans ι W) :
    Pool Ans ι W Task β → Pool Ans ι W Task β → Prop :=
  Relation.ReflTransGen (PoolStep tasks world)

/-- What has to be shown once for each kind of step. `agrees` relates the world
to what each process knows of it, and `post` is what a finished task leaves. -/
structure Rely (tasks : Tasks Ans Task β) (world : World Ans ι W) (c : Contract Ans S)
    (post : Task → β → S → Prop) (agrees : W → (ι → S) → Prop) : Prop where
  ask : ∀ {w views i op answer w'}, agrees w views → c.permits (views i) op →
    world.answers w i op answer w' →
    ∃ views', agrees w' views' ∧ c.advances (views i) op answer (views' i) ∧
      ∀ j, j ≠ i → c.interferes (views j) (views' j)
  turn : ∀ {task value task' s}, tasks.follows task value task' → post task value s →
    Holds c (post task') (tasks.code task') s
  move : ∀ {w views w'}, agrees w views → world.moves w w' →
    ∃ views', agrees w' views' ∧ ∀ j, c.interferes (views j) (views' j)

/-- Every process of the pool meets its contract from here on. -/
def Verified (c : Contract Ans S) (post : Task → β → S → Prop)
    (agrees : W → (ι → S) → Prop) (st : Pool Ans ι W Task β) : Prop :=
  ∃ views, agrees st.world views ∧
    ∀ i, Holds c (post (st.task i)) (st.rest i) (views i)

variable {tasks : Tasks Ans Task β} {world : World Ans ι W} {c : Contract Ans S}
  {post : Task → β → S → Prop} {agrees : W → (ι → S) → Prop}

theorem verified_step (hrely : Rely tasks world c post agrees)
    {st st' : Pool Ans ι W Task β} (hverified : Verified c post agrees st)
    (hstep : PoolStep tasks world st st') : Verified c post agrees st' := by
  obtain ⟨views, hagrees, hholds⟩ := hverified
  cases hstep with
  | ask i answer w hrest hanswer =>
      have hi := hholds i
      rw [hrest] at hi
      obtain ⟨hpermits, hnext⟩ := hi (views i) (c.interferes_refl _)
      obtain ⟨views', hagrees', hadvances, hothers⟩ :=
        hrely.ask hagrees hpermits hanswer
      refine ⟨views', hagrees', fun j => ?_⟩
      by_cases hj : j = i
      · subst hj
        simpa using hnext answer _ hadvances
      · simpa [hj] using holds_interferes (hholds j) (hothers j hj)
  | turn i task hrest hfollows =>
      refine ⟨views, hagrees, fun j => ?_⟩
      by_cases hj : j = i
      · subst hj
        have hi := hholds j
        rw [hrest] at hi
        simpa using hrely.turn hfollows (hi (views j) (c.interferes_refl _))
      · simpa [hj] using hholds j
  | move w hmoves =>
      obtain ⟨views', hagrees', hothers⟩ := hrely.move hagrees hmoves
      exact ⟨views', hagrees', fun j => holds_interferes (hholds j) (hothers j)⟩

/-- In every pool reached, every process meets its contract. -/
theorem verified_of_reaches (hrely : Rely tasks world c post agrees)
    {st st' : Pool Ans ι W Task β} (hverified : Verified c post agrees st)
    (hreach : PoolReaches tasks world st st') : Verified c post agrees st' := by
  induction hreach with
  | refl => exact hverified
  | tail _ hstep ih => exact verified_step hrely ih hstep

/-- How a world answers the events of one process, while the others wait. -/
inductive Answered (world : World Ans ι W) (i : ι) : W → List (Event Ans) → W → Prop where
  | nil (w : W) : Answered world i w [] w
  | cons {w w' w'' : W} {op : Op} {answer : Ans op} {rest : List (Event Ans)} :
      world.answers w i op answer w' → Answered world i w' rest w'' →
      Answered world i w (⟨op, answer⟩ :: rest) w''

/-- A process that is alone in taking steps gets where its program does. -/
theorem poolReaches_of_reaches {tasks : Tasks Ans Task β} {i : ι}
    {st : Pool Ans ι W Task β} {p q : Program Ans β} {trace : List (Event Ans)} {w : W}
    (hrest : st.rest i = p) (hreach : Reaches p trace q)
    (hanswered : Answered world i st.world trace w) :
    PoolReaches tasks world st { st with world := w, rest := Function.update st.rest i q } := by
  induction hreach generalizing st with
  | here p =>
      cases hanswered
      rw [← hrest, Function.update_eq_self]
      exact .refl
  | ask answer _ ih =>
      cases hanswered with
      | cons hanswer hlater =>
          refine .head (.ask st i answer _ hrest hanswer) ?_
          have hnext := @ih
            { st with world := _, rest := Function.update st.rest i (_) }
            (Function.update_self ..) hlater
          simpa [PoolReaches] using hnext

omit [DecidableEq ι] in
/-- What holds where a process has come to the end of its task. -/
theorem post_of_done {st : Pool Ans ι W Task β} {views : ι → S}
    (hholds : ∀ i, Holds c (post (st.task i)) (st.rest i) (views i)) {i : ι} {value : β}
    (hrest : st.rest i = .done value) : post (st.task i) value (views i) := by
  have hi := hholds i
  rw [hrest] at hi
  exact hi _ (c.interferes_refl _)

omit [DecidableEq ι] in
/-- What is permitted where a process is about to ask an operation. -/
theorem permits_of_ask {st : Pool Ans ι W Task β} {views : ι → S}
    (hholds : ∀ i, Holds c (post (st.task i)) (st.rest i) (views i)) {i : ι} {op : Op}
    {next : Ans op → Program Ans β} (hrest : st.rest i = .ask op next) :
    c.permits (views i) op := by
  have hi := hholds i
  rw [hrest] at hi
  exact (hi _ (c.interferes_refl _)).1

end Effect
