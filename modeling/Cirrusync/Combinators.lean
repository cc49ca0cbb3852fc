import Cirrusync.Operation

/-!
How `timeoutAt` and `join` run. A program under a deadline does what it does
without one until the deadline passes at one of its waits; the two halves of a
join each run to a value of their own.
-/

namespace Cirrusync

open Effect

variable {α β : Type}

/-- Two steps that differ at most in a deadline that was met. -/
def MeetsDeadline (deadline : Instant) (step step' : Step) : Prop :=
  step = step' ∨ ∃ wait answer, step = ⟨.finishBefore deadline wait, some answer⟩ ∧
    step' = ⟨.finish wait, answer⟩

theorem uses_timeoutAt {allowed : Op → Prop} {deadline : Instant} {p : M α}
    (hwait : ∀ wait, allowed (.finish wait) → allowed (.finishBefore deadline wait))
    (h : Uses allowed p) : Uses allowed (timeoutAt deadline p) := by
  induction p with
  | done value => trivial
  | ask op next ih =>
      cases op with
      | act action => exact ⟨h.1, fun answer => ih answer (h.2 answer)⟩
      | finish wait =>
          unfold timeoutAt
          refine ⟨hwait wait h.1, fun answer => ?_⟩
          cases answer with
          | none => trivial
          | some answer => exact ih answer (h.2 answer)
      | finishBefore inner wait => exact ⟨h.1, fun answer => ih answer (h.2 answer)⟩

/-- A deadline on a sequence is one on each of its parts. -/
theorem timeoutAt_bind (deadline : Instant) (p : M α) (f : α → M β) :
    timeoutAt deadline (p >>= f) = timeoutAt deadline p >>= fun
      | none => .done none
      | some value => timeoutAt deadline (f value) := by
  induction p with
  | done value => rfl
  | ask op next ih =>
      cases op with
      | act action =>
          simp only [Program.ask_bind, timeoutAt]
          congr 1
          funext answer
          exact ih answer
      | finish wait =>
          simp only [Program.ask_bind, timeoutAt]
          congr 1
          funext answer
          cases answer with
          | none => rfl
          | some answer => exact ih answer
      | finishBefore inner wait =>
          simp only [Program.ask_bind, timeoutAt]
          congr 1
          funext answer
          exact ih answer

/-- A run that meets its deadline is a run without one. -/
theorem runs_timeoutAt_some {deadline : Instant} {p : M α} {trace : List Step} {value : α}
    (hrun : Runs (timeoutAt deadline p) trace (some value)) :
    ∃ trace', Runs p trace' value ∧ List.Forall₂ (MeetsDeadline deadline) trace trace' := by
  induction p generalizing trace with
  | done result =>
      cases hrun
      exact ⟨[], .done _, .nil⟩
  | ask op next ih =>
      cases op with
      | act action =>
          cases hrun with
          | ask answer hrest =>
              obtain ⟨trace', hrun', hmeets⟩ := ih answer hrest
              exact ⟨_, .ask answer hrun', .cons (.inl rfl) hmeets⟩
      | finish wait =>
          unfold timeoutAt at hrun
          cases hrun with
          | ask answer hrest =>
              cases answer with
              | none => cases hrest
              | some answer =>
                  obtain ⟨trace', hrun', hmeets⟩ := ih answer hrest
                  have hall := @Runs.ask _ _ _ (Op.finish wait) next answer _ _ hrun'
                  exact ⟨_, hall, .cons (.inr ⟨wait, answer, rfl, rfl⟩) hmeets⟩
      | finishBefore inner wait =>
          cases hrun with
          | ask answer hrest =>
              obtain ⟨trace', hrun', hmeets⟩ := ih answer hrest
              exact ⟨_, .ask answer hrun', .cons (.inl rfl) hmeets⟩

/-- A program under a deadline: where the deadline passes at a wait, the state
is one that `expired` describes. -/
theorem holds_timeoutAt {S : Type} {c : Contract Ans S} {deadline : Instant}
    {post : α → S → Prop} {expired : S → Prop} {p : M α} {s : S}
    (hwait : ∀ s wait, c.permits s (.finish wait) →
      c.permits s (.finishBefore deadline wait) ∧
      (∀ answer s', c.advances s (.finishBefore deadline wait) (some answer) s' →
        c.advances s (.finish wait) answer s') ∧
      ∀ s' s'', c.advances s (.finishBefore deadline wait) none s' →
        c.interferes s' s'' → expired s'')
    (h : Holds c post p s) :
    Holds c (fun result s' => match result with
      | none => expired s'
      | some value => post value s') (timeoutAt deadline p) s := by
  induction p generalizing s with
  | done value => exact h
  | ask op next ih =>
      cases op with
      | act action =>
          intro s' hs
          obtain ⟨hpermits, hnext⟩ := h s' hs
          exact ⟨hpermits, fun answer s'' hadv => ih answer (hnext answer s'' hadv)⟩
      | finishBefore inner wait =>
          intro s' hs
          obtain ⟨hpermits, hnext⟩ := h s' hs
          exact ⟨hpermits, fun answer s'' hadv => ih answer (hnext answer s'' hadv)⟩
      | finish wait =>
          unfold timeoutAt
          intro s' hs
          obtain ⟨hpermits, hnext⟩ := h s' hs
          obtain ⟨hbefore, hsome, hnone⟩ := hwait s' wait hpermits
          refine ⟨hbefore, fun answer s'' hadv => ?_⟩
          cases answer with
          | none => exact fun t ht => hnone s'' t hadv ht
          | some answer => exact ih answer (hnext answer s'' (hsome answer s'' hadv))

theorem uses_joinAsk {allowed : Op → Prop} (hschedule : allowed (.act .schedule)) {op : Op}
    {next : Ans op → M α} {resume : Ans op → M β → M (α × β)} {q : M β} (hop : allowed op)
    (hnext : ∀ answer, Uses allowed (next answer)) (hq : Uses allowed q)
    (hresume : ∀ answer q, Uses allowed q → Uses allowed (resume answer q)) :
    Uses allowed (joinAsk op next resume q) := by
  induction q with
  | done b => exact uses_bind ⟨hop, hnext⟩ fun _ => trivial
  | ask op' next' ih =>
      refine ⟨hschedule, fun (first : Bool) => ?_⟩
      cases first with
      | true => exact ⟨hop, fun answer => hresume answer _ hq⟩
      | false => exact ⟨hq.1, fun answer => ih answer (hq.2 answer)⟩

theorem uses_join {allowed : Op → Prop} (hschedule : allowed (.act .schedule)) {p : M α}
    {q : M β} (hp : Uses allowed p) (hq : Uses allowed q) : Uses allowed (join p q) := by
  induction p generalizing q with
  | done a => exact uses_bind hq fun _ => trivial
  | ask op next ih =>
      exact uses_joinAsk hschedule hp.1 hp.2 hq fun answer _ hq' => ih answer (hp.2 answer) hq'

theorem runs_joinAsk {op : Op} {next : Ans op → M α}
    {resume : Ans op → M β → M (α × β)} {q : M β} {trace : List Step} {a : α} {b : β}
    (hresume : ∀ answer q trace, Runs (resume answer q) trace (a, b) →
      (∃ first, Runs (next answer) first a) ∧ ∃ second, Runs q second b)
    (hrun : Runs (joinAsk op next resume q) trace (a, b)) :
    (∃ first, Runs (.ask op next) first a) ∧ ∃ second, Runs q second b := by
  induction q generalizing trace with
  | done b' =>
      unfold joinAsk at hrun
      obtain ⟨first, _, a', rfl, hfirst, hrest⟩ := (runs_bind_iff _ _ _ _).mp hrun
      cases hrest
      exact ⟨⟨first, hfirst⟩, [], .done _⟩
  | ask op' next' ih =>
      unfold joinAsk at hrun
      cases hrun with
      | ask first hrest =>
          cases first with
          | true =>
              cases hrest with
              | ask answer hrest =>
                  obtain ⟨⟨first, hfirst⟩, hsecond⟩ := hresume answer _ _ hrest
                  exact ⟨⟨_, .ask answer hfirst⟩, hsecond⟩
          | false =>
              cases hrest with
              | ask answer hrest =>
                  obtain ⟨hfirst, second, hsecond⟩ := ih answer hrest
                  exact ⟨hfirst, _, .ask answer hsecond⟩

/-- The values of a join are values of its two halves. -/
theorem runs_join {p : M α} {q : M β} {trace : List Step} {a : α} {b : β}
    (hrun : Runs (join p q) trace (a, b)) :
    (∃ first, Runs p first a) ∧ ∃ second, Runs q second b := by
  induction p generalizing q trace with
  | done a' =>
      unfold join at hrun
      obtain ⟨second, _, b', rfl, hsecond, hrest⟩ := (runs_bind_iff _ _ _ _).mp hrun
      cases hrest
      exact ⟨⟨[], .done _⟩, second, hsecond⟩
  | ask op next ih =>
      unfold join at hrun
      exact runs_joinAsk (fun answer _ _ h => ih answer h) hrun

end Cirrusync
