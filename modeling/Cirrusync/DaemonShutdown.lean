import Cirrusync.Scenario
import Cirrusync.Shutdown

/-!
The loop of the daemon around the cycles: where it observes the signal, it drops
a cycle that has no mutation pending and awaits one that has.
-/

namespace Cirrusync

open Effect ShutdownState

theorem holds_uninterrupted {α : Type} {post : α → ShutdownState → Prop} {p : M α}
    {s : ShutdownState} (h : Holds interruptedContract post p s) :
    Holds shutdownContract post p s := by
  refine @holds_weaken _ _ _ _ interruptedContract shutdownContract post p s ?_ ?_ ?_ h
  · exact fun s s' heq => Or.inl (Eq.symm heq)
  · exact fun _ _ hop => hop
  · exact fun _ _ _ _ hadvances => hadvances

theorem holds_loop_done {α : Type} {post : α → ShutdownState → Prop} {value : α}
    {s : ShutdownState} (h : post value s) : Holds shutdownContract post (.done value) s :=
  holds_track_done.mpr h

theorem holds_loop_ask {α : Type} {post : α → ShutdownState → Prop} {op : Op}
    {rest : Ans op → M α} {s : ShutdownState} (hop : s.permits op)
    (hrest : ∀ answer, s.coherent ⟨op, answer⟩ →
      Holds shutdownContract post (rest answer) (s.next ⟨op, answer⟩)) :
    Holds shutdownContract post (.ask op rest) s :=
  holds_track_ask.mpr ⟨hop, hrest⟩

theorem observesSignal_cycle {op : Op} (h : CycleOp op) (answer : Ans op) :
    observesSignal ⟨op, answer⟩ = false := by
  unfold observesSignal
  split
  · rename_i heq
    injection heq with hop
    subst hop
    cases h
  · rfl

theorem next_unobserved {s : ShutdownState} {step : Step}
    (h : observesSignal step = false) : (s.next step).signalled = s.signalled := by
  simp [next, h]

theorem late_unsignalled {s : ShutdownState} (h : s.signalled = none) (step : Step) :
    (s.next step).late = s.late := by
  simp only [next, h, Option.isSome_none, Bool.false_eq_true, if_false]
  split <;> rfl

/-- The loop has returned because of the signal, with nothing left pending. -/
def Concluded (s : ShutdownState) : Prop := s.Settled ∧ s.signalled ≠ none

section

variable {α : Type} {cycle : M α} {s : ShutdownState}

/-- What the loop knows where the signal is observed decides rightly. -/
theorem drainOrDrop_concludes (huses : Uses CycleOp cycle)
    (hcycle : Holds interruptedContract (fun _ s' => s'.Boundary) cycle s)
    (hflag : s.inFlight = true ↔ s.pending ≠ none)
    (hs : s.signalled = none ∧ s.late = []) (signalResult : Except String Unit) :
    Holds shutdownContract
      (fun selected s' => selected = .signalled signalResult ∧ Concluded s')
      (drainOrDrop signalResult cycle) { s with signalled := some s.pending } := by
  simp only [drainOrDrop, act_eq, Program.ask_bind, Program.done_bind, Program.pure_eq]
  refine holds_loop_ask trivial fun _ _ => ?_
  refine holds_loop_ask trivial fun inFlight hcoherent => ?_
  have hdrained : ((ShutdownState.next { s with signalled := some s.pending }
      ⟨.act .requestStop, ()⟩).next ⟨.act .mutationInFlight, inFlight⟩) = s.drained := rfl
  rw [hdrained]
  have hanswer : inFlight = s.inFlight := hcoherent
  cases inFlight with
  | false =>
      have hnone : s.pending = none := by
        by_contra hpending
        rw [← hanswer] at hflag
        exact absurd (hflag.mpr hpending) (by decide)
      refine holds_loop_done ⟨rfl, ⟨hnone, ?_⟩, Option.some_ne_none _⟩
      simp [drained, hnone, hs.2]
  | true =>
      have hpending : s.pending ≠ none := hflag.mp hanswer.symm
      have hrest : Holds shutdownContract (fun _ s' => s'.Boundary) cycle s.drained :=
        holds_uninterrupted (holds_interferes hcycle
          (.inr ⟨hpending, hanswer.symm, hs.1, rfl⟩))
      have hkeeps := @holds_keeps _ _ _ _ shutdownContract CycleOp
        (fun s' => s'.signalled ≠ none) _ cycle
        (by rintro s' _ hsome rfl; exact hsome)
        (by
          rintro s' op answer _ hsome hop - ⟨-, rfl⟩
          rw [next_unobserved (observesSignal_cycle hop answer)]
          exact hsome)
        huses _ hrest (Option.some_ne_none _)
      simp only [if_true]
      apply holds_bind
      refine holds_mono hkeeps ?_
      rintro value s' ⟨hboundary, hsome⟩
      exact holds_loop_done ⟨rfl, hboundary.settled, hsome⟩

/-- Where a `select!` over a cycle leads: the cycle has ended in the initial
state, or the signal has been observed and nothing is pending. -/
def SelectSettles : Selected α → ShutdownState → Prop
  | .completed _, s => s = {}
  | .signalled _, s => Concluded s

theorem unsignalled_next {op : Op} (hop : CycleOp op) (answer : Ans op)
    (hs : s.signalled = none ∧ s.late = []) :
    (s.next ⟨op, answer⟩).signalled = none ∧ (s.next ⟨op, answer⟩).late = [] := by
  rw [next_unobserved (observesSignal_cycle hop answer), late_unsignalled hs.1]
  exact hs

/-- A wait of the cycle inside the `select!`. -/
theorem select_wait_settles {op : Op} {next : Ans op → M α}
    (huses : Uses CycleOp (.ask op next))
    (hcycle : Holds interruptedContract (fun _ s' => s'.Boundary) (.ask op next) s)
    (hflag : s.permits op → (s.inFlight = true ↔ s.pending ≠ none))
    (hs : s.signalled = none ∧ s.late = [])
    (hrest : ∀ answer, s.coherent ⟨op, answer⟩ →
      Holds shutdownContract SelectSettles (selectCycle (next answer))
        (s.next ⟨op, answer⟩)) :
    Holds shutdownContract SelectSettles (.ask (.act .pollShutdown) (fun
      | some signalResult => drainOrDrop signalResult (.ask op next)
      | none => .ask op (fun answer => selectCycle (next answer)))) s := by
  have hpermits : s.permits op := (hcycle s (.inl rfl)).1
  refine holds_loop_ask hs.1 fun polled _ => ?_
  cases polled with
  | none => exact holds_loop_ask hpermits hrest
  | some signalResult =>
      refine holds_mono (drainOrDrop_concludes huses hcycle (hflag hpermits) hs signalResult) ?_
      rintro _ s' ⟨rfl, hconcluded⟩
      exact hconcluded

theorem selectCycle_settles (huses : Uses CycleOp cycle)
    (hcycle : Holds interruptedContract (fun _ s' => s'.Boundary) cycle s)
    (hs : s.signalled = none ∧ s.late = []) :
    Holds shutdownContract SelectSettles (selectCycle cycle) s := by
  induction cycle generalizing s with
  | done value =>
      apply holds_loop_done
      rcases hcycle s (.inl rfl) with hfresh | ⟨request, hsignalled⟩
      · exact hfresh
      · rw [hsignalled] at hs
        cases hs.1
  | ask op next ih =>
      have hrest : ∀ answer, s.coherent ⟨op, answer⟩ →
          Holds shutdownContract SelectSettles (selectCycle (next answer))
            (s.next ⟨op, answer⟩) := by
        intro answer hcoherent
        exact ih answer (huses.2 answer)
          ((hcycle s (.inl rfl)).2 answer _ ⟨hcoherent, rfl⟩)
          (unsignalled_next huses.1 answer hs)
      cases op with
      | act action => exact holds_loop_ask (hcycle s (.inl rfl)).1 hrest
      | finish wait =>
          unfold selectCycle
          exact select_wait_settles huses hcycle (fun h => h) hs hrest
      | finishBefore deadline wait =>
          unfold selectCycle
          exact select_wait_settles huses hcycle (fun h => h.1) hs hrest

theorem selectShutdown_settles (huses : Uses CycleOp cycle)
    (hcycle : Holds interruptedContract (fun _ s' => s'.Boundary) cycle {}) :
    Holds shutdownContract SelectSettles (selectShutdown cycle) {} := by
  refine holds_loop_ask rfl fun polled _ => ?_
  cases polled with
  | none => exact selectCycle_settles huses hcycle ⟨rfl, rfl⟩
  | some signalResult =>
      have hflag : (({} : ShutdownState).inFlight = true ↔
          ({} : ShutdownState).pending ≠ none) := by
        simp
      refine holds_mono (drainOrDrop_concludes huses hcycle hflag ⟨rfl, rfl⟩ signalResult) ?_
      rintro _ s' ⟨rfl, hconcluded⟩
      exact hconcluded

end

theorem waitDelay_settles (delay : Nat) :
    Holds shutdownContract (fun signalled s => match signalled with
      | none => s = {}
      | some _ => Concluded s) (waitDelay delay) {} := by
  unfold waitDelay
  split
  · exact holds_loop_done rfl
  · refine holds_loop_ask trivial fun _ _ => ?_
    refine holds_loop_ask rfl fun polled _ => ?_
    cases polled with
    | some signalResult => exact holds_loop_done ⟨⟨rfl, rfl⟩, Option.some_ne_none _⟩
    | none =>
        refine holds_loop_ask ?_ fun _ _ => holds_loop_done rfl
        exact ⟨fun h => Bool.noConfusion h, fun h => absurd rfl h⟩

namespace Updater

variable [Externals] (self : Updater)

/-- The loop of the daemon returns only because of the signal and with nothing left pending. A run
that has come to the end of its iterations has seen no signal, and it is between two cycles. -/
theorem runLoopFrom_concludes (iterations delay failures : Nat) :
    Holds shutdownContract (fun result s => match result with
      | .running => s = {}
      | .returned _ => Concluded s) (self.runLoopFrom iterations delay failures) {} := by
  induction iterations generalizing delay failures with
  | zero => exact holds_loop_done rfl
  | succ iterations ih =>
      unfold runLoopFrom
      apply holds_bind
      refine holds_mono (waitDelay_settles delay) ?_
      intro signalled s hs
      cases signalled with
      | some signalResult => exact holds_loop_done hs
      | none =>
          obtain rfl : s = {} := hs
          simp only [act_eq, Program.ask_bind, Program.done_bind]
          refine holds_loop_ask trivial fun _ _ => ?_
          apply holds_bind
          refine holds_mono (selectShutdown_settles self.runCycleLocked_cycle
            self.runCycleLocked_boundary) ?_
          intro selected s hs
          cases selected with
          | signalled signalResult => exact holds_loop_done hs
          | completed report =>
              obtain rfl : s = {} := hs
              unfold schedule
              cases hsuccess : report.isSuccess with
              | true =>
                  simp only [hsuccess, if_true, Program.pure_eq, Program.done_bind]
                  exact ih _ _
              | false =>
                  simp only [hsuccess, Bool.false_eq_true, if_false]
                  exact holds_loop_ask trivial fun jitter _ => ih _ _

end Updater

theorem foldl_pending (trace : List Step) (s : ShutdownState) :
    (trace.foldl next s).pending = trace.foldl pendingAfter s.pending := by
  induction trace generalizing s with
  | nil => rfl
  | cons step rest ih => exact ih (s.next step)

/-- Until the signal is observed nothing counts as late. -/
theorem foldl_unsignalled {trace : List Step}
    (h : ∀ step ∈ trace, observesSignal step = false) {s : ShutdownState}
    (hs : s.signalled = none) :
    (trace.foldl next s).signalled = none ∧ (trace.foldl next s).late = s.late := by
  induction trace generalizing s with
  | nil => exact ⟨hs, rfl⟩
  | cons step rest ih =>
      have hnext : (s.next step).signalled = none := by
        rw [next_unobserved (h step List.mem_cons_self), hs]
      obtain ⟨hsignalled, hlate⟩ := ih (fun st hst => h st (List.mem_cons_of_mem _ hst)) hnext
      exact ⟨hsignalled, hlate.trans (late_unsignalled hs step)⟩

/-- After it every mutation that finishes does. -/
theorem foldl_signalled {trace : List Step}
    (h : ∀ step ∈ trace, observesSignal step = false) {s : ShutdownState}
    {pending : Option Request} (hs : s.signalled = some pending) :
    (trace.foldl next s).signalled = some pending ∧
      (trace.foldl next s).late = s.late ++ trace.filterMap finishedMutation := by
  induction trace generalizing s with
  | nil => exact ⟨hs, (List.append_nil _).symm⟩
  | cons step rest ih =>
      have hnext : (s.next step).signalled = some pending := by
        rw [next_unobserved (h step List.mem_cons_self), hs]
      obtain ⟨hsignalled, hlate⟩ := ih (fun st hst => h st (List.mem_cons_of_mem _ hst)) hnext
      refine ⟨hsignalled, hlate.trans ?_⟩
      have hstep : (s.next step).late = s.late ++ (finishedMutation step).toList := by
        cases hfinished : finishedMutation step <;> simp [next, hs, hfinished]
      rw [hstep, List.filterMap_cons, List.append_assoc]
      cases finishedMutation step <;> rfl

theorem op_of_observes {step : Step} (h : observesSignal step = true) :
    step.op = .act .pollShutdown := by
  unfold observesSignal at h
  split at h
  · rfl
  · cases h

theorem op_of_begun {step : Step} {request : Request}
    (h : begunMutation step = some request) :
    step.op = .act (.begin (.http request)) ∧ request.isMutation = true := by
  obtain ⟨hsent, hmutation⟩ := Option.filter_eq_some_iff.mp h
  unfold sent at hsent
  split at hsent
  · cases hsent
    exact ⟨rfl, hmutation⟩
  · cases hsent

section

variable [Externals] (self : Updater)

/-- Shutdown neither abandons a mutation nor begins one. A run of the loop that
returns has observed the signal, once; no mutation is begun after that, and of
those begun before, the one that had no response yet, if there is one, is the
only one to get a response after it. -/
theorem shutdown_finishes_mutation {iterations : Nat} {trace : List Step}
    {result : Except DaemonError Unit}
    (hrun : Runs (self.runLoop iterations) trace (.returned result))
    (hflags : CoherentFrom coherent next {} trace) :
    ∃ before observed after, trace = before ++ observed :: after ∧
      observesSignal observed = true ∧
      (∀ step ∈ before ++ after, observesSignal step = false) ∧
      (∀ step ∈ after, begunMutation step = none) ∧
      after.filterMap finishedMutation = (pendingMutation before).toList := by
  have hholds := self.runLoopFrom_concludes iterations 0 0
  obtain ⟨⟨-, hlate⟩, hsignalled⟩ := track_run hholds hrun hflags
  cases hfind : trace.find? observesSignal with
  | none =>
      have hnone : ∀ step ∈ trace, observesSignal step = false := by
        simpa using List.find?_eq_none.mp hfind
      exact absurd (foldl_unsignalled hnone rfl).1 hsignalled
  | some observed =>
      obtain ⟨hobserves, before, after, rfl, hfirst⟩ :=
        List.find?_eq_some_iff_append.mp hfind
      have hbefore : ∀ step ∈ before, observesSignal step = false := by
        simpa using hfirst
      have hmet : ((before.foldl next {}).next observed).signalled =
          some (pendingMutation before) := by
        have hpending := foldl_pending before {}
        simp only [next, hobserves, if_true]
        rw [hpending]
        rfl
      have hpermits : ∀ {first second : List Step} {step : Step},
          after = first ++ step :: second → permits
            (first.foldl next ((before.foldl next {}).next observed)) step.op := by
        rintro first second step rfl
        rw [← List.cons_append, ← List.append_assoc] at hrun hflags
        have hop := track_permits hholds hrun.reaches hflags
        rwa [List.foldl_append] at hop
      have hafter : ∀ step ∈ after, observesSignal step = false := by
        cases hagain : after.find? observesSignal with
        | none => simpa using List.find?_eq_none.mp hagain
        | some again =>
            obtain ⟨hobserved, first, second, hsplit, hnone⟩ :=
              List.find?_eq_some_iff_append.mp hagain
            have hnot : ∀ step ∈ first, observesSignal step = false := by
              simpa using hnone
            have hpoll := hpermits hsplit
            rw [op_of_observes hobserved] at hpoll
            have hsome := (foldl_signalled hnot hmet).1
            rw [hpoll] at hsome
            cases hsome
      refine ⟨before, observed, after, rfl, hobserves, ?_, ?_, ?_⟩
      · intro step member
        rcases List.mem_append.mp member with member | member
        · exact hbefore step member
        · exact hafter step member
      · intro step member
        obtain ⟨first, second, hsplit⟩ := List.append_of_mem member
        cases hbegun : begunMutation step with
        | none => rfl
        | some request =>
            obtain ⟨hop, hmutation⟩ := op_of_begun hbegun
            have hbegin := hpermits hsplit
            rw [hop] at hbegin
            have hnot : ∀ step ∈ first, observesSignal step = false := by
              intro step member
              apply hafter
              rw [hsplit]
              exact List.mem_append_left _ member
            have hsome := (foldl_signalled hnot hmet).1
            rw [(hbegin hmutation).1] at hsome
            cases hsome
      · obtain ⟨hsome, hends⟩ := foldl_signalled hafter hmet
        have hstart : ((before.foldl next {}).next observed).late = [] := by
          obtain ⟨hnone, hnil⟩ := foldl_unsignalled hbefore (s := {}) rfl
          rw [late_unsignalled hnone, hnil]
        rw [List.foldl_append, List.foldl_cons, hsome, hends, hstart] at hlate
        simpa using hlate

end

section

attribute [local instance] exampleExternals

/-- The signal arrives once the creation has been sent. -/
def interruptedScenario : Scenario where
  server := creationScenario.server
  provider := creationScenario.provider
  stopRequested := fun past => (past.foldl next {}).stop
  mutationInFlight := fun past => (past.foldl next {}).inFlight
  signal := fun past =>
    if past.any (fun step => (begunMutation step).isSome) then some (.ok ()) else none

theorem interruptedScenario_coherent :
    CoherentFrom coherent next {} (interruptedScenario.trace (exampleUpdater.runLoop 1)) := by
  refine interruptedScenario.coherent ?_ _
  intro past op
  unfold coherent
  split
  · rename_i heq
    cases heq
    rfl
  · rename_i heq
    cases heq
    rfl
  · trivial

theorem interruptedScenario_returns :
    interruptedScenario.result (exampleUpdater.runLoop 1) = .returned (.ok ()) := by
  decide +kernel

theorem shutdown_finishes_mutation_creation :
    ∃ before observed after,
      interruptedScenario.trace (exampleUpdater.runLoop 1) = before ++ observed :: after ∧
      observesSignal observed = true ∧
      (∀ step ∈ before ++ after, observesSignal step = false) ∧
      (∀ step ∈ after, begunMutation step = none) ∧
      after.filterMap finishedMutation = (pendingMutation before).toList := by
  have hrun := interruptedScenario.runs (exampleUpdater.runLoop 1)
  rw [interruptedScenario_returns] at hrun
  exact shutdown_finishes_mutation exampleUpdater hrun interruptedScenario_coherent

end

end Cirrusync
