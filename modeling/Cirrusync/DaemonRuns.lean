import Cirrusync.DriverRefusal

/-!
How the loop of the daemon runs. The `select!`s add polls of the signal to a
cycle and may leave it where it waits; without their own steps the trace of an
iteration is that of the cycle. The steps of a run carry the times at which they
are made, and a finished sleep has lasted.
-/

namespace Cirrusync

open Effect

/-- The operations of the daemon around a cycle. -/
def isLoopOp : Op → Bool
  | .act .pollShutdown | .act .requestStop | .act .mutationInFlight | .act .newControl
  | .act .jitterPercent | .act (.begin (.sleep _)) | .finish (.sleep _)
  | .finishBefore _ (.sleep _) | .act (.prepareLockParent _ _) | .act (.openRuntimeLock _)
  | .act (.tryLock _) | .act (.unlock _) | .act (.closeLock _) => true
  | _ => false

theorem RequestOp.not_loop {op : Op} (h : RequestOp op) : isLoopOp op = false := by
  unfold RequestOp at h
  split at h
  · rfl
  · rfl
  · rfl
  · exact h.elim

/-- The operations that a cycle is made of. -/
def CycleOp (op : Op) : Prop := isLoopOp op = false

/-- The steps of a trace that are the cycle's own. -/
def ofCycle (trace : List Step) : List Step :=
  trace.filter (fun step => !isLoopOp step.op)

@[simp] theorem ofCycle_nil : ofCycle [] = [] := rfl

@[simp] theorem ofCycle_append (first second : List Step) :
    ofCycle (first ++ second) = ofCycle first ++ ofCycle second := by
  simp [ofCycle]

theorem ofCycle_cons {op : Op} (h : CycleOp op) (answer : Ans op) (trace : List Step) :
    ofCycle (⟨op, answer⟩ :: trace) = ⟨op, answer⟩ :: ofCycle trace := by
  unfold CycleOp at h
  simp [ofCycle, h]

theorem ofCycle_cons_loop {op : Op} (h : isLoopOp op = true) (answer : Ans op)
    (trace : List Step) : ofCycle (⟨op, answer⟩ :: trace) = ofCycle trace := by
  simp [ofCycle, h]

theorem ofCycle_of_uses {trace : List Step} (h : ∀ step ∈ trace, CycleOp step.op) :
    ofCycle trace = trace := by
  apply List.filter_eq_self.mpr
  intro step member
  have hcycle := h step member
  unfold CycleOp at hcycle
  simp [hcycle]

theorem DiscoveryOp.cycle {op : Op} (h : DiscoveryOp op) : CycleOp op := by
  unfold DiscoveryOp at h
  split at h <;> first | rfl | exact h.elim

theorem LookupOp.cycle {op : Op} (h : LookupOp op) : CycleOp op := by
  unfold LookupOp at h
  split at h <;> first | rfl | exact h.elim

theorem Updater.runCycleLocked_cycle [Externals] (self : Updater) :
    Uses CycleOp self.runCycleLocked := by
  apply self.runCycleLocked_uses
  exact {
    discovery := fun _ => DiscoveryOp.cycle
    lookup := fun _ => LookupOp.cycle
    stopRequested := rfl
    fetchAddCursor := rfl
    execute := fun _ hplans => self.executeRecordPlan_uses hplans (fun _ => rfl)
      (fun _ => rfl) (fun _ _ => ⟨rfl, rfl⟩) (fun _ => ⟨rfl, rfl⟩) }

section

variable {α : Type} {cycle : M α} {trace : List Step}

/-- The cycle's part of a trace that one `select!` leaves. -/
def SelectedFrom (cycle : M α) (steps : List Step) : Selected α → Prop
  | .signalled _ => ∃ rest, Reaches cycle steps rest
  | .completed value => Runs cycle steps value

theorem SelectedFrom.ask {op : Op} {next : Ans op → M α} {answer : Ans op}
    {steps : List Step} {selected : Selected α}
    (h : SelectedFrom (next answer) steps selected) :
    SelectedFrom (.ask op next) (⟨op, answer⟩ :: steps) selected := by
  cases selected with
  | signalled signalResult =>
      obtain ⟨rest, hreach⟩ := h
      exact ⟨rest, Reaches.ask answer hreach⟩
  | completed value => exact Runs.ask answer h

theorem runs_drainOrDrop (huses : Uses CycleOp cycle) {signalResult : Except String Unit}
    {selected : Selected α} (hrun : Runs (drainOrDrop signalResult cycle) trace selected) :
    SelectedFrom cycle (ofCycle trace) selected := by
  unfold drainOrDrop at hrun
  obtain ⟨_, asked, rfl, hasked⟩ := (runs_ask_iff _ _ _ _).mp hrun
  obtain ⟨inFlight, later, rfl, hlater⟩ := (runs_ask_iff _ _ _ _).mp hasked
  rw [ofCycle_cons_loop rfl, ofCycle_cons_loop rfl]
  cases inFlight with
  | false =>
      cases hlater
      exact ⟨cycle, .here _⟩
  | true =>
      have hdrain : Runs (cycle >>= fun _ => .done (.signalled signalResult)) later selected :=
        hlater
      obtain ⟨drained, _, value, rfl, hdrained, hrest⟩ := (runs_bind_iff _ _ _ _).mp hdrain
      cases hrest
      rw [List.append_nil, ofCycle_of_uses (uses_runs huses hdrained)]
      exact ⟨_, hdrained.reaches⟩

/-- A run of a cycle beside the signal is a run of the cycle to its end, or a part of one that the
signal has cut off. The polls of the signal stand between its steps and are left out. -/
theorem runs_selectCycle (huses : Uses CycleOp cycle) {selected : Selected α}
    (hrun : Runs (selectCycle cycle) trace selected) :
    SelectedFrom cycle (ofCycle trace) selected := by
  induction cycle generalizing trace with
  | done value =>
      cases hrun
      exact .done value
  | ask op next ih =>
      cases op with
      | act action =>
          obtain ⟨answer, rest, rfl, hrest⟩ := (runs_ask_iff _ _ _ _).mp hrun
          rw [ofCycle_cons huses.1]
          exact (ih answer (huses.2 answer) hrest).ask
      | finish wait =>
          unfold selectCycle at hrun
          obtain ⟨polled, rest, rfl, hrest⟩ := (runs_ask_iff _ _ _ _).mp hrun
          rw [ofCycle_cons_loop rfl]
          cases polled with
          | some signalResult => exact runs_drainOrDrop huses hrest
          | none =>
              obtain ⟨answer, later, rfl, hlater⟩ := (runs_ask_iff _ _ _ _).mp hrest
              rw [ofCycle_cons huses.1]
              exact (ih answer (huses.2 answer) hlater).ask
      | finishBefore deadline wait =>
          unfold selectCycle at hrun
          obtain ⟨polled, rest, rfl, hrest⟩ := (runs_ask_iff _ _ _ _).mp hrun
          rw [ofCycle_cons_loop rfl]
          cases polled with
          | some signalResult => exact runs_drainOrDrop huses hrest
          | none =>
              obtain ⟨answer, later, rfl, hlater⟩ := (runs_ask_iff _ _ _ _).mp hrest
              rw [ofCycle_cons huses.1]
              exact (ih answer (huses.2 answer) hlater).ask

theorem runs_selectShutdown (huses : Uses CycleOp cycle) {selected : Selected α}
    (hrun : Runs (selectShutdown cycle) trace selected) :
    SelectedFrom cycle (ofCycle trace) selected := by
  unfold selectShutdown at hrun
  obtain ⟨polled, rest, rfl, hrest⟩ := (runs_ask_iff _ _ _ _).mp hrun
  rw [ofCycle_cons_loop rfl]
  cases polled with
  | some signalResult => exact runs_drainOrDrop huses hrest
  | none => exact runs_selectCycle huses hrest

end

/-- A step and the moment at which it is made. -/
abbrev TimedStep := Instant × Step

def steps (trace : List TimedStep) : List Step := trace.map Prod.snd

@[simp] theorem steps_append (first second : List TimedStep) :
    steps (first ++ second) = steps first ++ steps second := List.map_append

@[simp] theorem steps_cons (entry : TimedStep) (rest : List TimedStep) :
    steps (entry :: rest) = entry.2 :: steps rest := rfl

def TimedStep.beginsSleep (entry : TimedStep) : Prop :=
  ∃ duration, entry.2.op = .act (.begin (.sleep duration))

/-- The clock does not go back, and a sleep ends no earlier than its duration
after its begin. -/
structure Timed (trace : List TimedStep) : Prop where
  monotone : trace.Pairwise (fun first second => first.1 ≤ second.1)
  sleeps : ∀ {before between after : List TimedStep} {begun ended : TimedStep}
    {duration : Nat},
    trace = before ++ begun :: (between ++ ended :: after) →
    begun.2.op = .act (.begin (.sleep duration)) → ended.2.op = .finish (.sleep duration) →
    (∀ entry ∈ between, ¬ entry.beginsSleep) → begun.1 + duration ≤ ended.1

theorem Timed.right {first second : List TimedStep} (h : Timed (first ++ second)) :
    Timed second where
  monotone := (List.pairwise_append.mp h.monotone).2.1
  sleeps := by
    intro before between after begun ended duration hsplit
    apply h.sleeps
    rw [hsplit]
    exact (List.append_assoc first before _).symm

theorem Timed.le_of_append {first second : List TimedStep} (h : Timed (first ++ second))
    {entry later : TimedStep} (hentry : entry ∈ first) (hlater : later ∈ second) :
    entry.1 ≤ later.1 :=
  (List.pairwise_append.mp h.monotone).2.2 entry hentry later hlater

/-- The wait of an iteration that is not ended by the signal. -/
inductive Waits : Nat → List TimedStep → Prop where
  | none : Waits 0 []
  | slept {delay : Nat} {begun polled ended : Instant} :
      Waits delay [(begun, ⟨.act (.begin (.sleep delay)), ()⟩),
        (polled, ⟨.act .pollShutdown, none⟩), (ended, ⟨.finish (.sleep delay), ()⟩)]

/-- The trace holds operations of the loop only. -/
def LoopSteps (trace : List TimedStep) : Prop :=
  ∀ entry ∈ trace, isLoopOp entry.2.op = true

theorem Waits.loopSteps {delay : Nat} {waiting : List TimedStep} (h : Waits delay waiting) :
    LoopSteps waiting := by
  intro entry member
  cases h with
  | none => cases member
  | slept =>
      simp only [List.mem_cons, List.not_mem_nil, or_false] at member
      rcases member with rfl | rfl | rfl <;> rfl

theorem steps_eq_cons {trace : List TimedStep} {step : Step} {rest : List Step}
    (h : steps trace = step :: rest) :
    ∃ moment later, trace = (moment, step) :: later ∧ steps later = rest := by
  obtain ⟨entry, later, rfl, rfl, hrest⟩ := List.map_eq_cons_iff.mp h
  exact ⟨entry.1, later, rfl, hrest⟩

theorem steps_eq_nil {trace : List TimedStep} (h : steps trace = []) : trace = [] :=
  List.map_eq_nil_iff.mp h

theorem steps_eq_append {trace : List TimedStep} {first second : List Step}
    (h : steps trace = first ++ second) :
    ∃ before after, trace = before ++ after ∧ steps before = first ∧
      steps after = second := by
  obtain ⟨before, after, rfl, hfirst, hsecond⟩ := List.map_eq_append_iff.mp h
  exact ⟨before, after, rfl, hfirst, hsecond⟩

theorem runs_waitDelay {delay : Nat} {trace : List TimedStep}
    {signalled : Option (Except String Unit)}
    (hrun : Runs (waitDelay delay) (steps trace) signalled) :
    signalled.isSome = true ∧ LoopSteps trace ∨ signalled = none ∧ Waits delay trace := by
  unfold waitDelay at hrun
  by_cases hdelay : delay = 0
  · rw [if_pos hdelay] at hrun
    obtain ⟨hsteps, rfl⟩ := (runs_done_iff _ _ _).mp hrun
    rw [steps_eq_nil hsteps, hdelay]
    exact .inr ⟨rfl, .none⟩
  · rw [if_neg hdelay] at hrun
    obtain ⟨_, polling, hsteps, hpolling⟩ := (runs_ask_iff _ _ _ _).mp hrun
    obtain ⟨begun, _, rfl, hlater⟩ := steps_eq_cons hsteps
    obtain ⟨polled, rest, rfl, hrest⟩ := (runs_ask_iff _ _ _ _).mp hpolling
    obtain ⟨moment, _, rfl, hlast⟩ := steps_eq_cons hlater
    cases polled with
    | some signalResult =>
        obtain ⟨rfl, rfl⟩ := (runs_done_iff _ _ _).mp hrest
        rw [steps_eq_nil hlast]
        refine .inl ⟨rfl, ?_⟩
        intro entry member
        simp only [List.mem_cons, List.not_mem_nil, or_false] at member
        rcases member with rfl | rfl <;> rfl
    | none =>
        obtain ⟨_, done, rfl, hdone⟩ := (runs_ask_iff _ _ _ _).mp hrest
        obtain ⟨ended, _, rfl, hnil⟩ := steps_eq_cons hlast
        obtain ⟨rfl, rfl⟩ := (runs_done_iff _ _ _).mp hdone
        rw [steps_eq_nil hnil]
        exact .inr ⟨rfl, .slept⟩

namespace Updater

variable [Externals] (self : Updater)

/-- The runs of `run_loop` with a delay and a failure count, as they are seen by
the cycles: each iteration waits, and its cycle is left by the signal, succeeds
or fails. -/
inductive Iterates : Nat → Nat → List TimedStep → Prop where
  | idle {delay failures : Nat} {trace : List TimedStep} :
      LoopSteps trace → Iterates delay failures trace
  | signalled {delay failures : Nat} {waiting cycle : List TimedStep} {started : Instant}
      {rest : M CycleReport} :
      Waits delay waiting → Reaches self.runCycleLocked (ofCycle (steps cycle)) rest →
      Iterates delay failures (waiting ++ (started, ⟨.act .newControl, ()⟩) :: cycle)
  | succeeded {delay failures : Nat} {waiting cycle later : List TimedStep}
      {started : Instant} {report : CycleReport} :
      Waits delay waiting → Runs self.runCycleLocked (ofCycle (steps cycle)) report →
      report.isSuccess = true →
      Iterates (seconds self.config.intervalSeconds) 0 later →
      Iterates delay failures
        (waiting ++ (started, ⟨.act .newControl, ()⟩) :: (cycle ++ later))
  | failed {delay failures jitter : Nat} {waiting cycle later : List TimedStep}
      {started drawn : Instant} {report : CycleReport} :
      Waits delay waiting → Runs self.runCycleLocked (ofCycle (steps cycle)) report →
      report.isSuccess = false →
      Iterates (retryDelay report (min (failures + 1) (2 ^ 32 - 1))
        (seconds self.config.intervalSeconds) jitter)
        (min (failures + 1) (2 ^ 32 - 1)) later →
      Iterates delay failures (waiting ++ (started, ⟨.act .newControl, ()⟩) ::
        (cycle ++ (drawn, ⟨.act .jitterPercent, jitter⟩) :: later))

/-- Every run of the loop of the daemon is a sequence of iterations. Each waits for the delay or
the signal, and its cycle is left by the signal, succeeds or fails, which sets the delay of the
next. -/
theorem runLoopFrom_iterates {iterations delay failures : Nat} {trace : List TimedStep}
    {result : LoopResult}
    (hrun : Runs (self.runLoopFrom iterations delay failures) (steps trace) result) :
    self.Iterates delay failures trace := by
  induction iterations generalizing delay failures trace with
  | zero =>
      obtain ⟨hsteps, -⟩ := (runs_done_iff _ _ _).mp hrun
      rw [steps_eq_nil hsteps]
      exact .idle fun entry member => absurd member List.not_mem_nil
  | succ iterations ih =>
      unfold runLoopFrom at hrun
      obtain ⟨_, _, waited, hsteps, hwait, hrest⟩ := (runs_bind_iff _ _ _ _).mp hrun
      obtain ⟨waiting, _, rfl, rfl, rfl⟩ := steps_eq_append hsteps
      rcases runs_waitDelay hwait with ⟨hsome, hloop⟩ | ⟨rfl, hwaits⟩
      · obtain ⟨signalResult, rfl⟩ := Option.isSome_iff_exists.mp hsome
        obtain ⟨hsteps, -⟩ := (runs_done_iff _ _ _).mp hrest
        rw [steps_eq_nil hsteps, List.append_nil]
        exact .idle hloop
      · simp only [act_eq, Program.ask_bind, Program.done_bind] at hrest
        obtain ⟨_, _, hsteps, hselect⟩ := (runs_ask_iff _ _ _ _).mp hrest
        obtain ⟨started, _, rfl, rfl⟩ := steps_eq_cons hsteps
        obtain ⟨_, _, selected, hsteps, hselected, hgoes⟩ :=
          (runs_bind_iff _ _ _ _).mp hselect
        obtain ⟨cycle, _, rfl, rfl, rfl⟩ := steps_eq_append hsteps
        have hcycle := runs_selectShutdown self.runCycleLocked_cycle hselected
        cases selected with
        | signalled signalResult =>
            obtain ⟨hsteps, -⟩ := (runs_done_iff _ _ _).mp hgoes
            obtain ⟨rest, hreach⟩ := hcycle
            rw [steps_eq_nil hsteps, List.append_nil]
            exact .signalled hwaits hreach
        | completed report =>
            unfold schedule at hgoes
            cases hsuccess : report.isSuccess with
            | true =>
                simp only [hsuccess, if_true] at hgoes
                exact .succeeded hwaits hcycle hsuccess (ih hgoes)
            | false =>
                simp only [hsuccess, Bool.false_eq_true, if_false] at hgoes
                obtain ⟨jitter, _, hsteps, hlater⟩ := (runs_ask_iff _ _ _ _).mp hgoes
                obtain ⟨drawn, _, rfl, rfl⟩ := steps_eq_cons hsteps
                exact .failed hwaits hcycle hsuccess (ih hlater)

end Updater

end Cirrusync
