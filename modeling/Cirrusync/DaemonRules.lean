import Cirrusync.CheckRules
import Cirrusync.DaemonRuns

/-!
The daemon under any contract. In the course of a cycle less is known than
between two cycles: `core` holds all along, `inv` at the ends. A cycle that the
loop drops leaves `inv` because the flag says that no mutation is pending.
-/

namespace Cirrusync

open Effect

section

variable {S : Type}

structure LoopRule (c : Contract Ans S) (core inv : S → Prop) : Prop where
  core_of_inv : ∀ {s}, inv s → core s
  inv_stable : ∀ {s s'}, inv s → c.interferes s s' → inv s'
  core_stable : ∀ {s s'}, core s → c.interferes s s' → core s'
  cycle : ∀ {s op answer s'}, CycleOp op → core s → c.permits s op →
    c.advances s op answer s' → core s'
  poll : ∀ {s}, core s → c.permits s (.act .pollShutdown) ∧
    ∀ answer s', c.advances s (.act .pollShutdown) answer s' → s' = s
  request : ∀ {s}, core s → c.permits s (.act .requestStop) ∧
    ∀ answer s', c.advances s (.act .requestStop) answer s' → s' = s
  flag : ∀ {s}, core s → c.permits s (.act .mutationInFlight) ∧
    ∀ answer s', c.advances s (.act .mutationInFlight) answer s' → s' = s
  drop : ∀ {s op}, core s → (∀ action, op ≠ .act action) → c.permits s op →
    c.advances s (.act .mutationInFlight) false s → inv s
  sleep : ∀ {s duration}, inv s →
    (c.permits s (.act (.begin (.sleep duration))) ∧
      ∀ answer s', c.advances s (.act (.begin (.sleep duration))) answer s' → inv s') ∧
    c.permits s (.finish (.sleep duration)) ∧
      ∀ answer s', c.advances s (.finish (.sleep duration)) answer s' → inv s'
  jitter : ∀ {s}, inv s → c.permits s (.act .jitterPercent) ∧
    ∀ answer s', c.advances s (.act .jitterPercent) answer s' → inv s'
  control : ∀ {s}, inv s → c.permits s (.act .newControl) ∧
    ∀ answer s', c.advances s (.act .newControl) answer s' → inv s'

variable {c : Contract Ans S} {core inv : S → Prop}

theorem LoopRule.done {α : Type} (hrule : LoopRule c core inv) (value : α) {s : S}
    (hs : inv s) : Holds c (fun _ s' => inv s') (.done value) s :=
  fun _ hinterferes => hrule.inv_stable hs hinterferes

theorem LoopRule.ask {α : Type} (hrule : LoopRule c core inv) {op : Op}
    {rest : Ans op → M α} {s : S} (hs : inv s)
    (hop : ∀ s, inv s → c.permits s op ∧ ∀ answer s', c.advances s op answer s' → inv s')
    (hrest : ∀ answer s', inv s' → Holds c (fun _ s'' => inv s'') (rest answer) s') :
    Holds c (fun _ s' => inv s') (.ask op rest) s := by
  intro s' hinterferes
  obtain ⟨hpermits, hkeeps⟩ := hop s' (hrule.inv_stable hs hinterferes)
  exact ⟨hpermits, fun answer s'' hadvances => hrest answer s'' (hkeeps answer s'' hadvances)⟩

/-- A cycle that the loop leaves is dropped where nothing is pending, or awaited. -/
theorem drainOrDrop_keeps {α : Type} (hrule : LoopRule c core inv) {cycle : M α} {s : S}
    (hs : core s) (hcycle : Holds c (fun _ s' => inv s') cycle s)
    (hdrop : ∀ s', c.interferes s s' → c.advances s' (.act .mutationInFlight) false s' →
      inv s') (signalResult : Except String Unit) :
    Holds c (fun _ s' => inv s') (drainOrDrop signalResult cycle) s := by
  simp only [drainOrDrop, act_eq, Program.ask_bind, Program.done_bind, Program.pure_eq]
  intro s₁ hfirst
  have hcore₁ := hrule.core_stable hs hfirst
  obtain ⟨hrequest, hrequested⟩ := hrule.request hcore₁
  refine ⟨hrequest, fun answer s₁' hadvances => ?_⟩
  obtain rfl := hrequested answer s₁' hadvances
  intro s₂ hsecond
  have hcore₂ := hrule.core_stable hcore₁ hsecond
  obtain ⟨hflag, hflagged⟩ := hrule.flag hcore₂
  refine ⟨hflag, fun inFlight s₂' hadvances => ?_⟩
  obtain rfl := hflagged inFlight s₂' hadvances
  have hsince := c.interferes_trans _ _ _ hfirst hsecond
  cases inFlight with
  | false => exact hrule.done _ (hdrop _ hsince hadvances)
  | true =>
      simp only [if_true]
      apply holds_bind
      refine holds_mono (holds_interferes hcycle hsince) ?_
      intro value s' hs'
      exact hrule.done _ hs'

/-- A wait of the cycle inside the `select!`. -/
theorem select_wait_keeps {α : Type} (hrule : LoopRule c core inv) {op : Op}
    (hwait : ∀ action, op ≠ .act action) {next : Ans op → M α} {s : S} (hs : core s)
    (hcycle : Holds c (fun _ s' => inv s') (.ask op next) s)
    (hrest : ∀ {s'}, c.interferes s s' → ∀ answer s'', c.advances s' op answer s'' →
      Holds c (fun _ t => inv t) (selectCycle (next answer)) s'') :
    Holds c (fun _ s' => inv s') (.ask (.act .pollShutdown) (fun
      | some signalResult => drainOrDrop signalResult (.ask op next)
      | none => .ask op (fun answer => selectCycle (next answer)))) s := by
  intro s₁ hfirst
  have hcore₁ := hrule.core_stable hs hfirst
  obtain ⟨hpoll, hpolled⟩ := hrule.poll hcore₁
  refine ⟨hpoll, fun polled s₁' hadvances => ?_⟩
  obtain rfl := hpolled polled s₁' hadvances
  cases polled with
  | none =>
      intro s₂ hsecond
      have hsince := c.interferes_trans _ _ _ hfirst hsecond
      exact ⟨(hcycle s₂ hsince).1, fun answer s'' hadv => hrest hsince answer s'' hadv⟩
  | some signalResult =>
      refine drainOrDrop_keeps hrule hcore₁ (holds_interferes hcycle hfirst) ?_ signalResult
      intro s₂ hsecond hfalse
      have hsince := c.interferes_trans _ _ _ hfirst hsecond
      exact hrule.drop (hrule.core_stable hcore₁ hsecond) hwait (hcycle s₂ hsince).1 hfalse

theorem selectCycle_keeps {α : Type} (hrule : LoopRule c core inv) {cycle : M α}
    (huses : Uses CycleOp cycle) {s : S} (hs : core s)
    (hcycle : Holds c (fun _ s' => inv s') cycle s) :
    Holds c (fun _ s' => inv s') (selectCycle cycle) s := by
  induction cycle generalizing s with
  | done value => exact hcycle
  | ask op next ih =>
      have hrest : ∀ {s'}, c.interferes s s' → ∀ answer s'', c.advances s' op answer s'' →
          Holds c (fun _ t => inv t) (selectCycle (next answer)) s'' := by
        intro s' hinterferes answer s'' hadvances
        obtain ⟨hpermits, hnext⟩ := hcycle s' hinterferes
        have hs' := hrule.core_stable hs hinterferes
        exact ih answer (huses.2 answer) (hrule.cycle huses.1 hs' hpermits hadvances)
          (hnext answer s'' hadvances)
      cases op with
      | act action =>
          intro s' hinterferes
          exact ⟨(hcycle s' hinterferes).1, hrest hinterferes⟩
      | finish wait =>
          unfold selectCycle
          exact select_wait_keeps hrule (fun _ h => by cases h) hs hcycle hrest
      | finishBefore deadline wait =>
          unfold selectCycle
          exact select_wait_keeps hrule (fun _ h => by cases h) hs hcycle hrest

theorem selectShutdown_keeps {α : Type} (hrule : LoopRule c core inv) {cycle : M α}
    (huses : Uses CycleOp cycle) {s : S} (hs : inv s)
    (hcycle : ∀ {s}, inv s → Holds c (fun _ s' => inv s') cycle s) :
    Holds c (fun _ s' => inv s') (selectShutdown cycle) s := by
  intro s' hinterferes
  have hs' := hrule.inv_stable hs hinterferes
  obtain ⟨hpoll, hpolled⟩ := hrule.poll (hrule.core_of_inv hs')
  refine ⟨hpoll, fun polled s'' hadvances => ?_⟩
  obtain rfl := hpolled polled s'' hadvances
  cases polled with
  | none => exact selectCycle_keeps hrule huses (hrule.core_of_inv hs') (hcycle hs')
  | some signalResult =>
      exact drainOrDrop_keeps hrule (hrule.core_of_inv hs') (hcycle hs')
        (fun t ht _ => hrule.inv_stable hs' ht) signalResult

theorem waitDelay_keeps (hrule : LoopRule c core inv) (delay : Nat) {s : S} (hs : inv s) :
    Holds c (fun _ s' => inv s') (waitDelay delay) s := by
  unfold waitDelay
  split
  · exact hrule.done _ hs
  · refine hrule.ask hs (fun s hs => (hrule.sleep hs).1) fun _ s' hs' => ?_
    refine hrule.ask hs' (fun s hs => ?_) fun polled s'' hs'' => ?_
    · obtain ⟨hpoll, hpolled⟩ := hrule.poll (hrule.core_of_inv hs)
      refine ⟨hpoll, fun answer t hadvances => ?_⟩
      obtain rfl := hpolled answer t hadvances
      exact hs
    · cases polled with
      | some signalResult => exact hrule.done _ hs''
      | none =>
          exact hrule.ask hs'' (fun s hs => (hrule.sleep hs).2) fun _ t ht =>
            hrule.done _ ht

/-- The loop of the daemon keeps what its cycles keep. -/
theorem Updater.runLoopFrom_keeps [Externals] (self : Updater)
    (hrule : LoopRule c core inv)
    (hcycle : ∀ {s}, inv s → Holds c (fun _ s' => inv s') self.runCycleLocked s)
    (iterations delay failures : Nat) {s : S} (hs : inv s) :
    Holds c (fun _ s' => inv s') (self.runLoopFrom iterations delay failures) s := by
  induction iterations generalizing delay failures s with
  | zero => exact hrule.done _ hs
  | succ iterations ih =>
      unfold runLoopFrom
      apply holds_bind
      refine holds_mono (waitDelay_keeps hrule delay hs) ?_
      intro signalled s' hs'
      cases signalled with
      | some signalResult => exact hrule.done _ hs'
      | none =>
          simp only [act_eq, Program.ask_bind, Program.done_bind]
          refine hrule.ask hs' (fun s hs => hrule.control hs) fun _ s'' hs'' => ?_
          apply holds_bind
          refine holds_mono (selectShutdown_keeps hrule self.runCycleLocked_cycle hs''
            hcycle) ?_
          intro selected t ht
          cases selected with
          | signalled signalResult => exact hrule.done _ ht
          | completed report =>
              unfold schedule
              cases hsuccess : report.isSuccess with
              | true =>
                  simp only [hsuccess, if_true, Program.pure_eq, Program.done_bind]
                  exact ih _ _ ht
              | false =>
                  simp only [hsuccess, Bool.false_eq_true, if_false]
                  exact hrule.ask ht (fun s hs => hrule.jitter hs) fun _ t' ht' => ih _ _ ht'

end

end Cirrusync
