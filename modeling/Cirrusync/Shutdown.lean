import Cirrusync.DaemonRuns

/-!
Shutdown of the daemon. Along a run of the loop it is tracked which flags are
set, which mutation has been begun and not finished, what was pending when the
signal was observed, and which mutations have finished since. A cycle is verified
in a contract in which the loop may ask it to stop whenever a mutation is
pending.
-/

namespace Cirrusync

open Effect

/-- The mutation that a step begins. -/
def begunMutation (step : Step) : Option Request :=
  (sent step).filter Request.isMutation

/-- The mutation whose response a step brings. -/
def finishedMutation (step : Step) : Option Request :=
  ((replied step).map Prod.fst).filter Request.isMutation

/-- The step in which the loop observes the signal. -/
def observesSignal : Step → Bool
  | ⟨.act .pollShutdown, some _⟩ => true
  | _ => false

def stopAfter (stop : Bool) : Step → Bool
  | ⟨.act .newControl, _⟩ => false
  | ⟨.act .requestStop, _⟩ => true
  | _ => stop

def inFlightAfter (inFlight : Bool) : Step → Bool
  | ⟨.act .newControl, _⟩ => false
  | ⟨.act (.setMutationInFlight flag), _⟩ => flag
  | _ => inFlight

def pendingAfter (pending : Option Request) (step : Step) : Option Request :=
  match begunMutation step, finishedMutation step with
  | some request, _ => some request
  | none, some _ => none
  | none, none => pending

/-- The mutation that has been begun and not finished at the end of a trace. -/
def pendingMutation (trace : List Step) : Option Request := trace.foldl pendingAfter none

/-- The flags of `CycleControl`, and what shutdown is about. -/
structure ShutdownState where
  stop : Bool := false
  inFlight : Bool := false
  pending : Option Request := none
  /-- What was pending when the signal was observed. -/
  signalled : Option (Option Request) := none
  /-- The mutations finished since. -/
  late : List Request := []

namespace ShutdownState

def next (s : ShutdownState) (step : Step) : ShutdownState where
  stop := stopAfter s.stop step
  inFlight := inFlightAfter s.inFlight step
  pending := pendingAfter s.pending step
  signalled := if observesSignal step then some s.pending else s.signalled
  late := match finishedMutation step with
    | some request => if s.signalled.isSome then s.late ++ [request] else s.late
    | none => s.late

/-- The flags are read as they were set last. -/
def coherent (s : ShutdownState) : Step → Prop
  | ⟨.act .stopRequested, answer⟩ => answer = s.stop
  | ⟨.act .mutationInFlight, answer⟩ => answer = s.inFlight
  | _ => True

/-- A mutation is begun before the signal and one at a time; it is finished
without a deadline; and the flag tells whether one is pending. -/
def permits (s : ShutdownState) : Op → Prop
  | .act (.begin (.http request)) =>
      request.isMutation = true → s.signalled = none ∧ s.pending = none
  | .finish _ => s.inFlight = true ↔ s.pending ≠ none
  | .finishBefore _ wait =>
      (s.inFlight = true ↔ s.pending ≠ none) ∧
        ∀ request, wait = .http request → request.isMutation = false
  | .act .pollShutdown => s.signalled = none
  | _ => True

/-- The state once the loop has observed the signal and asked to stop. -/
def drained (s : ShutdownState) : ShutdownState :=
  { s with stop := true, signalled := some s.pending }

/-- The loop may ask the cycle to stop while a mutation is pending. -/
def interrupts (s s' : ShutdownState) : Prop :=
  s' = s ∨ s.pending ≠ none ∧ s.inFlight = true ∧ s.signalled = none ∧ s' = s.drained

/-- No mutation is pending, and of those pending at the signal all are finished. -/
def Settled (s : ShutdownState) : Prop :=
  s.pending = none ∧ s.late = (s.signalled.getD none).toList

/-- Nothing is pending between two records: either no signal has been observed,
or it was while a mutation was pending, which is finished, and stop is requested. -/
def Boundary (s : ShutdownState) : Prop :=
  s = {} ∨ ∃ request, s = { stop := true, signalled := some (some request), late := [request] }

theorem Boundary.settled {s : ShutdownState} (h : s.Boundary) : s.Settled := by
  rcases h with rfl | ⟨request, rfl⟩
  · exact ⟨rfl, rfl⟩
  · exact ⟨rfl, rfl⟩

theorem Boundary.idle {s : ShutdownState} (h : s.Boundary) :
    s.inFlight = false ∧ s.pending = none := by
  rcases h with rfl | ⟨request, rfl⟩
  · exact ⟨rfl, rfl⟩
  · exact ⟨rfl, rfl⟩

end ShutdownState

open ShutdownState

/-- The loop, which has the flags to itself. -/
def shutdownContract : Contract Ans ShutdownState := .track permits coherent next

/-- A cycle inside the `select!` of the loop. -/
def interruptedContract : Contract Ans ShutdownState where
  interferes := interrupts
  permits := permits
  advances := fun s op answer s' => coherent s ⟨op, answer⟩ ∧ s' = next s ⟨op, answer⟩
  interferes_refl := fun _ => .inl rfl
  interferes_trans := by
    rintro s t u (rfl | ⟨hpending, hflag, hsignalled, rfl⟩) hnext
    · exact hnext
    · rcases hnext with rfl | ⟨-, -, hnone, -⟩
      · exact .inr ⟨hpending, hflag, hsignalled, rfl⟩
      · cases hnone

/-- Operations that change none of what is tracked. -/
def QuietOp (op : Op) : Prop := DiscoveryOp op ∨ LookupOp op ∨ op = .act .fetchAddCursor

theorem interrupts_idle {s s' : ShutdownState} (hs : s.pending = none)
    (h : interrupts s s') : s' = s := by
  rcases h with rfl | ⟨hpending, -⟩
  · rfl
  · exact absurd hs hpending

theorem next_discovery {op : Op} (h : DiscoveryOp op) (answer : Ans op)
    (s : ShutdownState) : s.next ⟨op, answer⟩ = s := by
  unfold DiscoveryOp at h
  split at h
  · rfl
  · rfl
  · rfl
  · rfl
  · rfl
  · exact h.elim

theorem next_lookup {op : Op} (h : LookupOp op) (answer : Ans op) (s : ShutdownState) :
    s.next ⟨op, answer⟩ = s := by
  unfold LookupOp at h
  split at h
  · simp [next, stopAfter, inFlightAfter, pendingAfter, begunMutation, finishedMutation,
      observesSignal, sent, replied, Option.filter, h]
  · simp [next, stopAfter, inFlightAfter, pendingAfter, begunMutation, finishedMutation,
      observesSignal, sent, replied, Option.filter, h]
  · cases answer with
    | none => rfl
    | some outcome =>
        simp [next, stopAfter, inFlightAfter, pendingAfter, begunMutation, finishedMutation,
          observesSignal, sent, replied, Option.filter, h]
  · rfl
  · rfl
  · rfl
  · exact h.elim

theorem next_quiet {op : Op} (h : QuietOp op) (answer : Ans op) (s : ShutdownState) :
    s.next ⟨op, answer⟩ = s := by
  rcases h with h | h | rfl
  · exact next_discovery h answer s
  · exact next_lookup h answer s
  · rfl

theorem permits_quiet {op : Op} (h : QuietOp op) {s : ShutdownState}
    (hs : s.inFlight = false ∧ s.pending = none) : s.permits op := by
  have hflag : s.inFlight = true ↔ s.pending ≠ none := by simp [hs.1, hs.2]
  rcases h with h | h | rfl
  · unfold DiscoveryOp at h
    split at h
    · trivial
    · exact hflag
    · exact ⟨hflag, fun request heq => by cases heq⟩
    · trivial
    · trivial
    · exact h.elim
  · unfold LookupOp at h
    split at h
    · intro hmutation
      rw [h] at hmutation
      cases hmutation
    · exact hflag
    · refine ⟨hflag, fun request heq => ?_⟩
      cases heq
      exact h
    · trivial
    · trivial
    · trivial
    · exact h.elim
  · trivial

/-- A program of quiet operations leaves an idle state as it is. -/
theorem holds_quietly {α : Type} {p : M α} (huses : Uses QuietOp p) {s : ShutdownState}
    (hs : s.inFlight = false ∧ s.pending = none) :
    Holds interruptedContract (fun _ s' => s' = s) p s := by
  apply @holds_of_uses _ _ _ _ interruptedContract QuietOp (fun s' => s' = s) p _ _ huses s rfl
  · rintro _ s' rfl hinterferes
    exact interrupts_idle hs.2 hinterferes
  · rintro _ op rfl hquiet
    refine ⟨permits_quiet hquiet hs, ?_⟩
    rintro answer s' ⟨-, rfl⟩
    exact next_quiet hquiet answer _

/-- A step of a program whose state cannot be interrupted. -/
theorem holds_idle_ask {α : Type} {post : α → ShutdownState → Prop} {op : Op}
    {rest : Ans op → M α} {s : ShutdownState} (hs : s.pending = none) (hop : s.permits op)
    (hrest : ∀ answer, s.coherent ⟨op, answer⟩ →
      Holds interruptedContract post (rest answer) (s.next ⟨op, answer⟩)) :
    Holds interruptedContract post (.ask op rest) s := by
  intro s' hinterferes
  obtain rfl := interrupts_idle hs hinterferes
  refine ⟨hop, ?_⟩
  rintro answer _ ⟨hcoherent, rfl⟩
  exact hrest answer hcoherent

theorem holds_idle_done {α : Type} {post : α → ShutdownState → Prop} {value : α}
    {s : ShutdownState} (hs : s.pending = none) (h : post value s) :
    Holds interruptedContract post (.done value) s := by
  intro s' hinterferes
  obtain rfl := interrupts_idle hs hinterferes
  exact h

section

variable [Externals]

/-- A boundary with the flag still set: the mutation is finished, its guard is not
dropped yet. -/
def Delivered (s : ShutdownState) : Prop :=
  s.pending = none ∧ ({ s with inFlight := false } : ShutdownState).Boundary

omit [Externals] in
theorem evict_delivered {zoneId : String} {error : CloudflareError} {s : ShutdownState}
    (hs : Delivered s) :
    Holds interruptedContract (fun _ s' => Delivered s')
      (CloudflareClient.invalidateZoneAfterNotFound zoneId error) s := by
  unfold CloudflareClient.invalidateZoneAfterNotFound
  split
  · exact holds_idle_ask hs.1 trivial fun _ _ => holds_idle_done hs.1 hs
  · exact holds_idle_done hs.1 hs

/-- A mutation that is begun is finished, and it is the only one if the loop asks
to stop meanwhile. -/
theorem sendInZone_delivers (cloudflare : CloudflareClient) (zoneId : String)
    {request : Request} (hmutation : request.isMutation = true) :
    Holds interruptedContract (fun _ s => Delivered s)
      (cloudflare.sendInZone zoneId request) { inFlight := true } := by
  simp only [CloudflareClient.sendInZone, CloudflareClient.send, await_eq, Program.ask_bind,
    Program.done_bind, Program.pure_eq]
  apply holds_idle_ask rfl
  · exact fun _ => ⟨rfl, rfl⟩
  rintro _ -
  have hbegun : ShutdownState.next { inFlight := true }
      ⟨.act (.begin (.http request)), ()⟩ =
      { inFlight := true, pending := some request } := by
    simp [next, stopAfter, inFlightAfter, pendingAfter, begunMutation, finishedMutation,
      observesSignal, sent, replied, Option.filter, hmutation]
  rw [hbegun]
  intro s hinterferes
  have hpending : s.inFlight = true ∧ s.pending = some request := by
    rcases hinterferes with rfl | ⟨-, -, -, rfl⟩
    · exact ⟨rfl, rfl⟩
    · exact ⟨rfl, rfl⟩
  refine ⟨⟨fun _ => ?_, fun _ => hpending.1⟩, ?_⟩
  · rw [hpending.2]
    exact Option.some_ne_none request
  rintro outcome _ ⟨-, rfl⟩
  have hdelivered : Delivered (s.next ⟨.finish (.http request), outcome⟩) := by
    rcases hinterferes with rfl | ⟨-, -, -, rfl⟩
    · simp [Delivered, Boundary, next, stopAfter, inFlightAfter, pendingAfter,
        begunMutation, finishedMutation, observesSignal, sent, replied, Option.filter,
        hmutation]
    · simp [Delivered, Boundary, drained, next, stopAfter, inFlightAfter, pendingAfter,
        begunMutation, finishedMutation, observesSignal, sent, replied, Option.filter,
        hmutation]
  beta_reduce
  cases receive cloudflare.apiToken request outcome with
  | ok response => exact holds_idle_done hdelivered.1 hdelivered
  | error error =>
      apply holds_bind
      refine holds_mono (evict_delivered hdelivered) ?_
      intro _ s' hs'
      exact holds_idle_done hs'.1 hs'

omit [Externals] in
/-- Under its guard a mutation ends at a boundary. -/
theorem guarded_boundary {α : Type} {mutation : M α}
    (hmutation : Holds interruptedContract (fun _ s => Delivered s) mutation
      { inFlight := true }) :
    Holds interruptedContract (fun _ s => s.Boundary) (guarded mutation) {} := by
  simp only [guarded, act_eq, Program.ask_bind, Program.done_bind]
  apply holds_idle_ask rfl
  · trivial
  rintro _ -
  apply holds_bind
  refine holds_mono hmutation ?_
  intro result s hs
  apply holds_idle_ask hs.1
  · trivial
  rintro _ -
  have hcleared : s.next ⟨.act (.setMutationInFlight false), ()⟩ =
      { s with inFlight := false } := rfl
  exact holds_idle_done hs.1 hs.2

namespace Updater

variable (self : Updater)

theorem executeRecordPlan_boundary (plan : RecordPlan) :
    Holds interruptedContract (fun _ s => s.Boundary) (self.executeRecordPlan plan) {} := by
  cases plan with
  | unchanged => exact holds_idle_done rfl (.inl rfl)
  | update zoneId recordId payload =>
      apply holds_bind
      have hsend := sendInZone_delivers self.cloudflare zoneId
        (rfl : (Request.updateRecord zoneId recordId payload).isMutation = true)
      refine holds_mono (guarded_boundary (holds_bind (holds_mono hsend ?_))) ?_
      · intro result s hs
        cases result <;> exact holds_idle_done hs.1 hs
      · intro result s hs
        cases result <;> exact holds_idle_done hs.idle.2 hs
  | create zoneId payload =>
      apply holds_bind
      have hsend := sendInZone_delivers self.cloudflare zoneId
        (rfl : (Request.createRecord zoneId payload).isMutation = true)
      refine holds_mono (guarded_boundary (holds_bind (holds_mono hsend ?_))) ?_
      · intro result s hs
        cases result <;> exact holds_idle_done hs.1 hs
      · intro result s hs
        cases result <;> exact holds_idle_done hs.idle.2 hs

theorem planRecord_quiet (deadline : Instant) (record : RecordConfig) (address : IpAddr) :
    Uses QuietOp (timeoutAt deadline (self.planRecord record address)) :=
  uses_mono (uses_timeoutAt (fun _ => LookupOp.finishBefore)
    (self.planRecord_uses record address)) fun _ h => .inr (.inl h)

/-- A visit that finds stop requested is the last; otherwise no signal has been
observed and a mutation may be begun. -/
theorem visitRecord_boundary (deadline : Instant) (addresses : DiscoveredAddresses)
    (record : RecordConfig) (report : CycleReport) {s : ShutdownState} (hs : s.Boundary) :
    Holds interruptedContract (fun _ s => s.Boundary)
      (self.visitRecord deadline addresses record report) s := by
  simp only [visitRecord, act_eq, Program.ask_bind, Program.done_bind, Program.pure_eq]
  apply holds_idle_ask hs.idle.2
  · trivial
  intro stopRequested hcoherent
  have hnext : s.next ⟨.act .stopRequested, stopRequested⟩ = s := rfl
  rw [hnext]
  cases stopRequested with
  | true => exact holds_idle_done hs.idle.2 hs
  | false =>
      have hfresh : s = {} := by
        rcases hs with hfresh | ⟨request, rfl⟩
        · exact hfresh
        · cases hcoherent
      subst hfresh
      simp only [Bool.false_eq_true, if_false]
      cases addresses.forRecord record with
      | error message => exact holds_idle_done rfl (.inl rfl)
      | ok address =>
          apply holds_bind
          refine holds_mono (holds_quietly (self.planRecord_quiet deadline record address)
            ⟨rfl, rfl⟩) ?_
          rintro planned _ rfl
          cases planned with
          | none => exact holds_idle_done rfl (.inl rfl)
          | some result =>
              cases result with
              | error error => exact holds_idle_done rfl (.inl rfl)
              | ok plan =>
                  apply holds_idle_ask rfl
                  · trivial
                  intro now _
                  have hnow : ShutdownState.next {} ⟨.act .now, now⟩ = {} := rfl
                  rw [hnow]
                  split
                  · exact holds_idle_done rfl (.inl rfl)
                  · apply holds_bind
                    refine holds_mono (self.executeRecordPlan_boundary plan) ?_
                    intro outcome s hs
                    exact holds_idle_done hs.idle.2 hs

theorem visitRecords_boundary (deadline : Instant) (addresses : DiscoveredAddresses)
    (records : List RecordConfig) (report : CycleReport) {s : ShutdownState}
    (hs : s.Boundary) :
    Holds interruptedContract (fun _ s => s.Boundary)
      (self.visitRecords deadline addresses records report) s := by
  induction records generalizing report s with
  | nil => exact holds_idle_done hs.idle.2 hs
  | cons record rest ih =>
      apply holds_bind
      refine holds_mono (self.visitRecord_boundary deadline addresses record report hs) ?_
      intro flow s' hs'
      cases flow with
      | next report' => exact ih report' hs'
      | stop report' => exact holds_idle_done hs'.idle.2 hs'

theorem runCycleUntil_boundary (deadline : Instant) :
    Holds interruptedContract (fun _ s => s.Boundary) (self.runCycleUntil deadline) {} := by
  have hdiscovery : Uses QuietOp (timeoutAt deadline self.discoverRequiredAddresses) :=
    self.timeoutDiscovery_uses (fun _ h => .inl h) deadline
  apply holds_bind
  refine holds_mono (holds_quietly hdiscovery ⟨rfl, rfl⟩) ?_
  rintro discovered _ rfl
  cases discovered with
  | none => exact holds_idle_done rfl (.inl rfl)
  | some addresses =>
      simp only [Program.pure_eq, act_eq, Program.ask_bind, Program.done_bind]
      split
      · exact holds_idle_done rfl (.inl rfl)
      · apply holds_idle_ask rfl
        · trivial
        intro cursor _
        exact self.visitRecords_boundary deadline addresses _ _ (.inl rfl)

theorem runCycleLocked_boundary :
    Holds interruptedContract (fun _ s => s.Boundary) self.runCycleLocked {} := by
  apply holds_idle_ask rfl
  · trivial
  intro now _
  exact self.runCycleUntil_boundary _

end Updater

end

end Cirrusync
