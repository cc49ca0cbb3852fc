import Cirrusync.CheckRuns
import Cirrusync.DriverRefusal
import Cirrusync.Justified
import Cirrusync.Schedule
import Cirrusync.Shutdown

/-!
When mutations start. A mutation of a cycle or of a check is begun right after a
reading of the clock, with no wait between the two, and the reading has passed the
driver's own test; a driver that gives up for want of time says so in its report.
-/

namespace Cirrusync

open Effect Text

/-- The trace ends with a reading of the clock that has passed a test, followed by
the setting of the in-flight flag only. -/
def FollowsReading (inTime : Instant → Prop) (past : List Step) : Prop :=
  ∃ earlier now, inTime now ∧
    past = earlier ++ [⟨.act .now, now⟩, ⟨.act (.setMutationInFlight true), ()⟩]

/-- Every mutation of a trace is begun after a reading that has passed the test. -/
def Punctual (inTime : Instant → Prop) (trace : List Step) : Prop :=
  ∀ before step after, trace = before ++ step :: after → (begunMutation step).isSome = true →
    FollowsReading inTime before

theorem punctual_of_quiet {inTime : Instant → Prop} {trace : List Step}
    (h : ∀ step ∈ trace, begunMutation step = none) : Punctual inTime trace := by
  rintro before step after rfl hbegun
  rw [h step (List.mem_append_right _ List.mem_cons_self)] at hbegun
  cases hbegun

theorem FollowsReading.append {inTime : Instant → Prop} {past : List Step}
    (h : FollowsReading inTime past) (first : List Step) :
    FollowsReading inTime (first ++ past) := by
  obtain ⟨earlier, now, hnow, rfl⟩ := h
  exact ⟨first ++ earlier, now, hnow, by rw [List.append_assoc]⟩

theorem Punctual.append {inTime : Instant → Prop} {first second : List Step}
    (hfirst : Punctual inTime first) (hsecond : Punctual inTime second) :
    Punctual inTime (first ++ second) := by
  intro before step after hsplit hbegun
  rcases append_eq_cons_split hsplit with ⟨rest, rfl⟩ | ⟨middle, rfl, hlater⟩
  · exact hfirst before step rest rfl hbegun
  · exact (hsecond middle step after hlater hbegun).append first

theorem Punctual.left {inTime : Instant → Prop} {first second : List Step}
    (h : Punctual inTime (first ++ second)) : Punctual inTime first := by
  rintro before step after rfl hbegun
  exact h before step (after ++ second) (by simp) hbegun

theorem Punctual.cons {inTime : Instant → Prop} {step : Step} {rest : List Step}
    (hstep : begunMutation step = none) (hrest : Punctual inTime rest) :
    Punctual inTime (step :: rest) := by
  have hsingle : Punctual inTime [step] := by
    apply punctual_of_quiet
    intro other member
    rw [List.mem_singleton.mp member]
    exact hstep
  exact hsingle.append hrest

/-- A mutation right after a reading that has passed the test. -/
theorem punctual_mutation {α : Type} {inTime : Instant → Prop} {now : Instant}
    (hnow : inTime now) (zoneId : String) (request : Request) (outcome : HttpOutcome)
    (result : Except CloudflareError α) :
    Punctual inTime (⟨.act .now, now⟩ :: mutationSteps zoneId request outcome result) := by
  have hquiet : ∀ step ∈ (⟨.finish (.http request), outcome⟩ :: evictions zoneId result ++
      [⟨.act (.setMutationInFlight false), ()⟩] : List Step), begunMutation step = none := by
    intro step member
    rcases List.mem_append.mp member with member | member
    · rcases List.mem_cons.mp member with rfl | member
      · rfl
      · cases result with
        | ok value => cases member
        | error error =>
            simp only [evictions] at member
            split at member
            · rw [List.mem_singleton.mp member]
              rfl
            · cases member
    · rw [List.mem_singleton.mp member]
      rfl
  intro before step after hsplit hbegun
  rcases before with _ | ⟨first, _ | ⟨second, _ | ⟨third, before⟩⟩⟩
  · cases hsplit
    cases hbegun
  · cases hsplit
    cases hbegun
  · cases hsplit
    exact ⟨[], now, hnow, rfl⟩
  · simp only [mutationSteps, exchange, List.cons_append, List.nil_append,
      List.cons.injEq] at hsplit
    obtain ⟨-, -, -, hrest⟩ := hsplit
    have hmember : step ∈ (⟨.finish (.http request), outcome⟩ ::
        (evictions zoneId result ++ [⟨.act (.setMutationInFlight false), ()⟩]) :
        List Step) := by
      rw [hrest]
      exact List.mem_append_right _ List.mem_cons_self
    rw [hquiet step hmember] at hbegun
    cases hbegun

theorem begunMutation_lookup {step : Step} (h : LookupOp step.op) :
    begunMutation step = none := by
  unfold begunMutation sent
  split
  · have hread : Request.isMutation _ = false := h
    simp [Option.filter, hread]
  · rfl

theorem begunMutation_discovery {step : Step} (h : DiscoveryOp step.op) :
    begunMutation step = none := by
  unfold begunMutation
  rw [sent_of_discovery h]
  rfl

/-- A wait that its deadline has ended. -/
def cutShort : Step → Bool
  | ⟨.finishBefore _ _, answer⟩ => answer.isNone
  | _ => false

/-- A program that ends before its deadline has not been cut short. -/
theorem uncut_of_some {α : Type} {deadline : Instant} {p : M α} (huses : Uses UnboundedOp p)
    {trace : List Step} {value : α} (hrun : Runs (timeoutAt deadline p) trace (some value)) :
    ∀ step ∈ trace, cutShort step = false := by
  obtain ⟨trace', hrun', hmeets⟩ := runs_timeoutAt_some hrun
  have hunbounded := uses_runs huses hrun'
  clear hrun hrun'
  induction hmeets with
  | nil => exact fun step member => absurd member List.not_mem_nil
  | @cons step step' rest rest' hmeet _ ih =>
      intro other member
      rcases List.mem_cons.mp member with rfl | member
      · rcases hmeet with rfl | ⟨wait, answer, rfl, -⟩
        · have hop := hunbounded other List.mem_cons_self
          unfold cutShort
          split
          · exact hop.elim
          · rfl
        · rfl
      · exact ih (fun step hstep => hunbounded step (List.mem_cons_of_mem _ hstep)) other member

/-- A deadline has ended a wait, or the clock has shown a time that is too late. -/
def RanOut (late : Instant → Prop) (trace : List Step) : Prop :=
  (∃ step ∈ trace, cutShort step = true) ∨ ∃ now, ⟨.act .now, now⟩ ∈ trace ∧ late now

/-- A step at which time cannot run out. -/
def Timeless (step : Step) : Prop := cutShort step = false ∧ step.op ≠ .act .now

theorem RanOut.cons {late : Instant → Prop} {step : Step} {rest : List Step}
    (h : RanOut late (step :: rest)) : RanOut late [step] ∨ RanOut late rest := by
  rcases h with ⟨other, member, hcut⟩ | ⟨now, member, hlate⟩
  · rcases List.mem_cons.mp member with rfl | member
    · exact .inl (.inl ⟨other, List.mem_cons_self, hcut⟩)
    · exact .inr (.inl ⟨other, member, hcut⟩)
  · rcases List.mem_cons.mp member with heq | member
    · exact .inl (.inr ⟨now, List.mem_singleton.mpr heq, hlate⟩)
    · exact .inr (.inr ⟨now, member, hlate⟩)

theorem RanOut.append {late : Instant → Prop} {first second : List Step}
    (h : RanOut late (first ++ second)) : RanOut late first ∨ RanOut late second := by
  rcases h with ⟨step, member, hcut⟩ | ⟨now, member, hlate⟩
  · rcases List.mem_append.mp member with member | member
    · exact .inl (.inl ⟨step, member, hcut⟩)
    · exact .inr (.inl ⟨step, member, hcut⟩)
  · rcases List.mem_append.mp member with member | member
    · exact .inl (.inr ⟨now, member, hlate⟩)
    · exact .inr (.inr ⟨now, member, hlate⟩)

theorem RanOut.timeless {late : Instant → Prop} {trace : List Step}
    (h : RanOut late trace) : ¬ ∀ step ∈ trace, Timeless step := by
  intro htimeless
  rcases h with ⟨step, member, hcut⟩ | ⟨now, member, -⟩
  · rw [(htimeless step member).1] at hcut
    cases hcut
  · exact (htimeless _ member).2 rfl

theorem not_ranOut_nil {late : Instant → Prop} : ¬ RanOut late [] := by
  intro h
  exact h.timeless fun step member => absurd member List.not_mem_nil

/-- A reading that is in time. -/
theorem RanOut.reading {late : Instant → Prop} {now : Instant} (hnow : ¬ late now)
    (h : RanOut late [⟨.act .now, now⟩]) : False := by
  rcases h with ⟨step, member, hcut⟩ | ⟨other, member, hlate⟩
  · rw [List.mem_singleton.mp member] at hcut
    cases hcut
  · have heq := List.mem_singleton.mp member
    cases heq
    exact hnow hlate

theorem lookup_timeless {α : Type} {deadline : Instant} {p : M α} (huses : Uses ReadOp p)
    {trace : List Step} {value : α} (hrun : Runs (timeoutAt deadline p) trace (some value)) :
    ∀ step ∈ trace, Timeless step := by
  have huncut := uncut_of_some (uses_mono huses fun _ => And.right) hrun
  have hlookup := uses_runs (uses_timeoutAt (fun _ => LookupOp.finishBefore)
    (uses_mono huses fun _ => And.left)) hrun
  intro step member
  refine ⟨huncut step member, fun hnow => ?_⟩
  have hop := hlookup step member
  rw [hnow] at hop
  exact hop

/-- No step of a mutation reads the clock or runs out of time: once begun, it is waited for
without a deadline. -/
theorem mutationSteps_timeless {α : Type} (zoneId : String) (request : Request)
    (outcome : HttpOutcome) (result : Except CloudflareError α) :
    ∀ step ∈ mutationSteps zoneId request outcome result, Timeless step := by
  intro step member
  simp only [mutationSteps, exchange, List.cons_append, List.nil_append, List.mem_cons,
    List.mem_append, List.not_mem_nil, or_false] at member
  have hsimple : ∀ {op : Op} {answer : Ans op}, UnboundedOp op → op ≠ .act .now →
      Timeless ⟨op, answer⟩ := by
    intro op answer hop hnow
    refine ⟨?_, hnow⟩
    unfold cutShort
    split
    · rename_i heq
      cases heq
      exact hop.elim
    · rfl
  have hother : ∀ {action : Action}, action ≠ .now → (Op.act action) ≠ .act .now := by
    intro action hne heq
    cases heq
    exact hne rfl
  rcases member with rfl | rfl | rfl | member | rfl
  · exact hsimple trivial (hother (by simp))
  · exact hsimple trivial (hother (by simp))
  · exact hsimple trivial (by simp)
  · cases result with
    | ok value => cases member
    | error error =>
        simp only [evictions] at member
        split at member
        · rw [List.mem_singleton.mp member]
          exact hsimple trivial (hother (by simp))
        · cases member
  · exact hsimple trivial (hother (by simp))

/-- Where a driver's deadline may end its work: at a wait, or at a reading of the
clock after the step that starts its loop over the records. -/
def RanOutAfter (start : Op) (late : Instant → Prop) (trace : List Step) : Prop :=
  (∃ step ∈ trace, cutShort step = true) ∨
    ∃ before answer after now, trace = before ++ ⟨start, answer⟩ :: after ∧
      ⟨.act .now, now⟩ ∈ after ∧ late now

/-- Before the loop only waits count. -/
theorem RanOutAfter.split {start : Op} {late : Instant → Prop} {first second : List Step}
    {answer : Ans start} (h : RanOutAfter start late (first ++ ⟨start, answer⟩ :: second))
    (hstart : start ≠ .act .now) (hunbounded : UnboundedOp start)
    (huncut : ∀ step ∈ first, cutShort step = false)
    (hfirst : ∀ step ∈ first, step.op ≠ start) : RanOut late second := by
  rcases h with ⟨step, member, hcut⟩ | ⟨before, other, after, now, hsplit, member, hlate⟩
  · rcases List.mem_append.mp member with member | member
    · rw [huncut step member] at hcut
      cases hcut
    · rcases List.mem_cons.mp member with rfl | member
      · cases start with
        | finishBefore deadline wait => exact hunbounded.elim
        | act action => cases hcut
        | finish wait => cases hcut
      · exact .inl ⟨step, member, hcut⟩
  · have hnot : (⟨start, other⟩ : Step) ∉ first := fun member => hfirst _ member rfl
    obtain ⟨middle, -, hrest⟩ := append_eq_later hsplit hnot
    refine .inr ⟨now, ?_, hlate⟩
    cases middle with
    | nil =>
        obtain ⟨-, rfl⟩ := List.cons_eq_cons.mp hrest
        exact member
    | cons entry middle =>
        obtain ⟨-, rfl⟩ := List.cons_eq_cons.mp hrest
        exact List.mem_append_right _ (List.mem_cons_of_mem _ member)

/-- The failures say that a deadline has expired. -/
def ReportsDeadline (failures : List CycleFailure) : Prop :=
  ∃ failure ∈ failures, failure.stage = .cycleDeadline

theorem reportsDeadline_append {failures : List CycleFailure} (h : ReportsDeadline failures)
    (more : List CycleFailure) : ReportsDeadline (failures ++ more) := by
  obtain ⟨failure, member, hstage⟩ := h
  exact ⟨failure, List.mem_append_left _ member, hstage⟩

theorem reportsDeadline_push {failures : List CycleFailure} {failure : CycleFailure}
    (h : failure.stage = .cycleDeadline) : ReportsDeadline (failures ++ [failure]) :=
  ⟨failure, List.mem_append_right _ List.mem_cons_self, h⟩

section

variable [Externals]

namespace Updater

variable (self : Updater)

theorem Executes.punctual {plan : RecordPlan} {mutation : List Step}
    {outcome : Except (FailureStage × CloudflareError) RecordOutcome}
    (h : self.Executes plan mutation outcome) {inTime : Instant → Prop} {now : Instant}
    (hnow : inTime now) : Punctual inTime (⟨.act .now, now⟩ :: mutation) := by
  cases h with
  | unchanged =>
      apply punctual_of_quiet
      intro step member
      rw [List.mem_singleton.mp member]
      rfl
  | update => exact punctual_mutation hnow _ _ _ _
  | create => exact punctual_mutation hnow _ _ _ _

theorem Executes.timeless {plan : RecordPlan} {mutation : List Step}
    {outcome : Except (FailureStage × CloudflareError) RecordOutcome}
    (h : self.Executes plan mutation outcome) : ∀ step ∈ mutation, Timeless step := by
  cases h with
  | unchanged => exact fun step member => absurd member List.not_mem_nil
  | update => exact mutationSteps_timeless _ _ _ _
  | create => exact mutationSteps_timeless _ _ _ _

theorem planning_quiet {deadline : Instant} {record : RecordConfig} {address : IpAddr}
    {planning : List Step}
    {planned : Option (Except (FailureStage × CloudflareError) RecordPlan)}
    (hrun : Runs (timeoutAt deadline (self.planRecord record address)) planning planned) :
    ∀ step ∈ planning, begunMutation step = none := by
  have huses := uses_runs (uses_timeoutAt (fun _ => LookupOp.finishBefore)
    (self.planRecord_uses record address)) hrun
  exact fun step member => begunMutation_lookup (huses step member)

theorem Visits.punctual {deadline : Instant} {addresses : DiscoveredAddresses}
    {record : RecordConfig} {report : CycleReport} {visit : List Step}
    {flow : Flow CycleReport}
    (h : self.Visits deadline addresses record report visit flow) :
    Punctual (· < deadline) visit := by
  have hsingle : ∀ step : Step, begunMutation step = none → Punctual (· < deadline) [step] := by
    intro step hstep
    apply punctual_of_quiet
    intro other member
    rw [List.mem_singleton.mp member]
    exact hstep
  cases h with
  | stopped => exact hsingle _ rfl
  | noAddress => exact hsingle _ rfl
  | planExpired _ hplan => exact .cons rfl (punctual_of_quiet (self.planning_quiet hplan))
  | planFailed _ hplan => exact .cons rfl (punctual_of_quiet (self.planning_quiet hplan))
  | planLate _ hplan _ =>
      exact .cons rfl ((punctual_of_quiet (self.planning_quiet hplan)).append (hsingle _ rfl))
  | executed _ hplan hnow hexecutes =>
      exact .cons rfl ((punctual_of_quiet (self.planning_quiet hplan)).append
        (Executes.punctual self hexecutes hnow))

/-- A visit in which time runs out is the last one and reports it. -/
theorem Visits.ranOut {deadline : Instant} {addresses : DiscoveredAddresses}
    {record : RecordConfig} {report : CycleReport} {visit : List Step}
    {flow : Flow CycleReport}
    (h : self.Visits deadline addresses record report visit flow)
    (hout : RanOut (deadline ≤ ·) visit) :
    ∃ final, flow = .stop final ∧ ReportsDeadline final.failures := by
  have hstop : ∀ stop : Bool, Timeless ⟨.act .stopRequested, stop⟩ := by
    intro stop
    refine ⟨rfl, fun heq => ?_⟩
    cases heq
  have hfirst : ∀ {stop : Bool} {rest : List Step},
      RanOut (deadline ≤ ·) (⟨.act .stopRequested, stop⟩ :: rest) →
      RanOut (deadline ≤ ·) rest := by
    intro stop rest hrest
    rcases hrest.cons with hhead | htail
    · refine absurd ?_ hhead.timeless
      intro step member
      rw [List.mem_singleton.mp member]
      exact hstop stop
    · exact htail
  have hexpired : ∃ final, Flow.stop (report.push cycleDeadlineFailure) = Flow.stop final ∧
      ReportsDeadline final.failures :=
    ⟨_, rfl, reportsDeadline_push rfl⟩
  cases h with
  | stopped => exact absurd (hfirst hout) not_ranOut_nil
  | noAddress => exact absurd (hfirst hout) not_ranOut_nil
  | planExpired => exact hexpired
  | planLate => exact hexpired
  | planFailed _ hplan =>
      exact absurd (lookup_timeless (self.planRecord_reads _ _) hplan) (hfirst hout).timeless
  | @executed _ _ mutation _ now _ _ hplan hnow hexecutes =>
      exfalso
      rcases (hfirst hout).append with hplanning | hrest
      · exact hplanning.timeless (lookup_timeless (self.planRecord_reads _ _) hplan)
      · rcases hrest.cons with hreading | hmutation
        · exact hreading.reading (Nat.not_le_of_lt hnow)
        · exact hmutation.timeless (Executes.timeless self hexecutes)

theorem VisitsAll.punctual {deadline : Instant} {addresses : DiscoveredAddresses}
    {records : List RecordConfig} {report final : CycleReport} {visits : List Step}
    (h : self.VisitsAll deadline addresses records report visits final) :
    Punctual (· < deadline) visits := by
  induction h with
  | done report => exact punctual_of_quiet fun step member => absurd member List.not_mem_nil
  | next hvisit _ ih => exact (Visits.punctual self hvisit).append ih
  | stop hvisit => exact Visits.punctual self hvisit

theorem VisitsAll.ranOut {deadline : Instant} {addresses : DiscoveredAddresses}
    {records : List RecordConfig} {report final : CycleReport} {visits : List Step}
    (h : self.VisitsAll deadline addresses records report visits final)
    (hout : RanOut (deadline ≤ ·) visits) : ReportsDeadline final.failures := by
  induction h with
  | done report => exact absurd hout not_ranOut_nil
  | next hvisit _ ih =>
      rcases hout.append with hvisited | hlater
      · obtain ⟨stopped, heq, -⟩ := Visits.ranOut self hvisit hvisited
        cases heq
      · exact ih hlater
  | stop hvisit =>
      obtain ⟨stopped, heq, hreports⟩ := Visits.ranOut self hvisit hout
      cases heq
      exact hreports

theorem discovery_uncut {deadline : Instant} {discovery : List Step}
    {addresses : DiscoveredAddresses}
    (hrun : Runs (timeoutAt deadline self.discoverRequiredAddresses) discovery
      (some addresses)) : ∀ step ∈ discovery, cutShort step = false :=
  uncut_of_some (uses_mono self.discoverRequiredAddresses_queries fun _ => And.right) hrun

theorem Cycles.punctual {deadline : Instant} {trace : List Step} {report : CycleReport}
    (h : self.Cycles deadline trace report) : Punctual (· < deadline) trace := by
  have hdiscovery : ∀ {discovery : List Step} {discovered : Option DiscoveredAddresses},
      Runs (timeoutAt deadline self.discoverRequiredAddresses) discovery discovered →
      Punctual (· < deadline) discovery := fun hrun =>
    punctual_of_quiet fun step member =>
      begunMutation_discovery (self.discovery_quiet hrun step member)
  cases h with
  | undiscovered hrun => exact hdiscovery hrun
  | unmanaged hrun _ => exact hdiscovery hrun
  | visited hrun _ hvisits =>
      exact (hdiscovery hrun).append (.cons rfl (VisitsAll.punctual self hvisits))

theorem Cycles.ranOut {deadline : Instant} {trace : List Step} {report : CycleReport}
    (h : self.Cycles deadline trace report)
    (hout : RanOutAfter (.act .fetchAddCursor) (deadline ≤ ·) trace) :
    ReportsDeadline report.failures := by
  have hnot : ∀ {discovery : List Step} {discovered : Option DiscoveredAddresses},
      Runs (timeoutAt deadline self.discoverRequiredAddresses) discovery discovered →
      ∀ step ∈ discovery, step.op ≠ .act .fetchAddCursor := by
    intro discovery discovered hrun step member heq
    have hop := self.discovery_quiet hrun step member
    rw [heq] at hop
    exact hop
  cases h with
  | undiscovered hrun => exact reportsDeadline_push rfl
  | unmanaged hrun _ =>
      exfalso
      rcases hout with ⟨step, member, hcut⟩ | ⟨before, answer, after, now, rfl, -, -⟩
      · rw [self.discovery_uncut hrun step member] at hcut
        cases hcut
      · exact hnot hrun _ (List.mem_append_right _ List.mem_cons_self) rfl
  | visited hrun _ hvisits =>
      exact VisitsAll.ranOut self hvisits (hout.split (by simp) trivial
        (self.discovery_uncut hrun) (hnot hrun))

/-- What an inspection leaves begins no mutation, and where time runs out in it the
result says so. -/
theorem Inspects.quiet {record : RecordConfig} {deadline : Instant}
    {proofs proofs' : ZoneProofs} {inspection : List Step}
    {inspected : Except CheckLookupError (String × Option DnsRecord)}
    (h : self.Inspects record deadline proofs inspection inspected proofs') :
    (∀ step ∈ inspection, begunMutation step = none) ∧
      ∀ late : Instant → Prop, RanOut late inspection → inspected = .error .deadline := by
  have hquiet : ∀ {α : Type} {p : M α} {trace : List Step} {result : Option α},
      Uses ReadOp p → Runs (timeoutAt deadline p) trace result →
      ∀ step ∈ trace, begunMutation step = none := by
    intro α p trace result huses hrun step member
    have hlookup := uses_runs (uses_timeoutAt (fun _ => LookupOp.finishBefore)
      (uses_mono huses fun _ => And.left)) hrun
    exact begunMutation_lookup (hlookup step member)
  have hzone := self.cloudflare.resolveZoneId_reads record.zone record.zoneId
  have hfind := fun zoneId =>
    self.cloudflare.findRecord_reads zoneId record.recordType.asStr record.name
  have hboth : ∀ {zoneTrace lookup : List Step}, (∀ step ∈ zoneTrace, Timeless step) →
      (∀ step ∈ lookup, Timeless step) → ∀ late : Instant → Prop,
      ¬ RanOut late (zoneTrace ++ lookup) := by
    intro zoneTrace lookup hfirst hsecond late hout
    rcases hout.append with hout | hout
    · exact hout.timeless hfirst
    · exact hout.timeless hsecond
  have happend : ∀ {zoneTrace lookup : List Step},
      (∀ step ∈ zoneTrace, begunMutation step = none) →
      (∀ step ∈ lookup, begunMutation step = none) →
      ∀ step ∈ zoneTrace ++ lookup, begunMutation step = none := by
    intro zoneTrace lookup hfirst hsecond step member
    rcases List.mem_append.mp member with member | member
    · exact hfirst step member
    · exact hsecond step member
  cases h with
  | zoneExpired hrun => exact ⟨hquiet hzone hrun, fun _ _ => rfl⟩
  | zoneFailed hrun =>
      exact ⟨hquiet hzone hrun, fun late hout =>
        absurd (lookup_timeless hzone hrun) hout.timeless⟩
  | lookupExpired hrun hrun' =>
      exact ⟨happend (hquiet hzone hrun) (hquiet (hfind _) hrun'), fun _ _ => rfl⟩
  | lookupFailed hrun hrun' =>
      exact ⟨happend (hquiet hzone hrun) (hquiet (hfind _) hrun'), fun late hout =>
        absurd hout (hboth (lookup_timeless hzone hrun) (lookup_timeless (hfind _) hrun') late)⟩
  | inspected hrun hrun' =>
      exact ⟨happend (hquiet hzone hrun) (hquiet (hfind _) hrun'), fun late hout =>
        absurd hout (hboth (lookup_timeless hzone hrun) (lookup_timeless (hfind _) hrun') late)⟩

/-- A reading that leaves no mutation its budget. -/
def TooLate (deadline now : Instant) : Prop := ¬ self.HasBudget deadline now

/-- The flow is left with a report of the deadline. -/
def StopsForTime (flow : Flow CheckState) : Prop :=
  ∃ final, flow = .stop final ∧ ReportsDeadline final.report.failures

omit [Externals] in
theorem stopsForTime (state : CheckState) :
    StopsForTime (.stop (state.push checkDeadlineFailure)) :=
  ⟨_, rfl, reportsDeadline_push rfl⟩

omit [Externals] in
/-- A reading with its budget and what follows it. -/
theorem ranOut_reading {deadline now : Instant} {rest : List Step}
    (hbudget : self.HasBudget deadline now)
    (hout : RanOut (self.TooLate deadline) (⟨.act .now, now⟩ :: rest)) :
    RanOut (self.TooLate deadline) rest := by
  rcases hout.cons with hreading | hrest
  · exact absurd hreading (RanOut.reading (fun hlate => hlate hbudget))
  · exact hrest

theorem HandlesExisting.timing {record : RecordConfig} {zoneId : String}
    {existing : DnsRecord} {options : CheckOptions} {state : CheckState}
    {handling : List Step} {flow : Flow CheckState}
    (h : self.HandlesExisting record zoneId existing options state handling flow) :
    Punctual (self.HasBudget options.deadline) handling ∧
      (RanOut (self.TooLate options.deadline) handling → StopsForTime flow) := by
  cases h with
  | counted =>
      exact ⟨punctual_of_quiet fun step member => absurd member List.not_mem_nil,
        fun hout => absurd hout not_ranOut_nil⟩
  | late =>
      refine ⟨punctual_of_quiet fun step member => ?_, fun _ => stopsForTime _⟩
      rw [List.mem_singleton.mp member]
      rfl
  | probed _ _ hbudget =>
      refine ⟨punctual_mutation hbudget _ _ _ _, fun hout => ?_⟩
      have hmutation := self.ranOut_reading hbudget hout
      exact absurd (mutationSteps_timeless _ _ _ _) hmutation.timeless

/-- A check begins a mutation for a missing record, be it the creation or the probe of a record
that has appeared, only while it has its budget left before the deadline. Where it finds that it
has not, it stops for lack of time. -/
theorem HandlesMissing.timing {record : RecordConfig} {zoneId : String}
    {addresses : DiscoveredAddresses} {options : CheckOptions} {state : CheckState}
    {handling : List Step} {flow : Flow CheckState}
    (h : self.HandlesMissing record zoneId addresses options state handling flow) :
    Punctual (self.HasBudget options.deadline) handling ∧
      (RanOut (self.TooLate options.deadline) handling → StopsForTime flow) := by
  have hnothing : Punctual (self.HasBudget options.deadline) [] ∧
      (RanOut (self.TooLate options.deadline) [] → StopsForTime flow) :=
    ⟨punctual_of_quiet fun step member => absurd member List.not_mem_nil,
      fun hout => absurd hout not_ranOut_nil⟩
  have hreading : ∀ now, Punctual (self.HasBudget options.deadline) [⟨.act .now, now⟩] := by
    intro now
    apply punctual_of_quiet
    intro step member
    rw [List.mem_singleton.mp member]
    rfl
  have hfind := self.cloudflare.findRecord_reads zoneId record.recordType.asStr record.name
  have hrecheck : ∀ {recheck : List Step}
      {result : Option (Except CloudflareError (Option DnsRecord))},
      Runs (timeoutAt options.deadline (self.cloudflare.findRecord zoneId
        record.recordType.asStr record.name)) recheck result →
      Punctual (self.HasBudget options.deadline) recheck := by
    intro recheck result hrun
    have hlookup := uses_runs (uses_timeoutAt (fun _ => LookupOp.finishBefore)
      (uses_mono hfind fun _ => And.left)) hrun
    exact punctual_of_quiet fun step member => begunMutation_lookup (hlookup step member)
  cases h with
  | disabled => exact hnothing
  | creatable => exact hnothing
  | noAddress => exact hnothing
  | late => exact ⟨hreading _, fun _ => stopsForTime _⟩
  | recheckExpired _ _ _ _ hrun =>
      exact ⟨.cons rfl (hrecheck hrun), fun _ => stopsForTime _⟩
  | recheckFailed _ _ _ hbudget hrun =>
      refine ⟨.cons rfl (hrecheck hrun), fun hout => ?_⟩
      exact absurd (lookup_timeless hfind hrun) (self.ranOut_reading hbudget hout).timeless
  | appeared _ _ _ hbudget hrun hhandles =>
      obtain ⟨hpunctual, htime⟩ := HandlesExisting.timing self hhandles
      refine ⟨.cons rfl ((hrecheck hrun).append hpunctual), fun hout => ?_⟩
      rcases (self.ranOut_reading hbudget hout).append with hout | hout
      · exact absurd (lookup_timeless hfind hrun) hout.timeless
      · exact htime hout
  | lateAgain _ _ _ _ hrun =>
      exact ⟨.cons rfl ((hrecheck hrun).append (hreading _)), fun _ => stopsForTime _⟩
  | created _ _ _ hbudget hrun hbudget' =>
      refine ⟨.cons rfl ((hrecheck hrun).append (punctual_mutation hbudget' _ _ _ _)),
        fun hout => ?_⟩
      rcases (self.ranOut_reading hbudget hout).append with hout | hout
      · exact absurd (lookup_timeless hfind hrun) hout.timeless
      · have hmutation := self.ranOut_reading hbudget' hout
        exact absurd (mutationSteps_timeless _ _ _ _) hmutation.timeless

theorem ChecksRecord.timing {addresses : DiscoveredAddresses} {options : CheckOptions}
    {record : RecordConfig} {state : CheckState} {checking : List Step}
    {flow : Flow CheckState}
    (h : self.ChecksRecord addresses options record state checking flow) :
    Punctual (self.HasBudget options.deadline) checking ∧
      (RanOut (self.TooLate options.deadline) checking → StopsForTime flow) := by
  cases h with
  | expired hinspects =>
      exact ⟨punctual_of_quiet (Inspects.quiet self hinspects).1, fun _ => stopsForTime _⟩
  | failed hinspects =>
      obtain ⟨hquiet, htime⟩ := Inspects.quiet self hinspects
      refine ⟨punctual_of_quiet hquiet, fun hout => ?_⟩
      cases htime _ hout
  | existing hinspects hhandles =>
      obtain ⟨hquiet, htime⟩ := Inspects.quiet self hinspects
      obtain ⟨hpunctual, hstops⟩ := HandlesExisting.timing self hhandles
      refine ⟨(punctual_of_quiet hquiet).append hpunctual, fun hout => ?_⟩
      rcases hout.append with hout | hout
      · cases htime _ hout
      · exact hstops hout
  | missing hinspects hhandles =>
      obtain ⟨hquiet, htime⟩ := Inspects.quiet self hinspects
      obtain ⟨hpunctual, hstops⟩ := HandlesMissing.timing self hhandles
      refine ⟨(punctual_of_quiet hquiet).append hpunctual, fun hout => ?_⟩
      rcases hout.append with hout | hout
      · cases htime _ hout
      · exact hstops hout

theorem ChecksAll.timing {addresses : DiscoveredAddresses} {options : CheckOptions}
    {records : List RecordConfig} {state final : CheckState} {checking : List Step}
    (h : self.ChecksAll addresses options records state checking final) :
    Punctual (self.HasBudget options.deadline) checking ∧
      (RanOut (self.TooLate options.deadline) checking →
        ReportsDeadline final.report.failures) := by
  induction h with
  | done state =>
      exact ⟨punctual_of_quiet fun step member => absurd member List.not_mem_nil,
        fun hout => absurd hout not_ranOut_nil⟩
  | next hcheck _ ih =>
      obtain ⟨hpunctual, hstops⟩ := ChecksRecord.timing self hcheck
      refine ⟨hpunctual.append ih.1, fun hout => ?_⟩
      rcases hout.append with hout | hout
      · obtain ⟨stopped, heq, -⟩ := hstops hout
        cases heq
      · exact ih.2 hout
  | stop hcheck =>
      obtain ⟨hpunctual, hstops⟩ := ChecksRecord.timing self hcheck
      refine ⟨hpunctual, fun hout => ?_⟩
      obtain ⟨stopped, heq, hreports⟩ := hstops hout
      cases heq
      exact hreports

theorem ChecksAddresses.punctual {allowCreate allowEditProbe : Bool} {deadline : Instant}
    {report final : CheckReport} {trace : List Step}
    (h : self.ChecksAddresses allowCreate allowEditProbe deadline report trace final) :
    Punctual (self.HasBudget deadline) trace := by
  have hdiscovery : ∀ {discovery : List Step} {discovered : Option DiscoveredAddresses},
      Runs (timeoutAt deadline self.discoverRequiredAddresses) discovery discovered →
      Punctual (self.HasBudget deadline) discovery := fun hrun =>
    punctual_of_quiet fun step member =>
      begunMutation_discovery (self.discovery_quiet hrun step member)
  cases h with
  | undiscovered hrun => exact hdiscovery hrun
  | checked hrun hchecks =>
      have hall := self.checkRecords_checksAll hchecks
      exact (hdiscovery hrun).append (.cons rfl (ChecksAll.timing self hall).1)

/-- Time may run out in what precedes too, where nothing is cut short. -/
theorem ChecksAddresses.ranOut {allowCreate allowEditProbe : Bool} {deadline : Instant}
    {report final : CheckReport} {verification trace : List Step}
    (h : self.ChecksAddresses allowCreate allowEditProbe deadline report trace final)
    (huncut : ∀ step ∈ verification, cutShort step = false)
    (hlookup : ∀ step ∈ verification, LookupOp step.op)
    (hout : RanOutAfter (.act .newControl) (self.TooLate deadline) (verification ++ trace)) :
    ReportsDeadline final.failures := by
  cases h with
  | undiscovered => exact reportsDeadline_push rfl
  | @checked discovery checking _ state hrun hchecks =>
      have hbefore : ∀ step ∈ verification ++ discovery, cutShort step = false ∧
          step.op ≠ .act .newControl := by
        intro step member
        rcases List.mem_append.mp member with member | member
        · refine ⟨huncut step member, fun heq => ?_⟩
          have hop := hlookup step member
          rw [heq] at hop
          exact hop
        · refine ⟨self.discovery_uncut hrun step member, fun heq => ?_⟩
          have hop := self.discovery_quiet hrun step member
          rw [heq] at hop
          exact hop
      rw [← List.append_assoc] at hout
      have hchecking := hout.split (by simp) trivial (fun step member => (hbefore step member).1)
        (fun step member => (hbefore step member).2)
      have hall := self.checkRecords_checksAll hchecks
      have hreports := (ChecksAll.timing self hall).2 hchecking
      obtain ⟨more, hmore⟩ := finalize_keeps_failures state.report state.proofs allowEditProbe
      rw [hmore]
      exact reportsDeadline_append hreports more

theorem Checks.punctual {allowCreate allowEditProbe : Bool} {deadline : Instant}
    {trace : List Step} {report : CheckReport}
    (h : self.Checks allowCreate allowEditProbe deadline trace report) :
    Punctual (self.HasBudget deadline) trace := by
  have hverification : ∀ {verification : List Step}
      {verified : Option (Except CloudflareError Unit)},
      Runs (timeoutAt deadline self.cloudflare.verifyToken) verification verified →
      Punctual (self.HasBudget deadline) verification := fun hrun =>
    punctual_of_quiet fun step member =>
      begunMutation_lookup (self.verification_quiet hrun step member)
  cases h with
  | expired hrun => exact hverification hrun
  | refused hrun _ => exact hverification hrun
  | verified hrun hchecks =>
      exact (hverification hrun).append (ChecksAddresses.punctual self hchecks)
  | unverified hrun _ hchecks =>
      exact (hverification hrun).append (ChecksAddresses.punctual self hchecks)

theorem Checks.ranOut {allowCreate allowEditProbe : Bool} {deadline : Instant}
    {trace : List Step} {report : CheckReport}
    (h : self.Checks allowCreate allowEditProbe deadline trace report)
    (hout : RanOutAfter (.act .newControl) (self.TooLate deadline) trace) :
    ReportsDeadline report.failures := by
  have huncut : ∀ {verification : List Step} {result : Except CloudflareError Unit},
      Runs (timeoutAt deadline self.cloudflare.verifyToken) verification (some result) →
      ∀ step ∈ verification, cutShort step = false := fun hrun =>
    uncut_of_some (uses_mono self.cloudflare.verifyToken_reads fun _ => And.right) hrun
  cases h with
  | expired => exact reportsDeadline_push rfl
  | refused hrun _ =>
      exfalso
      rcases hout with ⟨step, member, hcut⟩ | ⟨before, answer, after, now, rfl, -, -⟩
      · rw [huncut hrun step member] at hcut
        cases hcut
      · exact self.verification_quiet hrun _ (List.mem_append_right _ List.mem_cons_self)
  | verified hrun hchecks =>
      exact ChecksAddresses.ranOut self hchecks (huncut hrun) (self.verification_quiet hrun) hout
  | unverified hrun _ hchecks =>
      exact ChecksAddresses.ranOut self hchecks (huncut hrun) (self.verification_quiet hrun) hout

end Updater

omit [Externals] in
theorem answerable (op : Op) : Nonempty (Ans op) := by
  cases op with
  | act action =>
      cases action with
      | pollShutdown => exact ⟨none⟩
      | cacheGet key => exact ⟨none⟩
      | prepareLockParent root temporary => exact ⟨.ok ""⟩
      | openRuntimeLock path => exact ⟨.ok ()⟩
      | tryLock path => exact ⟨.ok ()⟩
      | now => exact ⟨(0 : Nat)⟩
      | jitterPercent => exact ⟨(0 : Nat)⟩
      | fetchAddCursor => exact ⟨(0 : Nat)⟩
      | schedule => exact ⟨false⟩
      | stopRequested => exact ⟨false⟩
      | mutationInFlight => exact ⟨false⟩
      | _ => exact ⟨()⟩
  | finish wait =>
      cases wait with
      | http request => exact ⟨.failed ""⟩
      | query provider timeout => exact ⟨none⟩
      | sleep duration => exact ⟨()⟩
  | finishBefore deadline wait => exact ⟨none⟩

/-- No mutation starts too late, whatever the clock shows and however long the
requests take. In a cycle each is begun right after a reading before the deadline,
in a check right after one that leaves it the budget of a request; and a driver
whose time runs out reports the deadline. -/
theorem mutations_start_in_time (self : Updater) (deadline : Instant) :
    (∀ trace rest, Reaches (self.runCycleUntil deadline) trace rest →
      Punctual (· < deadline) trace) ∧
    (∀ trace report, Runs (self.runCycleUntil deadline) trace report →
      RanOutAfter (.act .fetchAddCursor) (deadline ≤ ·) trace →
      ReportsDeadline report.failures) ∧
    (∀ allowCreate allowEditProbe trace rest,
      Reaches (self.checkUntil allowCreate allowEditProbe deadline) trace rest →
      Punctual (self.HasBudget deadline) trace) ∧
    ∀ allowCreate allowEditProbe trace report,
      Runs (self.checkUntil allowCreate allowEditProbe deadline) trace report →
      RanOutAfter (.act .newControl) (self.TooLate deadline) trace →
      ReportsDeadline report.failures := by
  have respond : Strategy Ans := fun _ op => Classical.choice (answerable op)
  refine ⟨?_, ?_, ?_, ?_⟩
  · intro trace rest hreach
    obtain ⟨later, report, hrun⟩ := hreach.completes respond
    exact (Updater.Cycles.punctual self (self.runCycleUntil_cycles hrun)).left
  · intro trace report hrun hout
    exact Updater.Cycles.ranOut self (self.runCycleUntil_cycles hrun) hout
  · intro allowCreate allowEditProbe trace rest hreach
    obtain ⟨later, report, hrun⟩ := hreach.completes respond
    exact (Updater.Checks.punctual self (self.checkUntil_checks hrun)).left
  · intro allowCreate allowEditProbe trace report hrun hout
    exact Updater.Checks.ranOut self (self.checkUntil_checks hrun) hout

end

/-- The reading of the clock that a step brings. -/
def readsClock : Step → Option Instant
  | ⟨.act .now, (now : Instant)⟩ => some now
  | _ => none

/-- A driver has run out of time where a late reading comes after its start. -/
theorem RanOutAfter.of_reading {start : Op} {late : Instant → Prop} {steps : List Step}
    {count : Nat} {now : Instant} (hstart : steps[count]?.map Event.op = some start)
    (hreads : now ∈ (steps.drop (count + 1)).filterMap readsClock) (hlate : late now) :
    RanOutAfter start late steps := by
  obtain ⟨⟨_, answer⟩, hstep, rfl⟩ := Option.map_eq_some_iff.mp hstart
  obtain ⟨step, member, hstep'⟩ := List.mem_filterMap.mp hreads
  refine .inr ⟨_, answer, _, now, split_at hstep, ?_, hlate⟩
  unfold readsClock at hstep'
  split at hstep'
  · cases hstep'
    exact member
  · cases hstep'

section

attribute [local instance] exampleExternals

/-- A request that looks for records. -/
def Request.listsRecords : Request → Bool
  | .listRecords _ _ _ _ _ => true
  | _ => false

/-- The record is created while there is time. -/
def timelyScenario : Scenario where
  server := fun past request =>
    match request with
    | .verifyToken _ => delivered 200 exampleVerificationBody
    | _ => creationScenario.server past request
  provider := creationScenario.provider

/-- The second lookup of the record takes until after the deadline. -/
def lateScenario : Scenario :=
  { timelyScenario with
    clock := fun past =>
      if (past.filterMap sent).countP Request.listsRecords < 2 then 0 else seconds 400 }

/-- In time a cycle and a check create the record, by a POST that follows its reading of the
clock. Where the second lookup takes too long, both send none and report the deadline. -/
theorem mutations_start_in_time_late :
    (Punctual (· < seconds 300)
        (timelyScenario.trace (exampleUpdater.runCycleUntil (seconds 300))) ∧
      ((timelyScenario.trace (exampleUpdater.runCycleUntil (seconds 300))).filterMap
        begunMutation).length = 1) ∧
    (ReportsDeadline (lateScenario.result (exampleUpdater.runCycleUntil (seconds 300))).failures ∧
      (lateScenario.trace (exampleUpdater.runCycleUntil (seconds 300))).filterMap
        begunMutation = []) ∧
    (Punctual (exampleUpdater.HasBudget (seconds 300))
        (timelyScenario.trace (exampleUpdater.checkUntil true true (seconds 300))) ∧
      ((timelyScenario.trace (exampleUpdater.checkUntil true true (seconds 300))).filterMap
        begunMutation).length = 1) ∧
    ReportsDeadline
        (lateScenario.result (exampleUpdater.checkUntil true true (seconds 300))).failures ∧
      (lateScenario.trace (exampleUpdater.checkUntil true true (seconds 300))).filterMap
        begunMutation = [] := by
  obtain ⟨hcycle, hcycleLate, hcheck, hcheckLate⟩ :=
    mutations_start_in_time exampleUpdater (seconds 300)
  refine ⟨⟨?_, by decide +kernel⟩, ⟨?_, by decide +kernel⟩, ⟨?_, by decide +kernel⟩, ?_,
    by decide +kernel⟩
  · exact hcycle _ _ (timelyScenario.runs _).reaches
  · have hstart : (lateScenario.trace
        (exampleUpdater.runCycleUntil (seconds 300)))[4]?.map Event.op =
        some (.act .fetchAddCursor) := by
      decide +kernel
    have hreads : seconds 400 ∈ ((lateScenario.trace
        (exampleUpdater.runCycleUntil (seconds 300))).drop 5).filterMap readsClock := by
      decide +kernel
    exact hcycleLate _ _ (lateScenario.runs _) (.of_reading hstart hreads (by decide))
  · exact hcheck true true _ _ (timelyScenario.runs _).reaches
  · have hstart : (lateScenario.trace
        (exampleUpdater.checkUntil true true (seconds 300)))[6]?.map Event.op =
        some (.act .newControl) := by
      decide +kernel
    have hreads : seconds 400 ∈ ((lateScenario.trace
        (exampleUpdater.checkUntil true true (seconds 300))).drop 7).filterMap readsClock := by
      decide +kernel
    have hlate : exampleUpdater.TooLate (seconds 300) (seconds 400) := by
      rintro ⟨hbefore, -⟩
      exact absurd hbefore (by decide)
    exact hcheckLate true true _ _ (lateScenario.runs _) (.of_reading hstart hreads hlate)

end

end Cirrusync
