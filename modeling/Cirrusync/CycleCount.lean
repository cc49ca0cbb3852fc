import Cirrusync.Published
import Cirrusync.Scenario
import Mathlib.Data.List.Rotate

/-!
The counters of a cycle's report. A visit of a record either handles it, which
bumps one counter and matches one successful mutation or none, or leaves a
failure or the interrupted flag behind; a cycle that reports success has
therefore handled every configured record.
-/

namespace Cirrusync

open Effect

/-- Reading a list at the indices in order gives the list. -/
theorem range_filterMap_getElem? {α : Type} (entries : List α) :
    (List.range entries.length).filterMap (fun i => entries[i]?) = entries := by
  induction entries with
  | nil => rfl
  | cons entry rest ih =>
      rw [List.length_cons, List.range_succ_eq_map, List.filterMap_cons, List.filterMap_map]
      simpa [Function.comp_def] using ih

namespace Updater

/-- The order of a cycle is a rotation of the configuration. -/
theorem rotated_eq_rotate (records : List RecordConfig) (cursor : Nat) :
    rotated records cursor = records.rotate (cursor % records.length) := by
  unfold rotated
  conv => rhs; rw [← range_filterMap_getElem? (records.rotate (cursor % records.length))]
  rw [List.length_rotate]
  apply List.filterMap_congr
  intro offset hoffset
  rw [List.getElem?_rotate (List.mem_range.mp hoffset), Nat.add_comm]

theorem rotated_perm (records : List RecordConfig) (cursor : Nat) :
    (rotated records cursor).Perm records := by
  rw [rotated_eq_rotate]
  exact List.rotate_perm records _

end Updater

def CycleReport.counter (report : CycleReport) : RecordOutcome → Nat
  | .unchanged => report.unchanged
  | .updated => report.updated
  | .created => report.created

def CycleReport.counted (report : CycleReport) : Nat :=
  report.unchanged + report.updated + report.created

/-- The report after one more record has been handled. -/
def CycleReport.handle (report : CycleReport) : RecordOutcome → CycleReport
  | .unchanged => { report with unchanged := report.unchanged + 1 }
  | .updated => { report with updated := report.updated + 1 }
  | .created => { report with created := report.created + 1 }

/-- A report that does not count as a success. -/
def CycleReport.flawed (report : CycleReport) : Prop :=
  report.failures ≠ [] ∨ report.interrupted = true

theorem CycleReport.isSuccess_iff (report : CycleReport) :
    report.isSuccess = true ↔ ¬ report.flawed := by
  simp [isSuccess, flawed]

theorem CycleReport.flawed_push (report : CycleReport) (failure : CycleFailure) :
    (report.push failure).flawed :=
  .inl (by simp [push])

theorem CycleReport.flawed_handle {report : CycleReport} (outcome : RecordOutcome)
    (h : report.flawed) : (report.handle outcome).flawed := by
  cases outcome <;> exact h

theorem CycleReport.counter_handle (report : CycleReport) (outcome other : RecordOutcome) :
    (report.handle outcome).counter other =
      report.counter other + if outcome = other then 1 else 0 := by
  cases outcome <;> cases other <;> rfl

def Flow.value {α : Type} : Flow α → α
  | .next value => value
  | .stop value => value

section

variable [Externals]

/-- Whether a step brings the client the success of a request of this method. -/
def succeeds (apiToken : String) (method : Method) (step : Step) : Bool :=
  match replied step with
  | some (request, outcome) => request.method == method &&
      (receive apiToken request outcome).toOption.isSome
  | none => false

omit [Externals] in
theorem replied_of_lookup {step : Step} (h : LookupOp step.op) {request : Request}
    {outcome : HttpOutcome} (hreplied : replied step = some (request, outcome)) :
    request.isMutation = false := by
  unfold replied at hreplied
  split at hreplied
  · cases hreplied
    exact h
  · cases hreplied
    exact h
  · cases hreplied

omit [Externals] in
theorem replied_of_discovery {step : Step} (h : DiscoveryOp step.op) :
    replied step = none := by
  unfold replied
  split
  · exact h.elim
  · exact h.elim
  · rfl

theorem succeeds_of_lookup {apiToken : String} {method : Method} (hmethod : method ≠ .get)
    {step : Step} (h : LookupOp step.op) : succeeds apiToken method step = false := by
  unfold succeeds
  split
  · rename_i request outcome hreplied
    have hread := replied_of_lookup h hreplied
    simp only [Request.isMutation, bne_eq_false_iff_eq] at hread
    rw [hread, beq_false_of_ne (Ne.symm hmethod), Bool.false_and]
  · rfl

theorem succeeds_of_discovery {apiToken : String} {method : Method} {step : Step}
    (h : DiscoveryOp step.op) : succeeds apiToken method step = false := by
  unfold succeeds
  rw [replied_of_discovery h]

/-- How many requests of this method succeed in a trace. -/
def successes (apiToken : String) (method : Method) (trace : List Step) : Nat :=
  trace.countP (succeeds apiToken method)

@[simp] theorem successes_append (apiToken : String) (method : Method)
    (first second : List Step) :
    successes apiToken method (first ++ second) =
      successes apiToken method first + successes apiToken method second :=
  List.countP_append

@[simp] theorem successes_cons (apiToken : String) (method : Method) (step : Step)
    (rest : List Step) :
    successes apiToken method (step :: rest) =
      successes apiToken method rest + if succeeds apiToken method step then 1 else 0 :=
  List.countP_cons

@[simp] theorem successes_nil (apiToken : String) (method : Method) :
    successes apiToken method [] = 0 := rfl

theorem successes_eq_zero {apiToken : String} {method : Method} {trace : List Step}
    (h : ∀ step ∈ trace, succeeds apiToken method step = false) :
    successes apiToken method trace = 0 := by
  unfold successes
  rw [List.countP_eq_zero]
  intro step member
  rw [h step member]
  exact Bool.false_ne_true

@[simp] theorem successes_act (apiToken : String) (method : Method) (action : Action)
    (answer : action.Answer) :
    succeeds apiToken method ⟨.act action, answer⟩ = false := rfl

@[simp] theorem successes_exchange (apiToken : String) (method : Method)
    (request : Request) (outcome : HttpOutcome) :
    successes apiToken method (exchange request outcome) =
      if request.method == method &&
        (receive apiToken request outcome).toOption.isSome then 1 else 0 := by
  simp [exchange, succeeds, replied]

@[simp] theorem successes_evictions {α : Type} (apiToken : String) (method : Method)
    (zoneId : String) (result : Except CloudflareError α) :
    successes apiToken method (evictions zoneId result) = 0 := by
  cases result with
  | ok _ => rfl
  | error error =>
      simp only [evictions]
      split <;> simp

/-- The method whose success an outcome stands for. -/
def RecordOutcome.method : RecordOutcome → Method
  | .unchanged => .get
  | .updated => .patch
  | .created => .post

namespace Updater

variable (self : Updater)

/-- A mutation that is executed succeeds if and only if it gives its outcome. -/
theorem executes_successes {plan : RecordPlan} {trace : List Step}
    {result : Except (FailureStage × CloudflareError) RecordOutcome}
    (h : self.Executes plan trace result) {method : Method} (hmethod : method ≠ .get) :
    successes self.cloudflare.apiToken method trace =
      if result.toOption.map RecordOutcome.method = some method then 1 else 0 := by
  cases h with
  | unchanged =>
      have hne : some Method.get ≠ some method := fun h => hmethod (Option.some.inj h).symm
      simp [Except.toOption, RecordOutcome.method, hne]
  | update hresult =>
      simp only [mutationSteps, successes_cons, successes_append, successes_exchange,
        successes_evictions, successes_act, successes_nil]
      rw [hresult]
      cases receive self.cloudflare.apiToken (.updateRecord _ _ _) _ with
      | error error => simp [Except.toOption, Except.map, Except.mapError]
      | ok response =>
          simp [Except.toOption, Except.map, Except.mapError, RecordOutcome.method,
            Request.method]
  | create hresult =>
      simp only [mutationSteps, successes_cons, successes_append, successes_exchange,
        successes_evictions, successes_act, successes_nil]
      rw [hresult]
      cases receive self.cloudflare.apiToken (.createRecord _ _) _ with
      | error error => simp [Except.toOption, Except.map, Except.mapError]
      | ok response =>
          simp [Except.toOption, Except.map, Except.mapError, RecordOutcome.method,
            Request.method]

/-- What one visit does to the report: it handles its record, by a mutation that
succeeds or by none, or it leaves the counters alone and the report flawed. -/
theorem visit_counts {deadline : Instant} {addresses : DiscoveredAddresses}
    {record : RecordConfig} {report : CycleReport} {trace : List Step}
    {flow : Flow CycleReport} (hvisit : self.Visits deadline addresses record report trace flow)
    (hmissing : ∀ message, addresses.forRecord record = .error message → report.flawed) :
    (∃ outcome, flow = .next (report.handle outcome) ∧
      ∀ method, method ≠ .get → successes self.cloudflare.apiToken method trace =
        if outcome.method = method then 1 else 0) ∨
    ((∀ outcome, flow.value.counter outcome = report.counter outcome) ∧
      flow.value.flawed ∧
      ∀ method, method ≠ .get → successes self.cloudflare.apiToken method trace = 0) := by
  have hplanning : ∀ {address : IpAddr} {planning : List Step}
      {planned : Option (Except (FailureStage × CloudflareError) RecordPlan)},
      Runs (timeoutAt deadline (self.planRecord record address)) planning planned →
      ∀ method, method ≠ .get →
        successes self.cloudflare.apiToken method planning = 0 := by
    intro address planning planned hrun method hmethod
    apply successes_eq_zero
    intro step member
    exact succeeds_of_lookup hmethod
      (uses_runs (uses_timeoutAt (fun _ => LookupOp.finishBefore)
        (self.planRecord_uses record address)) hrun step member)
  have hpush : ∀ failure outcome,
      (report.push failure).counter outcome = report.counter outcome := by
    intro failure outcome
    cases outcome <;> rfl
  have hsettle : ∀ error, (settle record report (.error error)).value =
      report.push (cloudflareFailure record.name error.1 error.2) := by
    intro error
    simp only [settle]
    split <;> rfl
  cases hvisit with
  | stopped =>
      refine .inr ⟨fun outcome => ?_, .inr rfl, fun method _ => by simp⟩
      cases outcome <;> rfl
  | noAddress haddress =>
      exact .inr ⟨fun _ => rfl, hmissing _ haddress, fun method _ => by simp⟩
  | planExpired haddress hrun =>
      refine .inr ⟨hpush _, report.flawed_push _, fun method hmethod => ?_⟩
      simp [hplanning hrun method hmethod]
  | @planFailed address planning error haddress hrun =>
      refine .inr ⟨?_, ?_, fun method hmethod => ?_⟩
      · rw [hsettle]
        exact hpush _
      · rw [hsettle]
        exact report.flawed_push _
      · simp [hplanning hrun method hmethod]
  | planLate haddress hrun hlate =>
      refine .inr ⟨hpush _, report.flawed_push _, fun method hmethod => ?_⟩
      simp [hplanning hrun method hmethod]
  | @executed address planning mutation plan now result haddress hrun hnow hexecutes =>
      have hcount : ∀ method, method ≠ .get →
          successes self.cloudflare.apiToken method
            (⟨.act .stopRequested, false⟩ :: (planning ++ ⟨.act .now, now⟩ :: mutation)) =
          if result.toOption.map RecordOutcome.method = some method then 1 else 0 := by
        intro method hmethod
        rw [← self.executes_successes hexecutes hmethod]
        simp [hplanning hrun method hmethod]
      cases result with
      | error error =>
          refine .inr ⟨?_, ?_, fun method hmethod => ?_⟩
          · rw [hsettle]
            exact hpush _
          · rw [hsettle]
            exact report.flawed_push _
          · simp [hcount method hmethod, Except.toOption]
      | ok outcome =>
          refine .inl ⟨outcome, ?_, fun method hmethod => ?_⟩
          · cases outcome <;> rfl
          · simp [hcount method hmethod, Except.toOption]

theorem visit_keeps_flaw {deadline : Instant} {addresses : DiscoveredAddresses}
    {record : RecordConfig} {report : CycleReport} {trace : List Step}
    {flow : Flow CycleReport} (hvisit : self.Visits deadline addresses record report trace flow)
    (hflawed : report.flawed) : flow.value.flawed := by
  rcases self.visit_counts hvisit (fun _ _ => hflawed) with ⟨outcome, rfl, -⟩ | ⟨-, h, -⟩
  · exact CycleReport.flawed_handle outcome hflawed
  · exact h

theorem visitsAll_keeps_flaw {deadline : Instant} {addresses : DiscoveredAddresses}
    {records : List RecordConfig} {report final : CycleReport} {trace : List Step}
    (hvisits : self.VisitsAll deadline addresses records report trace final)
    (hflawed : report.flawed) : final.flawed := by
  induction hvisits with
  | done report => exact hflawed
  | next hvisit _ ih => exact ih (self.visit_keeps_flaw hvisit hflawed)
  | stop hvisit => exact self.visit_keeps_flaw hvisit hflawed

/-- A visit in a trace that handled its record with this outcome. -/
def Handled (deadline : Instant) (addresses : DiscoveredAddresses) (trace : List Step)
    (entry : RecordConfig × RecordOutcome) : Prop :=
  ∃ visit report, visit <:+: trace ∧ self.Visits deadline addresses entry.1 report visit
    (.next (report.handle entry.2))

/-- The records handled by the loop, in order, account for every counter and
every successful mutation; where the report is not flawed, they are all. -/
theorem visitsAll_counts {deadline : Instant} {addresses : DiscoveredAddresses}
    {records : List RecordConfig} {report final : CycleReport} {trace : List Step}
    (hvisits : self.VisitsAll deadline addresses records report trace final)
    (hmissing : ∀ record ∈ records, ∀ message,
      addresses.forRecord record = .error message → report.flawed) :
    ∃ handled : List (RecordConfig × RecordOutcome),
      (handled.map Prod.fst).Sublist records ∧
      (∀ entry ∈ handled, self.Handled deadline addresses trace entry) ∧
      (∀ outcome, final.counter outcome =
        report.counter outcome + (handled.map Prod.snd).count outcome) ∧
      (∀ method, method ≠ .get → successes self.cloudflare.apiToken method trace =
        (handled.map Prod.snd).countP (fun outcome => outcome.method = method)) ∧
      (¬ final.flawed → handled.map Prod.fst = records) := by
  induction hvisits with
  | done report =>
      exact ⟨[], List.Sublist.refl _, by simp, fun _ => rfl, fun _ _ => rfl, fun _ => rfl⟩
  | @next record rest report report' final visit later hvisit hlater ih =>
      have hkeep : report.flawed → report'.flawed := self.visit_keeps_flaw hvisit
      obtain ⟨handled, hsublist, hvisits, hcounter, hsuccess, hall⟩ := ih
        (fun r hr message h => hkeep (hmissing r (List.mem_cons_of_mem _ hr) message h))
      have hlater' : ∀ entry ∈ handled,
          self.Handled deadline addresses (visit ++ later) entry := by
        intro entry member
        obtain ⟨steps, before, hinfix, hentry⟩ := hvisits entry member
        exact ⟨steps, before, hinfix.trans (List.suffix_append _ _).isInfix, hentry⟩
      rcases self.visit_counts hvisit (hmissing record List.mem_cons_self) with
        ⟨outcome, hflow, hone⟩ | ⟨hsame, hflawed, hnone⟩
      · obtain rfl : report' = report.handle outcome := by
          injection hflow
        refine ⟨(record, outcome) :: handled, hsublist.cons_cons record, ?_, ?_, ?_, ?_⟩
        · intro entry member
          rcases List.mem_cons.mp member with rfl | member
          · exact ⟨visit, report, (List.prefix_append _ _).isInfix, hvisit⟩
          · exact hlater' entry member
        · intro other
          rw [hcounter, CycleReport.counter_handle, List.map_cons, List.count_cons]
          simp only [beq_iff_eq]
          omega
        · intro method hmethod
          rw [successes_append, hone method hmethod, hsuccess method hmethod, List.map_cons,
            List.countP_cons]
          simp only [decide_eq_true_eq]
          omega
        · intro hgood
          rw [List.map_cons, hall hgood]
      · refine ⟨handled, hsublist.cons record, hlater', ?_, ?_, ?_⟩
        · intro other
          rw [hcounter]
          exact congrArg (· + _) (hsame other)
        · intro method hmethod
          rw [successes_append, hnone method hmethod, hsuccess method hmethod, Nat.zero_add]
        · intro hgood
          exact absurd (self.visitsAll_keeps_flaw hlater hflawed) hgood
  | @stop record rest report final visit hvisit =>
      rcases self.visit_counts hvisit (hmissing record List.mem_cons_self) with
        ⟨outcome, hflow, -⟩ | ⟨hsame, hflawed, hnone⟩
      · cases hflow
      · refine ⟨[], List.nil_sublist _, by simp, hsame, ?_, ?_⟩
        · intro method hmethod
          exact hnone method hmethod
        · intro hgood
          exact absurd hflawed hgood

omit [Externals] in
/-- A configured record whose address is missing has left a failure: its family
was looked for, and in vain. -/
theorem forRecord_error {config : Config} {addresses : DiscoveredAddresses}
    (hdiscovered : Discovered config addresses) {record : RecordConfig}
    (hmember : record ∈ config.records) {message : String}
    (h : addresses.forRecord record = .error message) :
    addresses.discoveryFailures ≠ [] := by
  have hneeded := hdiscovered.isSome_iff record.recordType.family
  have hany : config.records.any
      (fun other => other.recordType.family == record.recordType.family) = true :=
    List.any_eq_true.mpr ⟨record, hmember, beq_self_eq_true _⟩
  rw [hany] at hneeded
  unfold DiscoveredAddresses.forRecord at h
  unfold DiscoveredAddresses.discoveryFailures
  cases hfound : addresses.discovered record.recordType.family with
  | none => simp [hfound] at hneeded
  | some found =>
      cases found with
      | ok address => simp [hfound] at h
      | error text =>
          intro hnil
          obtain ⟨h4, h6⟩ := List.append_eq_nil_iff.mp hnil
          cases hfamily : record.recordType.family with
          | ipv4 =>
              rw [hfamily] at hfound
              have hipv4 : addresses.ipv4 = some (.error text) := hfound
              simp [hipv4, DiscoveredAddresses.discoveryFailure] at h4
          | ipv6 =>
              rw [hfamily] at hfound
              have hipv6 : addresses.ipv6 = some (.error text) := hfound
              simp [hipv6, DiscoveredAddresses.discoveryFailure] at h6

end Updater

omit [Externals] in
theorem countP_method (outcomes : List RecordOutcome) (outcome : RecordOutcome) :
    outcomes.countP (fun other => other.method = outcome.method) =
      outcomes.count outcome := by
  apply List.countP_congr
  intro other _
  cases other <;> cases outcome <;> decide

omit [Externals] in
theorem sum_counts (outcomes : List RecordOutcome) :
    outcomes.count .unchanged + outcomes.count .updated + outcomes.count .created =
      outcomes.length := by
  induction outcomes with
  | nil => rfl
  | cons outcome rest ih =>
      simp only [List.count_cons, List.length_cons]
      cases outcome <;> simp <;> omega

/-- Success of a cycle means that every record was handled. Whatever the
providers and the API answer and whenever the deadline or a stop comes, the
report counts the mutations that succeeded, and a report without failures and
interruption has counted each configured record once. -/
theorem cycle_counts_records (self : Updater) (deadline : Instant) {trace : List Step}
    {report : CycleReport} (hrun : Runs (self.runCycleUntil deadline) trace report) :
    report.updated = successes self.cloudflare.apiToken .patch trace ∧
    report.created = successes self.cloudflare.apiToken .post trace ∧
    report.counted ≤ self.config.records.length ∧
    (report.isSuccess = true → report.counted = self.config.records.length ∧
      ∃ addresses, ∃ handled : List (RecordConfig × RecordOutcome),
        (handled.map Prod.fst).Perm self.config.records ∧
        (∀ outcome, report.counter outcome = (handled.map Prod.snd).count outcome) ∧
        ∀ entry ∈ handled, self.Handled deadline addresses trace entry) := by
  have hdiscovery : ∀ {discovery : List Step} {found : Option DiscoveredAddresses},
      Runs (timeoutAt deadline self.discoverRequiredAddresses) discovery found →
      ∀ method, successes self.cloudflare.apiToken method discovery = 0 := by
    intro discovery found hrun method
    apply successes_eq_zero
    intro step member
    exact succeeds_of_discovery (uses_runs (uses_timeoutAt
      (fun _ => DiscoveryOp.finishBefore) self.discoverRequiredAddresses_uses) hrun step member)
  cases self.runCycleUntil_cycles hrun with
  | undiscovered hfound =>
      refine ⟨(hdiscovery hfound _).symm, (hdiscovery hfound _).symm, Nat.zero_le _, ?_⟩
      intro hsuccess
      exact absurd (CycleReport.flawed_push _ _) ((CycleReport.isSuccess_iff _).mp hsuccess)
  | @unmanaged _ addresses hfound hrecords =>
      refine ⟨(hdiscovery hfound _).symm, (hdiscovery hfound _).symm, Nat.zero_le _, ?_⟩
      intro _
      rw [hrecords]
      refine ⟨rfl, addresses, [], List.Perm.nil, fun outcome => ?_, by simp⟩
      cases outcome <;> rfl
  | @visited discovery visits addresses cursor _ hfound hrecords hvisits =>
      have hdiscovered := self.timeoutDiscovery_runs hfound
      have hperm := Updater.rotated_perm self.config.records cursor
      obtain ⟨handled, hsublist, hhandled, hcounter, hsuccess, hall⟩ :=
        self.visitsAll_counts hvisits (fun record member message h =>
          .inl (Updater.forRecord_error hdiscovered (hperm.mem_iff.mp member) h))
      have hzero : ∀ outcome, report.counter outcome =
          (handled.map Prod.snd).count outcome := by
        intro outcome
        rw [hcounter]
        cases outcome <;> exact Nat.zero_add _
      have hcounted : report.counted = (handled.map Prod.fst).length := by
        have hsum := sum_counts (handled.map Prod.snd)
        rw [← hzero, ← hzero, ← hzero, List.length_map] at hsum
        rw [List.length_map]
        exact hsum
      have htotal : ∀ outcome, outcome.method ≠ .get →
          report.counter outcome = successes self.cloudflare.apiToken outcome.method
            (discovery ++ ⟨.act .fetchAddCursor, cursor⟩ :: visits) := by
        intro outcome hmethod
        rw [successes_append, hdiscovery hfound, successes_cons, successes_act,
          hsuccess _ hmethod, hzero, countP_method]
        simp
      refine ⟨htotal .updated (by decide), htotal .created (by decide), ?_, ?_⟩
      · rw [hcounted, ← hperm.length_eq]
        exact hsublist.length_le
      · intro hgood
        have hwhole := hall ((CycleReport.isSuccess_iff _).mp hgood)
        refine ⟨?_, addresses, handled, ?_, hzero, fun entry member => ?_⟩
        · rw [hcounted, hwhole, hperm.length_eq]
        · rw [hwhole]
          exact hperm
        · obtain ⟨visit, before, hinfix, hvisit⟩ := hhandled entry member
          refine ⟨visit, before, hinfix.trans ?_, hvisit⟩
          exact ((List.suffix_cons _ _).trans (List.suffix_append _ _)).isInfix

end

section

attribute [local instance] exampleExternals

/-- The counters of the cycle that creates the example record. -/
theorem cycle_counts_records_creation :
    (creationScenario.result (exampleUpdater.runCycleUntil (seconds 300))).updated =
      successes "token" .patch
        (creationScenario.trace (exampleUpdater.runCycleUntil (seconds 300))) ∧
    (creationScenario.result (exampleUpdater.runCycleUntil (seconds 300))).created =
      successes "token" .post
        (creationScenario.trace (exampleUpdater.runCycleUntil (seconds 300))) := by
  obtain ⟨hupdated, hcreated, -⟩ := cycle_counts_records exampleUpdater (seconds 300)
    (creationScenario.runs (exampleUpdater.runCycleUntil (seconds 300)))
  exact ⟨hupdated, hcreated⟩

end

end Cirrusync
