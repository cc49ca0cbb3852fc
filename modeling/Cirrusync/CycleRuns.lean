import Cirrusync.Combinators
import Cirrusync.Effect.Agreement
import Cirrusync.Exchange

/-!
What the runs of a synchronization cycle can be, said once for each function of
the cycle. Every branch of the source is one constructor, with the runs of the
functions that it calls; later modules argue by cases on these.
-/

namespace Cirrusync

open Effect

/-- The steps of a guarded mutation in a zone. -/
def mutationSteps {α : Type} (zoneId : String) (request : Request) (outcome : HttpOutcome)
    (result : Except CloudflareError α) : List Step :=
  ⟨.act (.setMutationInFlight true), ()⟩ ::
    (exchange request outcome ++ evictions zoneId result) ++
      [⟨.act (.setMutationInFlight false), ()⟩]

theorem runs_guarded {α : Type} {mutation : M α} {trace : List Step} {result : α}
    (hrun : Runs (guarded mutation) trace result) :
    ∃ steps, trace = ⟨.act (.setMutationInFlight true), ()⟩ :: steps ++
        [⟨.act (.setMutationInFlight false), ()⟩] ∧ Runs mutation steps result := by
  simp only [guarded, act_eq, Program.ask_bind, Program.done_bind, runs_ask_iff,
    runs_bind_iff, Program.pure_eq, runs_done_iff] at hrun
  obtain ⟨⟨⟩, _, rfl, steps, _, value, rfl, hmutation, ⟨⟩, _, rfl, rfl, rfl⟩ := hrun
  exact ⟨steps, rfl, hmutation⟩

section

variable [Externals]

namespace CloudflareClient

variable (self : CloudflareClient)

/-- The shape that `update_record`, `probe_record_edit` and `create_record` have
in common. -/
theorem runs_resultInZone {zoneId : String} {request : Request} {trace : List Step}
    {result : Except CloudflareError request.kind.Value}
    {rest : Except CloudflareError (ApiResponse request.kind.Value) →
      M (Except CloudflareError request.kind.Value)}
    (hok : ∀ response, rest (.ok response) = pure (.ok response.result))
    (herror : ∀ error, rest (.error error) = pure (.error error))
    (hrun : Runs (self.sendInZone zoneId request >>= rest) trace result) :
    ∃ outcome, trace = exchange request outcome ++ evictions zoneId result ∧
      result = (receive self.apiToken request outcome).map ApiResponse.result := by
  obtain ⟨_, _, _, rfl, hsend, hrest⟩ := (runs_bind_iff _ _ _ _).mp hrun
  obtain ⟨outcome, rfl, rfl⟩ := (self.runs_sendInZone_iff _ _ _ _).mp hsend
  refine ⟨outcome, ?_⟩
  cases hreceive : receive self.apiToken request outcome with
  | error error =>
      simp only [hreceive, herror, Program.pure_eq, runs_done_iff] at hrest
      obtain ⟨rfl, rfl⟩ := hrest
      exact ⟨by simp [evictions], rfl⟩
  | ok response =>
      simp only [hreceive, hok, Program.pure_eq, runs_done_iff] at hrest
      obtain ⟨rfl, rfl⟩ := hrest
      exact ⟨by simp [evictions], rfl⟩

theorem runs_updateRecord {zoneId recordId : String} {payload : RecordPayload}
    {trace : List Step} {result : Except CloudflareError DnsRecord}
    (hrun : Runs (self.updateRecord zoneId recordId payload) trace result) :
    ∃ outcome, trace = exchange (.updateRecord zoneId recordId payload) outcome ++
        evictions zoneId result ∧
      result = (receive self.apiToken (.updateRecord zoneId recordId payload)
        outcome).map ApiResponse.result :=
  self.runs_resultInZone (fun _ => rfl) (fun _ => rfl) hrun

theorem runs_createRecord {zoneId : String} {payload : RecordPayload}
    {trace : List Step} {result : Except CloudflareError DnsRecord}
    (hrun : Runs (self.createRecord zoneId payload) trace result) :
    ∃ outcome, trace = exchange (.createRecord zoneId payload) outcome ++
        evictions zoneId result ∧
      result = (receive self.apiToken (.createRecord zoneId payload)
        outcome).map ApiResponse.result :=
  self.runs_resultInZone (fun _ => rfl) (fun _ => rfl) hrun

end CloudflareClient

namespace Updater

variable (self : Updater)

/-- The zone and the record lookups of a record. -/
def resolves (record : RecordConfig) (trace : List Step)
    (result : Except CloudflareError String) : Prop :=
  Runs (self.cloudflare.resolveZoneId record.zone record.zoneId) trace result

def finds (record : RecordConfig) (zoneId : String) (trace : List Step)
    (result : Except CloudflareError (Option DnsRecord)) : Prop :=
  Runs (self.cloudflare.findRecord zoneId record.recordType.asStr record.name) trace result

/-- The runs of `plan_record`. -/
inductive Plans (record : RecordConfig) (address : IpAddr) :
    List Step → Except (FailureStage × CloudflareError) RecordPlan → Prop where
  | zoneFailed {zoneTrace : List Step} {error : CloudflareError} :
      self.resolves record zoneTrace (.error error) →
      Plans record address zoneTrace (.error (.zoneLookup, error))
  | lookupFailed {zoneTrace lookup : List Step} {zoneId : String}
      {error : CloudflareError} :
      self.resolves record zoneTrace (.ok zoneId) →
      self.finds record zoneId lookup (.error error) →
      Plans record address (zoneTrace ++ lookup) (.error (.recordLookup, error))
  | found {zoneTrace lookup : List Step} {zoneId : String} {existing : DnsRecord} :
      self.resolves record zoneTrace (.ok zoneId) →
      self.finds record zoneId lookup (.ok (some existing)) →
      Plans record address (zoneTrace ++ lookup)
        (.ok (planExistingRecord record address zoneId existing))
  | disabled {zoneTrace lookup : List Step} {zoneId : String} :
      self.resolves record zoneTrace (.ok zoneId) →
      self.finds record zoneId lookup (.ok none) →
      record.createIfMissing = false →
      Plans record address (zoneTrace ++ lookup) (.error (.recordLookup,
        .recordNotFound record.recordType.asStr record.name))
  | recheckFailed {zoneTrace lookup recheck : List Step} {zoneId : String}
      {error : CloudflareError} :
      self.resolves record zoneTrace (.ok zoneId) →
      self.finds record zoneId lookup (.ok none) →
      self.finds record zoneId recheck (.error error) →
      Plans record address (zoneTrace ++ (lookup ++ recheck))
        (.error (.recordLookup, error))
  | appeared {zoneTrace lookup recheck : List Step} {zoneId : String}
      {existing : DnsRecord} :
      self.resolves record zoneTrace (.ok zoneId) →
      self.finds record zoneId lookup (.ok none) →
      self.finds record zoneId recheck (.ok (some existing)) →
      Plans record address (zoneTrace ++ (lookup ++ recheck))
        (.ok (planExistingRecord record address zoneId existing))
  | missing {zoneTrace lookup recheck : List Step} {zoneId : String} :
      self.resolves record zoneTrace (.ok zoneId) →
      self.finds record zoneId lookup (.ok none) →
      record.createIfMissing = true →
      self.finds record zoneId recheck (.ok none) →
      Plans record address (zoneTrace ++ (lookup ++ recheck))
        (.ok (.create zoneId (recordPayload record address)))

/-- Every run of `plan_record` is one of the cases of `Plans`: a resolution that fails, a
resolution and a lookup that fails, or both and the plan for what the lookup has found. -/
theorem planRecord_plans {record : RecordConfig} {address : IpAddr} {trace : List Step}
    {result : Except (FailureStage × CloudflareError) RecordPlan}
    (hrun : Runs (self.planRecord record address) trace result) :
    self.Plans record address trace result := by
  unfold planRecord at hrun
  obtain ⟨zoneTrace, _, zone, rfl, hzone, hrest⟩ := (runs_bind_iff _ _ _ _).mp hrun
  cases zone with
  | error error =>
      cases hrest
      rw [List.append_nil]
      exact .zoneFailed hzone
  | ok zoneId =>
      obtain ⟨lookup, _, found, rfl, hfound, hrest⟩ := (runs_bind_iff _ _ _ _).mp hrest
      cases found with
      | error error =>
          cases hrest
          rw [List.append_nil]
          exact .lookupFailed hzone hfound
      | ok found =>
          cases found with
          | some existing =>
              cases hrest
              rw [List.append_nil]
              exact .found hzone hfound
          | none =>
              cases hcreate : record.createIfMissing with
              | false =>
                  simp only [hcreate, Bool.not_false, if_true, Program.pure_eq,
                    runs_done_iff] at hrest
                  obtain ⟨rfl, rfl⟩ := hrest
                  rw [List.append_nil]
                  exact .disabled hzone hfound hcreate
              | true =>
                  simp only [hcreate, Bool.not_true, Bool.false_eq_true, if_false] at hrest
                  obtain ⟨recheck, _, again, rfl, hagain, hrest⟩ :=
                    (runs_bind_iff _ _ _ _).mp hrest
                  cases again with
                  | error error =>
                      cases hrest
                      rw [List.append_nil]
                      exact .recheckFailed hzone hfound hagain
                  | ok again =>
                      cases again with
                      | some existing =>
                          cases hrest
                          rw [List.append_nil]
                          exact .appeared hzone hfound hagain
                      | none =>
                          cases hrest
                          rw [List.append_nil]
                          exact .missing hzone hfound hcreate hagain

/-- The runs of `execute_record_plan`. -/
inductive Executes : RecordPlan → List Step →
    Except (FailureStage × CloudflareError) RecordOutcome → Prop where
  | unchanged : Executes .unchanged [] (.ok .unchanged)
  | update {zoneId recordId : String} {payload : RecordPayload} {outcome : HttpOutcome}
      {result : Except CloudflareError DnsRecord} :
      result = (receive self.cloudflare.apiToken (.updateRecord zoneId recordId payload)
        outcome).map ApiResponse.result →
      Executes (.update zoneId recordId payload)
        (mutationSteps zoneId (.updateRecord zoneId recordId payload) outcome result)
        ((result.map fun _ => RecordOutcome.updated).mapError fun error => (.update, error))
  | create {zoneId : String} {payload : RecordPayload} {outcome : HttpOutcome}
      {result : Except CloudflareError DnsRecord} :
      result = (receive self.cloudflare.apiToken (.createRecord zoneId payload)
        outcome).map ApiResponse.result →
      Executes (.create zoneId payload)
        (mutationSteps zoneId (.createRecord zoneId payload) outcome result)
        ((result.map fun _ => RecordOutcome.created).mapError fun error => (.creation, error))

/-- Every run of `execute_record_plan` is one of the cases of `Executes`: nothing for a record
that is up to date, or the one mutation of the plan with its steps and its result. -/
theorem executeRecordPlan_executes {plan : RecordPlan} {trace : List Step}
    {result : Except (FailureStage × CloudflareError) RecordOutcome}
    (hrun : Runs (self.executeRecordPlan plan) trace result) :
    self.Executes plan trace result := by
  cases plan with
  | unchanged =>
      cases hrun
      exact .unchanged
  | update zoneId recordId payload =>
      unfold executeRecordPlan at hrun
      obtain ⟨_, _, answer, rfl, hguarded, hrest⟩ := (runs_bind_iff _ _ _ _).mp hrun
      obtain ⟨steps, rfl, hupdate⟩ := runs_guarded hguarded
      obtain ⟨outcome, rfl, hanswer⟩ := self.cloudflare.runs_updateRecord hupdate
      have hexecutes := Executes.update hanswer
      cases answer with
      | error error =>
          cases hrest
          rw [List.append_nil]
          exact hexecutes
      | ok updated =>
          cases hrest
          rw [List.append_nil]
          exact hexecutes
  | create zoneId payload =>
      unfold executeRecordPlan at hrun
      obtain ⟨_, _, answer, rfl, hguarded, hrest⟩ := (runs_bind_iff _ _ _ _).mp hrun
      obtain ⟨steps, rfl, hcreate⟩ := runs_guarded hguarded
      obtain ⟨outcome, rfl, hanswer⟩ := self.cloudflare.runs_createRecord hcreate
      have hexecutes := Executes.create hanswer
      cases answer with
      | error error =>
          cases hrest
          rw [List.append_nil]
          exact hexecutes
      | ok created =>
          cases hrest
          rw [List.append_nil]
          exact hexecutes

/-- The runs of the body of the record loop. -/
inductive Visits (deadline : Instant) (addresses : DiscoveredAddresses)
    (record : RecordConfig) (report : CycleReport) : List Step → Flow CycleReport → Prop where
  | stopped : Visits deadline addresses record report [⟨.act .stopRequested, true⟩]
      (.stop { report with interrupted := true })
  | noAddress {message : String} :
      addresses.forRecord record = .error message →
      Visits deadline addresses record report [⟨.act .stopRequested, false⟩] (.next report)
  | planExpired {address : IpAddr} {planning : List Step} :
      addresses.forRecord record = .ok address →
      Runs (timeoutAt deadline (self.planRecord record address)) planning none →
      Visits deadline addresses record report (⟨.act .stopRequested, false⟩ :: planning)
        (.stop (report.push cycleDeadlineFailure))
  | planFailed {address : IpAddr} {planning : List Step}
      {error : FailureStage × CloudflareError} :
      addresses.forRecord record = .ok address →
      Runs (timeoutAt deadline (self.planRecord record address)) planning
        (some (.error error)) →
      Visits deadline addresses record report (⟨.act .stopRequested, false⟩ :: planning)
        (settle record report (.error error))
  | planLate {address : IpAddr} {planning : List Step} {plan : RecordPlan} {now : Instant} :
      addresses.forRecord record = .ok address →
      Runs (timeoutAt deadline (self.planRecord record address)) planning
        (some (.ok plan)) →
      deadline ≤ now →
      Visits deadline addresses record report
        (⟨.act .stopRequested, false⟩ :: (planning ++ [⟨.act .now, now⟩]))
        (.stop (report.push cycleDeadlineFailure))
  | executed {address : IpAddr} {planning mutation : List Step} {plan : RecordPlan}
      {now : Instant} {outcome : Except (FailureStage × CloudflareError) RecordOutcome} :
      addresses.forRecord record = .ok address →
      Runs (timeoutAt deadline (self.planRecord record address)) planning
        (some (.ok plan)) →
      now < deadline →
      self.Executes plan mutation outcome →
      Visits deadline addresses record report
        (⟨.act .stopRequested, false⟩ :: (planning ++ ⟨.act .now, now⟩ :: mutation))
        (settle record report outcome)

/-- Every run of the loop body of a cycle is one of the cases of `Visits`, from a record without
an address to a mutation with its result. Later arguments about cycles go by these cases and do
not look into the code again. -/
theorem visitRecord_visits {deadline : Instant} {addresses : DiscoveredAddresses}
    {record : RecordConfig} {report : CycleReport} {trace : List Step}
    {result : Flow CycleReport}
    (hrun : Runs (self.visitRecord deadline addresses record report) trace result) :
    self.Visits deadline addresses record report trace result := by
  simp only [visitRecord, act_eq, Program.ask_bind, Program.done_bind,
    runs_ask_iff] at hrun
  obtain ⟨stopRequested, _, rfl, hrest⟩ := hrun
  cases stopRequested with
  | true =>
      cases hrest
      exact .stopped
  | false =>
      simp only [Bool.false_eq_true, if_false] at hrest
      cases haddress : addresses.forRecord record with
      | error message =>
          simp only [haddress, Program.pure_eq, runs_done_iff] at hrest
          obtain ⟨rfl, rfl⟩ := hrest
          exact .noAddress haddress
      | ok address =>
          simp only [haddress] at hrest
          obtain ⟨planning, _, planned, rfl, hplanned, hrest⟩ :=
            (runs_bind_iff _ _ _ _).mp hrest
          cases planned with
          | none =>
              cases hrest
              rw [List.append_nil]
              exact .planExpired haddress hplanned
          | some result =>
              cases result with
              | error error =>
                  cases hrest
                  rw [List.append_nil]
                  exact .planFailed haddress hplanned
              | ok plan =>
                  obtain ⟨now, later, rfl, hlater⟩ := (runs_ask_iff _ _ _ _).mp hrest
                  by_cases hlate : deadline ≤ now
                  · simp only [hlate, if_true, Program.pure_eq, runs_done_iff] at hlater
                    obtain ⟨rfl, rfl⟩ := hlater
                    exact .planLate haddress hplanned hlate
                  · simp only [hlate, if_false] at hlater
                    obtain ⟨mutation, _, outcome, rfl, hexecute, hsettle⟩ :=
                      (runs_bind_iff _ _ _ _).mp hlater
                    cases hsettle
                    rw [List.append_nil]
                    exact .executed haddress hplanned (Nat.lt_of_not_le hlate)
                      (self.executeRecordPlan_executes hexecute)

/-- The runs of the record loop. -/
inductive VisitsAll (deadline : Instant) (addresses : DiscoveredAddresses) :
    List RecordConfig → CycleReport → List Step → CycleReport → Prop where
  | done (report : CycleReport) : VisitsAll deadline addresses [] report [] report
  | next {record : RecordConfig} {rest : List RecordConfig}
      {report report' final : CycleReport} {visit later : List Step} :
      self.Visits deadline addresses record report visit (.next report') →
      VisitsAll deadline addresses rest report' later final →
      VisitsAll deadline addresses (record :: rest) report (visit ++ later) final
  | stop {record : RecordConfig} {rest : List RecordConfig}
      {report final : CycleReport} {visit : List Step} :
      self.Visits deadline addresses record report visit (.stop final) →
      VisitsAll deadline addresses (record :: rest) report visit final

theorem visitRecords_visitsAll {deadline : Instant} {addresses : DiscoveredAddresses}
    {records : List RecordConfig} {report final : CycleReport} {trace : List Step}
    (hrun : Runs (self.visitRecords deadline addresses records report) trace final) :
    self.VisitsAll deadline addresses records report trace final := by
  induction records generalizing report trace with
  | nil =>
      cases hrun
      exact .done _
  | cons record rest ih =>
      unfold visitRecords at hrun
      obtain ⟨visit, later, flow, rfl, hvisit, hrest⟩ := (runs_bind_iff _ _ _ _).mp hrun
      have hvisits := self.visitRecord_visits hvisit
      cases flow with
      | next report' => exact .next hvisits (ih hrest)
      | stop report' =>
          cases hrest
          rw [List.append_nil]
          exact .stop hvisits

/-- The runs of `run_cycle_until`. -/
inductive Cycles (deadline : Instant) : List Step → CycleReport → Prop where
  | undiscovered {discovery : List Step} :
      Runs (timeoutAt deadline self.discoverRequiredAddresses) discovery none →
      Cycles deadline discovery
        (CycleReport.push { records := self.config.records.length } cycleDeadlineFailure)
  | unmanaged {discovery : List Step} {addresses : DiscoveredAddresses} :
      Runs (timeoutAt deadline self.discoverRequiredAddresses) discovery
        (some addresses) →
      self.config.records = [] →
      Cycles deadline discovery
        { records := self.config.records.length, failures := addresses.discoveryFailures }
  | visited {discovery visits : List Step} {addresses : DiscoveredAddresses} {cursor : Nat}
      {report : CycleReport} :
      Runs (timeoutAt deadline self.discoverRequiredAddresses) discovery
        (some addresses) →
      self.config.records ≠ [] →
      self.VisitsAll deadline addresses (rotated self.config.records cursor)
        { records := self.config.records.length, failures := addresses.discoveryFailures }
        visits report →
      Cycles deadline (discovery ++ ⟨.act .fetchAddCursor, cursor⟩ :: visits) report

theorem runCycleUntil_cycles {deadline : Instant} {trace : List Step}
    {report : CycleReport} (hrun : Runs (self.runCycleUntil deadline) trace report) :
    self.Cycles deadline trace report := by
  unfold runCycleUntil at hrun
  obtain ⟨discovery, _, discovered, rfl, hdiscovery, hrest⟩ :=
    (runs_bind_iff _ _ _ _).mp hrun
  cases discovered with
  | none =>
      cases hrest
      rw [List.append_nil]
      exact .undiscovered hdiscovery
  | some addresses =>
      by_cases hrecords : self.config.records = []
      · simp only [hrecords, List.isEmpty_nil, if_true, Program.pure_eq,
          runs_done_iff] at hrest
        obtain ⟨rfl, rfl⟩ := hrest
        rw [List.append_nil]
        have hcycle := Cycles.unmanaged hdiscovery hrecords
        rwa [hrecords] at hcycle
      · have hnonempty : self.config.records.isEmpty = false := by simpa using hrecords
        simp only [hnonempty, Bool.false_eq_true, if_false] at hrest
        obtain ⟨cursor, visits, rfl, hvisits⟩ := (runs_ask_iff _ _ _ _).mp hrest
        exact .visited hdiscovery hrecords (self.visitRecords_visitsAll hvisits)

end Updater

/-- One cycle of an updater, as it ran. -/
structure Updater.CycleRun (updater : Updater) where
  deadline : Instant
  trace : List Step
  report : CycleReport
  runs : Runs (updater.runCycleUntil deadline) trace report

namespace Updater

variable {self : Updater}

/-- The addresses that a cycle has found. -/
def CycleRun.Discovers (run : self.CycleRun) (addresses : DiscoveredAddresses) : Prop :=
  ∃ discovery rest, run.trace = discovery ++ rest ∧
    Runs (timeoutAt run.deadline self.discoverRequiredAddresses) discovery (some addresses)

/-- The cycle that a strategy makes, after some steps. -/
def executedCycle (self : Updater) (respond : Strategy Ans) (past : List Step)
    (deadline : Instant) : self.CycleRun where
  deadline := deadline
  trace := (execute respond past (self.runCycleUntil deadline)).1
  report := (execute respond past (self.runCycleUntil deadline)).2
  runs := execute_runs _ _ _

theorem executedCycle_discovers {respond : Strategy Ans} {past : List Step} {deadline : Instant}
    {addresses : DiscoveredAddresses}
    (hfound : (execute respond past (timeoutAt deadline self.discoverRequiredAddresses)).2 =
      some addresses) : (self.executedCycle respond past deadline).Discovers addresses := by
  have htrace : (self.executedCycle respond past deadline).trace = _ := congrArg Prod.fst
    (execute_bind respond past (timeoutAt deadline self.discoverRequiredAddresses) _)
  refine ⟨_, _, htrace, ?_⟩
  rw [← hfound]
  exact execute_runs _ _ _

theorem CycleRun.discovers_unique {addresses addresses' : DiscoveredAddresses}
    {run : self.CycleRun} (h : run.Discovers addresses) (h' : run.Discovers addresses') :
    addresses = addresses' := by
  obtain ⟨discovery, rest, htrace, hdiscovery⟩ := h
  obtain ⟨discovery', rest', htrace', hdiscovery'⟩ := h'
  obtain ⟨-, hsame, -⟩ := runs_unique hdiscovery hdiscovery' (htrace.symm.trans htrace')
  exact Option.some.inj hsame

end Updater

end

end Cirrusync
