import Cirrusync.Backoff
import Cirrusync.CycleCount
import Cirrusync.RefusalDelay
import Cirrusync.Scenario
import Cirrusync.ValidConfig

/-!
The schedule of the daemon: what the failure count and the next delay are after
any sequence of cycle reports, and that the loop waits for no other delays.
-/

namespace Cirrusync

open Effect

theorem validateRange_ok {field : String} {value minimum maximum : Nat} {result : Unit}
    (h : validateRange field value minimum maximum = .ok result) :
    minimum ≤ value ∧ value ≤ maximum := by
  unfold validateRange at h
  have hrange := (ensure_ok _ _ _).mp h
  simpa using hrange

theorem Config.validate_interval [Externals] {config : Config} {result : Unit}
    (h : config.validate = .ok result) :
    minIntervalSeconds ≤ config.intervalSeconds ∧
      config.intervalSeconds ≤ maxIntervalSeconds := by
  unfold Config.validate at h
  obtain ⟨_, hinterval, -⟩ := (except_bind_ok _ _ _).mp h
  exact validateRange_ok hinterval

/-- The delay that an error carries is at most what the client clamps it to. -/
def CloudflareError.Clamped (error : CloudflareError) : Prop :=
  ∀ delay, error.retryAfter = some delay → delay ≤ maxRetryAfter

/-- The delays that the failures carry are clamped. -/
def CycleReport.Clamped (report : CycleReport) : Prop :=
  ∀ failure ∈ report.failures, ∀ delay, failure.retryAfter = some delay →
    delay ≤ maxRetryAfter

namespace CycleReport

theorem retryAfter_le {report : CycleReport} (h : report.Clamped) {longest : Nat}
    (hlongest : report.retryAfter = some longest) : longest ≤ maxRetryAfter := by
  have hmember := (List.max?_eq_some_iff.mp hlongest).1
  obtain ⟨failure, hfailure, hdelay⟩ := List.mem_filterMap.mp hmember
  exact h failure hfailure longest hdelay

/-- The bounds of a delay after an unsuccessful report. -/
theorem retryDelay_bounds {report : CycleReport} (h : report.Clamped) {interval : Nat}
    (hinterval : seconds 60 ≤ interval) (consecutiveFailures jitterPercent : Nat) :
    seconds 2 ≤ retryDelay report consecutiveFailures interval jitterPercent ∧
      retryDelay report consecutiveFailures interval jitterPercent ≤
        max interval (seconds 3600) ∧
      (report.hasAuthenticationFailure = true →
        seconds 300 ≤ retryDelay report consecutiveFailures interval jitterPercent) := by
  obtain ⟨hlower, hupper⟩ := backoffDelay_bounds consecutiveFailures jitterPercent
  have hretry : ∀ longest, report.retryAfter = some longest → longest ≤ seconds 3600 :=
    fun longest hlongest => retryAfter_le h hlongest
  unfold retryDelay
  simp only [maxBackoff, seconds] at *
  cases hauthentication : report.hasAuthenticationFailure with
  | true =>
      simp only [if_true]
      cases hlongest : report.retryAfter with
      | none => simp only; omega
      | some longest =>
          have hle := hretry longest hlongest
          simp only
          omega
  | false =>
      simp only [Bool.false_eq_true, if_false, false_implies, and_true]
      cases hretryable : report.hasRetryableFailure with
      | true =>
          simp only [if_true]
          cases hlongest : report.retryAfter with
          | none => simp only; omega
          | some longest =>
              have hle := hretry longest hlongest
              simp only
              omega
      | false =>
          simp only [Bool.false_eq_true, if_false]
          cases hlongest : report.retryAfter with
          | none => simp only; omega
          | some longest =>
              have hle := hretry longest hlongest
              simp only
              omega

end CycleReport

/-- The unsuccessful reports since the last successful one. -/
def unsuccessfulRun (reports : List CycleReport) : Nat :=
  (reports.reverse.takeWhile fun report => !report.isSuccess).length

theorem unsuccessfulRun_success (reports : List CycleReport) {report : CycleReport}
    (h : report.isSuccess = true) : unsuccessfulRun (reports ++ [report]) = 0 := by
  simp [unsuccessfulRun, h]

theorem unsuccessfulRun_failure (reports : List CycleReport) {report : CycleReport}
    (h : report.isSuccess = false) :
    unsuccessfulRun (reports ++ [report]) = unsuccessfulRun reports + 1 := by
  simp [unsuccessfulRun, h]

namespace Updater

variable [Externals] (self : Updater)

omit [Externals] in
/-- What `schedule` comes to. -/
theorem runs_schedule {report : CycleReport} {failures : Nat} {trace : List Step}
    {result : Nat × Nat} (hrun : Runs (self.schedule report failures) trace result) :
    (report.isSuccess = true ∧ trace = [] ∧
        result = (0, seconds self.config.intervalSeconds)) ∨
      report.isSuccess = false ∧ ∃ jitter, trace = [⟨.act .jitterPercent, jitter⟩] ∧
        result = (min (failures + 1) (2 ^ 32 - 1),
          retryDelay report (min (failures + 1) (2 ^ 32 - 1))
            (seconds self.config.intervalSeconds) jitter) := by
  unfold schedule at hrun
  cases hsuccess : report.isSuccess with
  | true =>
      simp only [hsuccess, if_true, Program.pure_eq, runs_done_iff] at hrun
      exact .inl ⟨rfl, hrun⟩
  | false =>
      simp only [hsuccess, Bool.false_eq_true, if_false, act_eq, Program.ask_bind,
        Program.done_bind, Program.pure_eq, runs_ask_iff, runs_done_iff] at hrun
      obtain ⟨jitter, _, rfl, rfl, rfl⟩ := hrun
      exact .inr ⟨rfl, jitter, rfl, rfl⟩

/-- The reports that the loop has been fed, with any jitter, and the delay and the
failure count that they have led to. -/
inductive Fed : List CycleReport → Nat → Nat → Prop where
  | start : Fed [] 0 0
  | report {reports : List CycleReport} {delay failures delay' failures' : Nat}
      {report : CycleReport} {drawing : List Step} :
      Fed reports delay failures →
      Runs (self.schedule report failures) drawing (failures', delay') →
      Fed (reports ++ [report]) delay' failures'

omit [Externals] in
/-- The count is that of the unsuccessful reports, saturated. -/
theorem Fed.failures {reports : List CycleReport} {delay failures : Nat}
    (h : self.Fed reports delay failures) :
    failures = min (unsuccessfulRun reports) (2 ^ 32 - 1) := by
  induction h with
  | start => rfl
  | @report reports _ failures _ _ report _ _ hschedule ih =>
      rcases self.runs_schedule hschedule with ⟨hsuccess, -, hresult⟩ |
        ⟨hfailed, jitter, -, hresult⟩
      · have hcount := unsuccessfulRun_success reports hsuccess
        cases hresult
        omega
      · have hcount := unsuccessfulRun_failure reports hfailed
        cases hresult
        omega

omit [Externals] in
theorem Fed.nil {delay failures : Nat} (h : self.Fed [] delay failures) : delay = 0 := by
  generalize hreports : ([] : List CycleReport) = reports at h
  cases h with
  | start => rfl
  | report => simp at hreports

/-- The bounds of the delay and the count that the last report has led to. -/
structure Scheduled (reports : List CycleReport) (report : CycleReport)
    (delay failures : Nat) : Prop where
  success : report.isSuccess = true →
    delay = seconds self.config.intervalSeconds ∧ failures = 0
  count : report.isSuccess = false →
    failures = min (unsuccessfulRun (reports ++ [report])) (2 ^ 32 - 1)
  retryAfter : report.isSuccess = false → ∀ failure ∈ report.failures, ∀ wanted,
    failure.retryAfter = some wanted → wanted ≤ delay
  atLeast : report.isSuccess = false → seconds 2 ≤ delay
  atMost : report.isSuccess = false →
    delay ≤ max (seconds self.config.intervalSeconds) (seconds 3600)
  authentication : report.isSuccess = false → report.hasAuthenticationFailure = true →
    seconds 300 ≤ delay
  waits : 0 < delay

/-- The delay and the failure count after a report are those that the schedule promises, whatever
reports have come before. The count is that of the failures since the last success, and the delay
is the greatest of what the policies ask for. -/
theorem Fed.scheduled {reports : List CycleReport} {report : CycleReport}
    {delay failures : Nat} (h : self.Fed (reports ++ [report]) delay failures)
    (hvalid : self.config.validate = .ok ()) (hclamped : report.Clamped) :
    self.Scheduled reports report delay failures := by
  have hcount := h.failures
  have hinterval : seconds 60 ≤ seconds self.config.intervalSeconds := by
    have hbounds := (Config.validate_interval hvalid).1
    simp only [minIntervalSeconds] at hbounds
    simp only [seconds]
    omega
  generalize hall : reports ++ [report] = all at h
  cases h with
  | start => simp at hall
  | @report _ _ failuresBefore _ _ last _ hbefore hschedule =>
      obtain ⟨rfl, hlast⟩ := List.append_inj' hall rfl
      cases hlast
      rcases self.runs_schedule hschedule with ⟨hsuccess, -, hresult⟩ |
        ⟨hfailed, jitter, -, hresult⟩
      · cases hresult
        have hnot : ¬ report.isSuccess = false := by simp [hsuccess]
        have hwaits : 0 < seconds self.config.intervalSeconds := by
          simp only [seconds] at hinterval ⊢
          omega
        exact ⟨fun _ => ⟨rfl, rfl⟩, fun h => absurd h hnot, fun h => absurd h hnot,
          fun h => absurd h hnot, fun h => absurd h hnot, fun h => absurd h hnot, hwaits⟩
      · cases hresult
        have hnot : ¬ report.isSuccess = true := by simp [hfailed]
        obtain ⟨hlower, hupper, hauthentication⟩ := CycleReport.retryDelay_bounds hclamped
          hinterval (min (failuresBefore + 1) (2 ^ 32 - 1)) jitter
        have hwaits : 0 < seconds 2 := by decide
        exact ⟨fun h => absurd h hnot, fun _ => hcount,
          fun _ failure member wanted hwanted =>
            CycleReport.le_retryDelay member hwanted _ _ _,
          fun _ => hlower, fun _ => hupper, fun _ => hauthentication,
          Nat.lt_of_lt_of_le hwaits hlower⟩

end Updater

theorem CycleReport.Clamped.push {report : CycleReport} (h : report.Clamped)
    {failure : CycleFailure}
    (hfailure : ∀ delay, failure.retryAfter = some delay → delay ≤ maxRetryAfter) :
    (report.push failure).Clamped := by
  intro other member delay hdelay
  rcases List.mem_append.mp member with member | member
  · exact h other member delay hdelay
  · rw [List.mem_singleton.mp member] at hdelay
    exact hfailure delay hdelay

theorem CloudflareError.Clamped.of_none {error : CloudflareError}
    (h : error.retryAfter = none) : error.Clamped := by
  intro delay hdelay
  rw [h] at hdelay
  cases hdelay

section

variable [Externals]

namespace CloudflareClient

variable (self : CloudflareClient)

theorem send_clamped {request : Request} {trace : List Step} {error : CloudflareError}
    (hrun : Runs (self.send request) trace (.error error)) : error.Clamped := by
  obtain ⟨outcome, -, hreceive⟩ := (self.runs_send_iff _ _ _).mp hrun
  exact (receive_error hreceive.symm).2

theorem sendInZone_clamped {zoneId : String} {request : Request} {trace : List Step}
    {error : CloudflareError}
    (hrun : Runs (self.sendInZone zoneId request) trace (.error error)) : error.Clamped := by
  obtain ⟨outcome, -, hreceive⟩ := (self.runs_sendInZone_iff _ _ _ _).mp hrun
  exact (receive_error hreceive.symm).2

/-- An error of the resolution by id is clamped, since it is that of a response, one of the
cache's zone or one of the code's own. -/
theorem resolveExplicitZoneId_clamped {zoneName zoneId : String} {trace : List Step}
    {error : CloudflareError}
    (hrun : Runs (self.resolveExplicitZoneId zoneName zoneId) trace (.error error)) :
    error.Clamped := by
  simp only [resolveExplicitZoneId, act_eq, Program.ask_bind, Program.done_bind,
    runs_ask_iff] at hrun
  obtain ⟨cached, rest, -, hrest⟩ := hrun
  cases cached with
  | some cachedZoneId => cases hrest
  | none =>
      obtain ⟨_, _, result, -, hsend, hrest⟩ := (runs_bind_iff _ _ _ _).mp hrest
      cases result with
      | error sendError =>
          cases hrest
          exact self.send_clamped hsend
      | ok response =>
          cases hcheck : self.checkExplicitZone zoneName zoneId response.result with
          | error checkError =>
              simp only [hcheck, Program.pure_eq, runs_done_iff] at hrest
              cases hrest.2
              simp only [checkExplicitZone, ensure_bind_error, ensure_error] at hcheck
              apply CloudflareError.Clamped.of_none
              rcases hcheck with ⟨-, rfl⟩ | ⟨-, ⟨-, rfl⟩ | ⟨-, -, rfl⟩⟩
              · rfl
              · rfl
              · rfl
          | ok value =>
              simp only [hcheck, Program.pure_eq, runs_ask_iff, runs_done_iff] at hrest
              obtain ⟨_, _, -, -, hresult⟩ := hrest
              cases hresult

/-- An error of the loop over the pages of zones is clamped. The induction is on the pages that
are left, and an error that the loop makes itself asks for no delay. -/
theorem zonePages_clamped {zoneName : String} {left page : Nat}
    {exactMatch inactiveMatch : Option String} {trace : List Step} {error : CloudflareError}
    (hrun : Runs (self.zonePages zoneName left page exactMatch inactiveMatch) trace
      (.error error)) : error.Clamped := by
  induction left generalizing page exactMatch inactiveMatch trace with
  | zero =>
      cases hrun
      exact .of_none rfl
  | succ left ih =>
      unfold zonePages at hrun
      obtain ⟨_, _, result, -, hsend, hrest⟩ := (runs_bind_iff _ _ _ _).mp hrun
      cases result with
      | error sendError =>
          cases hrest
          exact self.send_clamped hsend
      | ok response =>
          simp only at hrest
          split at hrest
          · rename_i scanError hscan
            cases hrest
            rw [scanZones_eq] at hscan
            split at hscan
            · cases hscan
            · cases hscan
            · cases hscan
              exact .of_none rfl
          · split at hrest
            · exact ih hrest
            · split at hrest
              · rename_i concludeError hconclude
                cases hrest
                unfold concludeZone at hconclude
                split at hconclude
                · cases hconclude
                · split at hconclude <;> cases hconclude <;> exact .of_none rfl
              · obtain ⟨_, _, -, hdone⟩ := (runs_ask_iff _ _ _ _).mp hrest
                cases hdone

theorem resolveZoneId_clamped {zoneName : String} {explicitZoneId : Option String}
    {trace : List Step} {error : CloudflareError}
    (hrun : Runs (self.resolveZoneId zoneName explicitZoneId) trace (.error error)) :
    error.Clamped := by
  cases explicitZoneId with
  | some zoneId => exact self.resolveExplicitZoneId_clamped hrun
  | none =>
      obtain ⟨cached, rest, -, hrest⟩ := (runs_ask_iff _ _ _ _).mp hrun
      cases cached with
      | some cachedZoneId => cases hrest
      | none => exact self.zonePages_clamped hrest

theorem recordPages_clamped {zoneId recordType name : String} {left page : Nat}
    {exactMatch : Option DnsRecord} {trace : List Step} {error : CloudflareError}
    (hrun : Runs (self.recordPages zoneId recordType name left page exactMatch) trace
      (.error error)) : error.Clamped := by
  induction left generalizing page exactMatch trace with
  | zero =>
      cases hrun
      exact .of_none rfl
  | succ left ih =>
      unfold recordPages at hrun
      obtain ⟨_, _, result, -, hsend, hrest⟩ := (runs_bind_iff _ _ _ _).mp hrun
      cases result with
      | error sendError =>
          cases hrest
          exact self.sendInZone_clamped hsend
      | ok response =>
          simp only at hrest
          split at hrest
          · rename_i scanError hscan
            cases hrest
            rw [scanRecords_eq] at hscan
            rw [((recordVerdict_error_iff _ _ _ _).mp hscan).2]
            exact .of_none rfl
          · split at hrest
            · exact ih hrest
            · cases hrest

end CloudflareClient

omit [Externals] in
theorem map_error {α β : Type} {f : α → β} {result : Except CloudflareError α}
    {error : CloudflareError} (h : result.map f = .error error) : result = .error error := by
  cases result with
  | ok value => cases h
  | error failed =>
      cases h
      rfl

namespace Updater

variable (self : Updater)

theorem Plans.clamped {record : RecordConfig} {address : IpAddr} {trace : List Step}
    {stage : FailureStage} {error : CloudflareError}
    (h : self.Plans record address trace (.error (stage, error))) : error.Clamped := by
  cases h with
  | zoneFailed hzone => exact self.cloudflare.resolveZoneId_clamped hzone
  | lookupFailed _ hfind => exact self.cloudflare.recordPages_clamped hfind
  | recheckFailed _ _ hfind => exact self.cloudflare.recordPages_clamped hfind
  | disabled => exact .of_none rfl

theorem Executes.clamped {plan : RecordPlan} {trace : List Step}
    {stage : FailureStage} {error : CloudflareError}
    (h : self.Executes plan trace (.error (stage, error))) : error.Clamped := by
  generalize houtcome : (Except.error (stage, error) :
    Except (FailureStage × CloudflareError) RecordOutcome) = outcome at h
  cases h with
  | unchanged => cases houtcome
  | @update _ _ _ response result hresult =>
      cases result with
      | ok updated => cases houtcome
      | error failed =>
          cases houtcome
          exact (receive_error (map_error hresult.symm)).2
  | @create _ _ response result hresult =>
      cases result with
      | ok created => cases houtcome
      | error failed =>
          cases houtcome
          exact (receive_error (map_error hresult.symm)).2

/-- What the outcome of a record adds to a report is clamped. -/
theorem settle_clamped {record : RecordConfig} {report : CycleReport} (h : report.Clamped)
    {outcome : Except (FailureStage × CloudflareError) RecordOutcome}
    (houtcome : ∀ stage error, outcome = .error (stage, error) → error.Clamped) :
    (settle record report outcome).value.Clamped := by
  match outcome with
  | .ok .unchanged => exact h
  | .ok .updated => exact h
  | .ok .created => exact h
  | .error (stage, error) =>
      have hpush : (report.push (cloudflareFailure record.name stage error)).Clamped :=
        h.push (houtcome stage error rfl)
      simp only [settle]
      split
      · exact hpush
      · exact hpush

/-- A visit adds clamped failures only. -/
theorem Visits.clamped {deadline : Instant} {addresses : DiscoveredAddresses}
    {record : RecordConfig} {report : CycleReport} {trace : List Step}
    {flow : Flow CycleReport}
    (h : self.Visits deadline addresses record report trace flow)
    (hclamped : report.Clamped) : flow.value.Clamped := by
  have hexpired : (report.push cycleDeadlineFailure).Clamped :=
    hclamped.push fun delay hdelay => by cases hdelay
  cases h with
  | stopped => exact hclamped
  | noAddress => exact hclamped
  | planExpired => exact hexpired
  | planLate => exact hexpired
  | planFailed _ hplanned =>
      obtain ⟨trace', hrun, -⟩ := runs_timeoutAt_some hplanned
      apply settle_clamped hclamped
      intro stage error heq
      cases heq
      exact Plans.clamped self (self.planRecord_plans hrun)
  | executed _ _ _ hexecutes =>
      apply settle_clamped hclamped
      intro stage error heq
      rw [heq] at hexecutes
      exact Executes.clamped self hexecutes

theorem VisitsAll.clamped {deadline : Instant} {addresses : DiscoveredAddresses}
    {records : List RecordConfig} {report final : CycleReport} {trace : List Step}
    (h : self.VisitsAll deadline addresses records report trace final)
    (hclamped : report.Clamped) : final.Clamped := by
  induction h with
  | done report => exact hclamped
  | next hvisit _ ih => exact ih (Visits.clamped self hvisit hclamped)
  | stop hvisit => exact Visits.clamped self hvisit hclamped

/-- The delays that the report of a cycle carries are clamped. -/
theorem runCycleLocked_clamped {trace : List Step} {report : CycleReport}
    (hrun : Runs self.runCycleLocked trace report) : report.Clamped := by
  have hdiscovery : ∀ addresses : DiscoveredAddresses, ∀ records : Nat,
      ({ records := records, failures := addresses.discoveryFailures } :
        CycleReport).Clamped := by
    intro addresses records failure member delay hdelay
    have hnone : failure.retryAfter = none := by
      rcases List.mem_append.mp member with member | member
      · unfold DiscoveredAddresses.discoveryFailure at member
        split at member
        · rw [List.mem_singleton.mp member]
        · cases member
      · unfold DiscoveredAddresses.discoveryFailure at member
        split at member
        · rw [List.mem_singleton.mp member]
        · cases member
    rw [hnone] at hdelay
    cases hdelay
  obtain ⟨now, cycle, -, hcycle⟩ := (runs_ask_iff _ _ _ _).mp hrun
  cases self.runCycleUntil_cycles hcycle with
  | undiscovered =>
      apply CycleReport.Clamped.push
      · intro failure member
        cases member
      · intro delay hdelay
        cases hdelay
  | unmanaged => exact hdiscovery _ _
  | visited _ _ hvisits => exact VisitsAll.clamped self hvisits (hdiscovery _ _)

/-- The iterations that a run of the loop has completed, with the reports of
their cycles and what the next one starts with. -/
inductive Completed : List CycleReport → List Step → Nat → Nat → Prop where
  | start : Completed [] [] 0 0
  | cycle {reports : List CycleReport} {past waiting cycle drawing : List Step}
      {delay failures delay' failures' : Nat} {report : CycleReport} :
      Completed reports past delay failures →
      Runs (waitDelay delay) waiting none →
      Runs (selectShutdown self.runCycleLocked) cycle (.completed report) →
      Runs (self.schedule report failures) drawing (failures', delay') →
      Completed (reports ++ [report])
        (past ++ (waiting ++ ⟨.act .newControl, ()⟩ :: (cycle ++ drawing))) delay' failures'

theorem Completed.fed {reports : List CycleReport} {past : List Step}
    {delay failures : Nat} (h : self.Completed reports past delay failures) :
    self.Fed reports delay failures ∧ ∀ report ∈ reports, report.Clamped := by
  induction h with
  | start => exact ⟨.start, fun report member => absurd member List.not_mem_nil⟩
  | cycle _ _ hselect hschedule ih =>
      have hcycle := runs_selectShutdown self.runCycleLocked_cycle hselect
      refine ⟨.report ih.1 hschedule, fun report member => ?_⟩
      rcases List.mem_append.mp member with member | member
      · exact ih.2 report member
      · rw [List.mem_singleton.mp member]
        exact self.runCycleLocked_clamped hcycle

end Updater

end

/-- An element that is not in the first part of a list is in the second. -/
theorem append_eq_later {α : Type} {first second before after : List α} {a : α}
    (h : first ++ second = before ++ a :: after) (hnot : a ∉ first) :
    ∃ middle, before = first ++ middle ∧ second = middle ++ a :: after := by
  rcases append_eq_cons_split h with ⟨rest, rfl⟩ | hlater
  · exact absurd (List.mem_append_right _ List.mem_cons_self) hnot
  · exact hlater

/-- The step in which a sleep begins. -/
def sleepBegun (duration : Nat) : Step := ⟨.act (.begin (.sleep duration)), ()⟩

/-- The step in which a cycle gets its control, before it starts. -/
def cycleBegun : Step := ⟨.act .newControl, ()⟩

/-- A sleep that no signal ends. -/
def slept (duration : Nat) : List Step :=
  [sleepBegun duration, ⟨.act .pollShutdown, none⟩, ⟨.finish (.sleep duration), ()⟩]

/-- What a wait comes to: to nothing without a delay, and else to a sleep of the delay,
which is finished or ended by the signal. -/
theorem waitDelay_cases {delay : Nat} {signalled : Option (Except String Unit)}
    {waiting : List Step} (hrun : Runs (waitDelay delay) waiting signalled) :
    delay = 0 ∧ signalled = none ∧ waiting = [] ∨
      delay ≠ 0 ∧ signalled = none ∧ waiting = slept delay ∨
      delay ≠ 0 ∧ ∃ signalResult, signalled = some signalResult ∧
        waiting = [sleepBegun delay, ⟨.act .pollShutdown, some signalResult⟩] := by
  unfold waitDelay at hrun
  split at hrun
  · rename_i hdelay
    cases hrun
    exact .inl ⟨hdelay, rfl, rfl⟩
  · rename_i hdelay
    obtain ⟨_, polling, rfl, hpolling⟩ := (runs_ask_iff _ _ _ _).mp hrun
    obtain ⟨polled, rest, rfl, hrest⟩ := (runs_ask_iff _ _ _ _).mp hpolling
    cases polled with
    | some signalResult =>
        cases hrest
        exact .inr (.inr ⟨hdelay, signalResult, rfl, rfl⟩)
    | none =>
        obtain ⟨_, done, rfl, hdone⟩ := (runs_ask_iff _ _ _ _).mp hrest
        cases hdone
        exact .inr (.inl ⟨hdelay, rfl, rfl⟩)

/-- A sleep that a wait begins is its first step, and that of its delay. -/
theorem waitDelay_sleeps {delay duration : Nat} {signalled : Option (Except String Unit)}
    {lead rest : List Step}
    (hrun : Runs (waitDelay delay) (lead ++ sleepBegun duration :: rest) signalled) :
    lead = [] ∧ duration = delay ∧ delay ≠ 0 := by
  have hfirst : ∀ {tail : List Step}, sleepBegun duration ∉ tail →
      lead ++ sleepBegun duration :: rest = sleepBegun delay :: tail →
      lead = [] ∧ duration = delay := by
    intro tail hnot hsplit
    cases lead with
    | nil =>
        obtain ⟨hhead, -⟩ := List.cons_eq_cons.mp hsplit
        cases hhead
        exact ⟨rfl, rfl⟩
    | cons first lead =>
        obtain ⟨-, rfl⟩ := List.cons_eq_cons.mp hsplit
        exact absurd (List.mem_append_right _ List.mem_cons_self) hnot
  rcases waitDelay_cases hrun with ⟨-, -, hnil⟩ | ⟨hdelay, -, hslept⟩ |
    ⟨hdelay, signalResult, -, hended⟩
  · simp at hnil
  · obtain ⟨hlead, hduration⟩ := hfirst (by simp [sleepBegun]) hslept
    exact ⟨hlead, hduration, hdelay⟩
  · obtain ⟨hlead, hduration⟩ := hfirst (by simp [sleepBegun]) hended
    exact ⟨hlead, hduration, hdelay⟩

theorem cycleBegun_notMem_waitDelay {delay : Nat} {signalled : Option (Except String Unit)}
    {waiting : List Step} (hrun : Runs (waitDelay delay) waiting signalled) :
    cycleBegun ∉ waiting := by
  rcases waitDelay_cases hrun with ⟨-, -, rfl⟩ | ⟨-, -, rfl⟩ | ⟨-, signalResult, -, rfl⟩
  · exact List.not_mem_nil
  · simp [slept, sleepBegun, cycleBegun]
  · simp [sleepBegun, cycleBegun]

/-- Operations other than those with which the loop begins to sleep and begins a cycle. -/
def isInnerOp : Op → Bool
  | .act (.begin (.sleep _)) | .act .newControl => false
  | _ => true

def InnerOp (op : Op) : Prop := isInnerOp op = true

theorem CycleOp.inner {op : Op} (h : CycleOp op) : InnerOp op := by
  unfold InnerOp isInnerOp
  split
  · cases h
  · cases h
  · rfl

theorem drainOrDrop_inner {α : Type} {signalResult : Except String Unit} {cycle : M α}
    (h : Uses CycleOp cycle) : Uses InnerOp (drainOrDrop signalResult cycle) := by
  simp only [drainOrDrop, act_eq, Program.ask_bind, Program.done_bind, Program.pure_eq,
    uses_ask]
  refine ⟨rfl, fun _ => ⟨rfl, fun inFlight => ?_⟩⟩
  cases inFlight with
  | true => exact uses_bind (uses_mono h fun _ => CycleOp.inner) fun _ => trivial
  | false => trivial

theorem selectCycle_inner {α : Type} {cycle : M α} (h : Uses CycleOp cycle) :
    Uses InnerOp (selectCycle cycle) := by
  induction cycle with
  | done value => trivial
  | ask op next ih =>
      have hrest : ∀ answer, Uses InnerOp (selectCycle (next answer)) :=
        fun answer => ih answer (h.2 answer)
      have hop : InnerOp op := CycleOp.inner h.1
      cases op with
      | act action => exact ⟨hop, hrest⟩
      | finish wait =>
          unfold selectCycle
          refine ⟨rfl, fun polled => ?_⟩
          cases polled with
          | none => exact ⟨hop, hrest⟩
          | some signalResult => exact drainOrDrop_inner h
      | finishBefore deadline wait =>
          unfold selectCycle
          refine ⟨rfl, fun polled => ?_⟩
          cases polled with
          | none => exact ⟨hop, hrest⟩
          | some signalResult => exact drainOrDrop_inner h

theorem selectShutdown_inner {α : Type} {cycle : M α} (h : Uses CycleOp cycle) :
    Uses InnerOp (selectShutdown cycle) := by
  refine ⟨rfl, fun polled => ?_⟩
  cases polled with
  | none => exact selectCycle_inner h
  | some signalResult => exact drainOrDrop_inner h

namespace Updater

variable [Externals] (self : Updater)

/-- Where a run of the loop begins to sleep or begins a cycle: some iterations are
completed before, and the step is one of the wait that follows them or comes after it. -/
theorem runLoopFrom_begins {mark : Step} (hmark : isInnerOp mark.op = false)
    {reports : List CycleReport} {past : List Step} {delay failures iterations : Nat}
    {result : LoopResult} {before after : List Step}
    (hpast : self.Completed reports past delay failures)
    (hrun : Runs (self.runLoopFrom iterations delay failures) (before ++ mark :: after) result) :
    ∃ reports earlier delay failures waiting waited,
      self.Completed reports earlier delay failures ∧ Runs (waitDelay delay) waiting waited ∧
      ((∃ lead rest, waiting = lead ++ mark :: rest ∧ past ++ before = earlier ++ lead) ∨
        mark = cycleBegun ∧ waited = none ∧ past ++ before = earlier ++ waiting) := by
  have houter : ∀ {step : Step}, InnerOp step.op → step ≠ mark := by
    rintro step hinner rfl
    unfold InnerOp at hinner
    rw [hmark] at hinner
    cases hinner
  induction iterations generalizing reports past delay failures before with
  | zero =>
      obtain ⟨hnil, -⟩ := (runs_done_iff _ _ _).mp hrun
      simp at hnil
  | succ iterations ih =>
      unfold runLoopFrom at hrun
      obtain ⟨waiting, later, waited, hsplit, hwait, hrest⟩ := (runs_bind_iff _ _ _ _).mp hrun
      rcases append_eq_cons_split hsplit.symm with ⟨rest, hwaiting⟩ | ⟨middle, rfl, rfl⟩
      · exact ⟨reports, past, delay, failures, waiting, waited, hpast, hwait,
          .inl ⟨before, rest, hwaiting, rfl⟩⟩
      cases waited with
      | some signalResult =>
          obtain ⟨hnil, -⟩ := (runs_done_iff _ _ _).mp hrest
          simp at hnil
      | none =>
          simp only [act_eq, Program.ask_bind, Program.done_bind] at hrest
          obtain ⟨_, selecting, hsplit, hselecting⟩ := (runs_ask_iff _ _ _ _).mp hrest
          cases middle with
          | nil =>
              obtain ⟨rfl, -⟩ := List.cons_eq_cons.mp hsplit
              rw [List.append_nil]
              exact ⟨reports, past, delay, failures, waiting, none, hpast, hwait,
                .inr ⟨rfl, rfl, rfl⟩⟩
          | cons first middle =>
              obtain ⟨rfl, hmiddle⟩ := List.cons_eq_cons.mp hsplit
              obtain ⟨cycle, scheduling, selected, rfl, hselect, hscheduling⟩ :=
                (runs_bind_iff _ _ _ _).mp hselecting
              have hcycle : mark ∉ cycle := fun member =>
                houter (uses_runs (selectShutdown_inner self.runCycleLocked_cycle) hselect _
                  member) rfl
              obtain ⟨rest, rfl, hscheduled⟩ := append_eq_later hmiddle.symm hcycle
              cases selected with
              | signalled signalResult =>
                  obtain ⟨rfl, -⟩ := (runs_done_iff _ _ _).mp hscheduling
                  simp at hscheduled
              | completed report =>
                  obtain ⟨drawing, following, ⟨failures', delay'⟩, rfl, hschedule, hloop⟩ :=
                    (runs_bind_iff _ _ _ _).mp hscheduling
                  have hdrawing : mark ∉ drawing := by
                    rcases runs_schedule self hschedule with ⟨-, rfl, -⟩ | ⟨-, jitter, rfl, -⟩
                    · exact List.not_mem_nil
                    · intro member
                      have heq := List.mem_singleton.mp member
                      rw [heq] at hmark
                      cases hmark
                  obtain ⟨last, rfl, rfl⟩ := append_eq_later hscheduled hdrawing
                  simpa using ih (Completed.cycle hpast hwait hselect hschedule) hloop

/-- A sleep that the loop begins has the delay that the completed iterations have
led to. -/
theorem runLoop_sleeps {iterations : Nat} {result : LoopResult} {before after : List Step}
    {duration : Nat}
    (hrun : Runs (self.runLoop iterations) (before ++ sleepBegun duration :: after) result) :
    ∃ reports failures, self.Completed reports before duration failures ∧ duration ≠ 0 := by
  obtain ⟨reports, earlier, delay, failures, waiting, waited, hcompleted, hwait, hplace⟩ :=
    self.runLoopFrom_begins rfl Completed.start hrun
  rcases hplace with ⟨lead, rest, rfl, hbefore⟩ | ⟨hmark, -, -⟩
  · obtain ⟨rfl, rfl, hdelay⟩ := waitDelay_sleeps hwait
    rw [List.append_nil] at hbefore
    obtain rfl : before = earlier := hbefore
    exact ⟨reports, failures, hcompleted, hdelay⟩
  · cases hmark

/-- A cycle that the loop begins comes right after the wait for the delay that the
completed iterations have led to, which no signal has ended. -/
theorem runLoop_cycles {iterations : Nat} {result : LoopResult} {before after : List Step}
    (hrun : Runs (self.runLoop iterations) (before ++ cycleBegun :: after) result) :
    ∃ reports earlier delay failures, self.Completed reports earlier delay failures ∧
      (delay = 0 ∧ before = earlier ∨ delay ≠ 0 ∧ before = earlier ++ slept delay) := by
  obtain ⟨reports, earlier, delay, failures, waiting, waited, hcompleted, hwait, hplace⟩ :=
    self.runLoopFrom_begins rfl Completed.start hrun
  refine ⟨reports, earlier, delay, failures, hcompleted, ?_⟩
  rcases hplace with ⟨lead, rest, rfl, -⟩ | ⟨-, rfl, hbefore⟩
  · exact absurd (List.mem_append_right _ List.mem_cons_self) (cycleBegun_notMem_waitDelay hwait)
  · rcases waitDelay_cases hwait with ⟨hdelay, -, rfl⟩ | ⟨hdelay, -, rfl⟩ | ⟨-, _, hsome, -⟩
    · rw [List.append_nil] at hbefore
      exact .inl ⟨hdelay, hbefore⟩
    · exact .inr ⟨hdelay, hbefore⟩
    · cases hsome

end Updater

section

variable [Externals] (self : Updater)

/-- The delay that some completed iterations have led to is that of their last report. -/
theorem Updater.Completed.scheduled {reports : List CycleReport} {past : List Step}
    {delay failures : Nat} (h : self.Completed reports past delay failures)
    (hvalid : self.config.validate = .ok ()) :
    reports = [] ∧ past = [] ∧ delay = 0 ∨ ∃ earlier report, reports = earlier ++ [report] ∧
      self.Scheduled earlier report delay failures := by
  obtain ⟨hfed, hclamped⟩ := Updater.Completed.fed self h
  rcases List.eq_nil_or_concat reports with rfl | ⟨earlier, report, rfl⟩
  · refine .inl ⟨rfl, ?_, Updater.Fed.nil self hfed⟩
    generalize hreports : ([] : List CycleReport) = reports at h
    cases h with
    | start => rfl
    | cycle => simp at hreports
  · rw [List.concat_eq_append] at hfed hclamped ⊢
    have hlast := hclamped report (List.mem_append_right _ List.mem_cons_self)
    exact .inr ⟨earlier, report, rfl, Updater.Fed.scheduled self hfed hvalid hlast⟩

/-- The schedule of the daemon. Whatever reports the loop is fed, with whatever
jitter, the failure count and the next delay keep their bounds. Whenever a run of the
loop begins to wait, it waits for the delay that the reports of the cycles completed
before have led to; and whenever it begins a cycle, other than its first, it has just
waited for that delay to the end, after the last completed cycle and nothing else. -/
theorem daemon_schedule (hvalid : self.config.validate = .ok ()) :
    (∀ (reports : List CycleReport) (report : CycleReport) (delay failures : Nat),
      report.Clamped → self.Fed (reports ++ [report]) delay failures →
      self.Scheduled reports report delay failures) ∧
    (∀ (iterations : Nat) (result : LoopResult) (before after : List Step) (duration : Nat),
      Runs (self.runLoop iterations) (before ++ sleepBegun duration :: after) result →
      ∃ reports report failures, self.Completed (reports ++ [report]) before duration failures ∧
        self.Scheduled reports report duration failures) ∧
    ∀ (iterations : Nat) (result : LoopResult) (before after : List Step),
      Runs (self.runLoop iterations) (before ++ cycleBegun :: after) result →
      before = [] ∨ ∃ reports report earlier delay failures,
        self.Completed (reports ++ [report]) earlier delay failures ∧
        self.Scheduled reports report delay failures ∧ before = earlier ++ slept delay := by
  refine ⟨?_, ?_, ?_⟩
  · intro reports report delay failures hclamped hfed
    exact Updater.Fed.scheduled self hfed hvalid hclamped
  · intro iterations result before after duration hrun
    obtain ⟨all, failures, hcompleted, hnonzero⟩ := self.runLoop_sleeps hrun
    rcases hcompleted.scheduled self hvalid with ⟨-, -, hzero⟩ |
      ⟨reports, report, rfl, hscheduled⟩
    · exact absurd hzero hnonzero
    · exact ⟨reports, report, failures, hcompleted, hscheduled⟩
  · intro iterations result before after hrun
    obtain ⟨all, earlier, delay, failures, hcompleted, hbefore⟩ := self.runLoop_cycles hrun
    rcases hcompleted.scheduled self hvalid with ⟨-, rfl, rfl⟩ |
      ⟨reports, report, rfl, hscheduled⟩
    · rcases hbefore with ⟨-, rfl⟩ | ⟨hnonzero, -⟩
      · exact .inl rfl
      · exact absurd rfl hnonzero
    · rcases hbefore with ⟨rfl, -⟩ | ⟨-, rfl⟩
      · exact absurd (Updater.Scheduled.waits hscheduled) (Nat.lt_irrefl 0)
      · exact .inr ⟨reports, report, earlier, delay, failures, hcompleted, hscheduled, rfl⟩

end

section

attribute [local instance] exampleExternals

/-- The server refuses the token. -/
def refusedScenario : Scenario where
  server := fun _ _ => delivered 401 ""
  provider := creationScenario.provider

/-- Between the two cycles of a run in which the server refuses the token, the loop sleeps for
the five minutes that an authentication failure takes. -/
theorem daemon_schedule_refused : ∃ before after result,
    Runs (exampleUpdater.runLoop 2) (before ++ cycleBegun :: after) result ∧
    ∃ reports report earlier failures,
      exampleUpdater.Completed (reports ++ [report]) earlier (seconds 300) failures ∧
      exampleUpdater.Scheduled reports report (seconds 300) failures ∧
      before = earlier ++ slept (seconds 300) := by
  have hop : ((refusedScenario.trace (exampleUpdater.runLoop 2))[18]?).map Event.op =
      some (.act .newControl) := by
    decide +kernel
  obtain ⟨⟨_, _⟩, hstep, rfl⟩ := Option.map_eq_some_iff.mp hop
  have hrun := refusedScenario.runs_at (exampleUpdater.runLoop 2) hstep
  have hlast : (((refusedScenario.trace (exampleUpdater.runLoop 2)).take 18).map
      Event.op).getLast? = some (.finish (.sleep (seconds 300))) := by
    decide +kernel
  refine ⟨_, _, _, hrun, ?_⟩
  rcases (daemon_schedule exampleUpdater exampleConfig_valid).2.2 2 _ _ _ hrun with hnil |
    ⟨reports, report, earlier, delay, failures, hcompleted, hscheduled, hbefore⟩
  · rw [hnil] at hlast
    cases hlast
  · have hdelay : delay = seconds 300 := by
      rw [hbefore] at hlast
      simpa [slept] using hlast
    subst hdelay
    exact ⟨reports, report, earlier, failures, hcompleted, hscheduled, hbefore⟩

end

end Cirrusync
