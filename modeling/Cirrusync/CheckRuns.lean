import Cirrusync.Footprint

/-!
What the runs of a check can be, one inductive relation for each of its
functions. A mutation of the check comes right after a reading of the clock that
leaves it the budget of a request.
-/

namespace Cirrusync

open Effect

section

variable [Externals]

namespace CloudflareClient

variable (self : CloudflareClient)

/-- The request of `probe_record_edit`. -/
def probeRequest (zoneId : String) (record : DnsRecord) : Request :=
  .probeRecord zoneId record.id
    { recordType := record.recordType, name := record.name, ttl := record.ttl }

theorem runs_probeRecordEdit {zoneId : String} {record : DnsRecord} {trace : List Step}
    {result : Except CloudflareError DnsRecord}
    (hrun : Runs (self.probeRecordEdit zoneId record) trace result) :
    ∃ outcome, trace = exchange (probeRequest zoneId record) outcome ++
        evictions zoneId result ∧
      result = (receive self.apiToken (probeRequest zoneId record)
        outcome).map ApiResponse.result :=
  self.runs_resultInZone (fun _ => rfl) (fun _ => rfl) hrun

end CloudflareClient

namespace Updater

variable (self : Updater)

/-- A mutation begun at this reading has its budget before the deadline. -/
def HasBudget (deadline now : Instant) : Prop :=
  now ≤ deadline ∧ self.cloudflare.requestTimeout + mutationStartMargin ≤ deadline - now

omit [Externals] in
theorem runs_mutationCanFinishBefore {deadline : Instant} {trace : List Step} {fits : Bool}
    (hrun : Runs (self.mutationCanFinishBefore deadline) trace fits) :
    ∃ now, trace = [⟨.act .now, now⟩] ∧ (fits = true ↔ self.HasBudget deadline now) := by
  simp only [mutationCanFinishBefore, act_eq, Program.ask_bind, Program.done_bind,
    Program.pure_eq, runs_ask_iff, runs_done_iff] at hrun
  obtain ⟨now, _, rfl, rfl, rfl⟩ := hrun
  exact ⟨now, rfl, by simp [HasBudget]⟩

/-- The runs of `inspect_check_record`. -/
inductive Inspects (record : RecordConfig) (deadline : Instant) (proofs : ZoneProofs) :
    List Step → Except CheckLookupError (String × Option DnsRecord) → ZoneProofs → Prop where
  | zoneExpired {zoneTrace : List Step} :
      Runs (timeoutAt deadline (self.cloudflare.resolveZoneId record.zone record.zoneId))
        zoneTrace none →
      Inspects record deadline proofs zoneTrace (.error .deadline) proofs
  | zoneFailed {zoneTrace : List Step} {error : CloudflareError} :
      Runs (timeoutAt deadline (self.cloudflare.resolveZoneId record.zone record.zoneId))
        zoneTrace (some (.error error)) →
      Inspects record deadline proofs zoneTrace (.error (.cloudflare .zoneLookup error)) proofs
  | lookupExpired {zoneTrace lookup : List Step} {zoneId : String} :
      Runs (timeoutAt deadline (self.cloudflare.resolveZoneId record.zone record.zoneId))
        zoneTrace (some (.ok zoneId)) →
      Runs (timeoutAt deadline (self.cloudflare.findRecord zoneId record.recordType.asStr
        record.name)) lookup none →
      Inspects record deadline proofs (zoneTrace ++ lookup) (.error .deadline)
        (proofs.markResolved record zoneId)
  | lookupFailed {zoneTrace lookup : List Step} {zoneId : String} {error : CloudflareError} :
      Runs (timeoutAt deadline (self.cloudflare.resolveZoneId record.zone record.zoneId))
        zoneTrace (some (.ok zoneId)) →
      Runs (timeoutAt deadline (self.cloudflare.findRecord zoneId record.recordType.asStr
        record.name)) lookup (some (.error error)) →
      Inspects record deadline proofs (zoneTrace ++ lookup)
        (.error (.cloudflare .recordLookup error)) (proofs.markResolved record zoneId)
  | inspected {zoneTrace lookup : List Step} {zoneId : String} {existing : Option DnsRecord} :
      Runs (timeoutAt deadline (self.cloudflare.resolveZoneId record.zone record.zoneId))
        zoneTrace (some (.ok zoneId)) →
      Runs (timeoutAt deadline (self.cloudflare.findRecord zoneId record.recordType.asStr
        record.name)) lookup (some (.ok existing)) →
      Inspects record deadline proofs (zoneTrace ++ lookup) (.ok (zoneId, existing))
        (proofs.markResolved record zoneId)

/-- Every run of the inspection of a record is one of the cases of `Inspects`: the zone is
resolved or not, in time or not, and then the record is looked up, in time or not. -/
theorem inspectCheckRecord_inspected {record : RecordConfig} {deadline : Instant}
    {proofs proofs' : ZoneProofs} {trace : List Step}
    {inspected : Except CheckLookupError (String × Option DnsRecord)}
    (hrun : Runs (self.inspectCheckRecord record deadline proofs) trace (inspected, proofs')) :
    self.Inspects record deadline proofs trace inspected proofs' := by
  unfold inspectCheckRecord at hrun
  obtain ⟨zoneTrace, _, zone, rfl, hzone, hrest⟩ := (runs_bind_iff _ _ _ _).mp hrun
  match zone with
  | none =>
      cases hrest
      rw [List.append_nil]
      exact .zoneExpired hzone
  | some (.error error) =>
      cases hrest
      rw [List.append_nil]
      exact .zoneFailed hzone
  | some (.ok zoneId) =>
      obtain ⟨lookup, _, found, rfl, hfound, hrest⟩ := (runs_bind_iff _ _ _ _).mp hrest
      match found with
      | none =>
          cases hrest
          rw [List.append_nil]
          exact .lookupExpired hzone hfound
      | some (.error error) =>
          cases hrest
          rw [List.append_nil]
          exact .lookupFailed hzone hfound
      | some (.ok existing) =>
          cases hrest
          rw [List.append_nil]
          exact .inspected hzone hfound

/-- One more record that exists. -/
def countExisting (state : CheckState) : CheckState :=
  { state with report := { state.report with existing := state.report.existing + 1 } }

/-- Where a probe leads. -/
def settleProbe (record : RecordConfig) (zoneId : String) (state : CheckState) :
    Except CloudflareError DnsRecord → Flow CheckState
  | .ok _ => .next { state with proofs := state.proofs.markProven zoneId }
  | .error error => failCheck record.name .editPermission state error

/-- Where a creation leads. -/
def settleCreation (record : RecordConfig) (zoneId : String) (state : CheckState) :
    Except CloudflareError DnsRecord → Flow CheckState
  | .ok _ => .next
      { proofs := state.proofs.markProven zoneId
        report := { state.report with created := state.report.created + 1 } }
  | .error error => failCheck record.name .creation state error

/-- The runs of `handle_existing_check_record`. -/
inductive HandlesExisting (record : RecordConfig) (zoneId : String) (existing : DnsRecord)
    (options : CheckOptions) (state : CheckState) : List Step → Flow CheckState → Prop where
  | counted :
      options.allowEditProbe = false ∨ state.proofs.needsProof zoneId = false →
      HandlesExisting record zoneId existing options state [] (.next (countExisting state))
  | late {now : Instant} :
      options.allowEditProbe = true → state.proofs.needsProof zoneId = true →
      ¬ self.HasBudget options.deadline now →
      HandlesExisting record zoneId existing options state [⟨.act .now, now⟩]
        (.stop ((countExisting state).push checkDeadlineFailure))
  | probed {now : Instant} {outcome : HttpOutcome} {result : Except CloudflareError DnsRecord} :
      options.allowEditProbe = true → state.proofs.needsProof zoneId = true →
      self.HasBudget options.deadline now →
      result = (receive self.cloudflare.apiToken
        (CloudflareClient.probeRequest zoneId existing) outcome).map ApiResponse.result →
      HandlesExisting record zoneId existing options state
        (⟨.act .now, now⟩ :: mutationSteps zoneId
          (CloudflareClient.probeRequest zoneId existing) outcome result)
        (settleProbe record zoneId (countExisting state) result)

/-- Every run of the code for an existing record is one of the cases of `HandlesExisting`.
Either nothing is sent, or the edit probe begins and its answer tells what becomes of the
report. -/
theorem handleExistingCheckRecord_handles {record : RecordConfig} {zoneId : String}
    {existing : DnsRecord} {options : CheckOptions} {state : CheckState} {trace : List Step}
    {flow : Flow CheckState}
    (hrun : Runs (self.handleExistingCheckRecord record zoneId existing options state) trace
      flow) :
    self.HandlesExisting record zoneId existing options state trace flow := by
  unfold handleExistingCheckRecord at hrun
  simp only at hrun
  split at hrun
  · rename_i hskip
    cases hrun
    have hreason : options.allowEditProbe = false ∨
        state.proofs.needsProof zoneId = false := by simpa using hskip
    exact .counted hreason
  · rename_i hgoes
    have hprobes : options.allowEditProbe = true ∧ state.proofs.needsProof zoneId = true := by
      simpa using hgoes
    obtain ⟨_, rest, fits, rfl, hfits, hrest⟩ := (runs_bind_iff _ _ _ _).mp hrun
    obtain ⟨now, rfl, hbudget⟩ := self.runs_mutationCanFinishBefore hfits
    cases fits with
    | false =>
        have hnot : ¬ self.HasBudget options.deadline now := by simpa using hbudget
        cases hrest
        exact .late hprobes.1 hprobes.2 hnot
    | true =>
        simp only [Bool.not_true, Bool.false_eq_true, if_false] at hrest
        obtain ⟨_, _, probed, rfl, hprobe, hdone⟩ := (runs_bind_iff _ _ _ _).mp hrest
        unfold probeEditPermission at hprobe
        obtain ⟨_, _, result, rfl, hguarded, hresult⟩ := (runs_bind_iff _ _ _ _).mp hprobe
        obtain ⟨steps, rfl, hsend⟩ := runs_guarded hguarded
        obtain ⟨outcome, rfl, hanswer⟩ := self.cloudflare.runs_probeRecordEdit hsend
        have hhandles : self.HandlesExisting record zoneId existing options state _ _ :=
          .probed hprobes.1 hprobes.2 (hbudget.mp rfl) hanswer
        cases result with
        | ok updated =>
            cases hresult
            cases hdone
            simpa [mutationSteps, settleProbe, countExisting] using hhandles
        | error error =>
            cases hresult
            cases hdone
            simpa [mutationSteps, settleProbe, countExisting] using hhandles

/-- The runs of `handle_missing_check_record`. -/
inductive HandlesMissing (record : RecordConfig) (zoneId : String)
    (addresses : DiscoveredAddresses) (options : CheckOptions) (state : CheckState) :
    List Step → Flow CheckState → Prop where
  | disabled :
      record.createIfMissing = false →
      HandlesMissing record zoneId addresses options state []
        (.next (state.push (permanentFailure record.name .recordLookup
          "record does not exist and creation is disabled")))
  | creatable :
      record.createIfMissing = true → options.allowCreate = false →
      HandlesMissing record zoneId addresses options state []
        (.next { state with report :=
          { state.report with creatable := state.report.creatable + 1 } })
  | noAddress {message : String} :
      record.createIfMissing = true → options.allowCreate = true →
      addresses.forRecord record = .error message →
      HandlesMissing record zoneId addresses options state [] (.next state)
  | late {address : IpAddr} {now : Instant} :
      record.createIfMissing = true → options.allowCreate = true →
      addresses.forRecord record = .ok address → ¬ self.HasBudget options.deadline now →
      HandlesMissing record zoneId addresses options state [⟨.act .now, now⟩]
        (.stop (state.push checkDeadlineFailure))
  | recheckExpired {address : IpAddr} {now : Instant} {recheck : List Step} :
      record.createIfMissing = true → options.allowCreate = true →
      addresses.forRecord record = .ok address → self.HasBudget options.deadline now →
      Runs (timeoutAt options.deadline (self.cloudflare.findRecord zoneId
        record.recordType.asStr record.name)) recheck none →
      HandlesMissing record zoneId addresses options state (⟨.act .now, now⟩ :: recheck)
        (.stop (state.push checkDeadlineFailure))
  | recheckFailed {address : IpAddr} {now : Instant} {recheck : List Step}
      {error : CloudflareError} :
      record.createIfMissing = true → options.allowCreate = true →
      addresses.forRecord record = .ok address → self.HasBudget options.deadline now →
      Runs (timeoutAt options.deadline (self.cloudflare.findRecord zoneId
        record.recordType.asStr record.name)) recheck (some (.error error)) →
      HandlesMissing record zoneId addresses options state (⟨.act .now, now⟩ :: recheck)
        (failCheck record.name .recordLookup state error)
  | appeared {address : IpAddr} {now : Instant} {recheck handling : List Step}
      {existing : DnsRecord} {flow : Flow CheckState} :
      record.createIfMissing = true → options.allowCreate = true →
      addresses.forRecord record = .ok address → self.HasBudget options.deadline now →
      Runs (timeoutAt options.deadline (self.cloudflare.findRecord zoneId
        record.recordType.asStr record.name)) recheck (some (.ok (some existing))) →
      self.HandlesExisting record zoneId existing options state handling flow →
      HandlesMissing record zoneId addresses options state
        (⟨.act .now, now⟩ :: (recheck ++ handling)) flow
  | lateAgain {address : IpAddr} {now now' : Instant} {recheck : List Step} :
      record.createIfMissing = true → options.allowCreate = true →
      addresses.forRecord record = .ok address → self.HasBudget options.deadline now →
      Runs (timeoutAt options.deadline (self.cloudflare.findRecord zoneId
        record.recordType.asStr record.name)) recheck (some (.ok none)) →
      ¬ self.HasBudget options.deadline now' →
      HandlesMissing record zoneId addresses options state
        (⟨.act .now, now⟩ :: (recheck ++ [⟨.act .now, now'⟩]))
        (.stop (state.push checkDeadlineFailure))
  | created {address : IpAddr} {now now' : Instant} {recheck : List Step}
      {outcome : HttpOutcome} {result : Except CloudflareError DnsRecord} :
      record.createIfMissing = true → options.allowCreate = true →
      addresses.forRecord record = .ok address → self.HasBudget options.deadline now →
      Runs (timeoutAt options.deadline (self.cloudflare.findRecord zoneId
        record.recordType.asStr record.name)) recheck (some (.ok none)) →
      self.HasBudget options.deadline now' →
      result = (receive self.cloudflare.apiToken (.createRecord zoneId
        (recordPayload record address)) outcome).map ApiResponse.result →
      HandlesMissing record zoneId addresses options state
        (⟨.act .now, now⟩ :: (recheck ++ ⟨.act .now, now'⟩ :: mutationSteps zoneId
          (.createRecord zoneId (recordPayload record address)) outcome result))
        (settleCreation record zoneId state result)

/-- Every run of the code for a missing record is one of the cases of `HandlesMissing`. Where
creation is off or there is no address nothing is sent; otherwise the record is looked up once
more, and then it is created, or handled as an existing one if it has appeared, or left because
a lookup has failed or the time is over. -/
theorem handleMissingCheckRecord_handles {record : RecordConfig} {zoneId : String}
    {addresses : DiscoveredAddresses} {options : CheckOptions} {state : CheckState}
    {trace : List Step} {flow : Flow CheckState}
    (hrun : Runs (self.handleMissingCheckRecord record zoneId addresses options state) trace
      flow) :
    self.HandlesMissing record zoneId addresses options state trace flow := by
  unfold handleMissingCheckRecord at hrun
  cases hcreate : record.createIfMissing with
  | false =>
      simp only [hcreate, Bool.not_false, if_true, Program.pure_eq, runs_done_iff] at hrun
      obtain ⟨rfl, rfl⟩ := hrun
      exact .disabled hcreate
  | true =>
      simp only [hcreate, Bool.not_true, Bool.false_eq_true, if_false] at hrun
      cases hallow : options.allowCreate with
      | false =>
          simp only [hallow, Bool.not_false, if_true, Program.pure_eq, runs_done_iff] at hrun
          obtain ⟨rfl, rfl⟩ := hrun
          exact .creatable hcreate hallow
      | true =>
          simp only [hallow, Bool.not_true, Bool.false_eq_true, if_false] at hrun
          cases haddress : addresses.forRecord record with
          | error message =>
              simp only [haddress, Program.pure_eq, runs_done_iff] at hrun
              obtain ⟨rfl, rfl⟩ := hrun
              exact .noAddress hcreate hallow haddress
          | ok address =>
              simp only [haddress] at hrun
              obtain ⟨_, rest, fits, rfl, hfits, hrest⟩ := (runs_bind_iff _ _ _ _).mp hrun
              obtain ⟨now, rfl, hbudget⟩ := self.runs_mutationCanFinishBefore hfits
              cases fits with
              | false =>
                  have hnot : ¬ self.HasBudget options.deadline now := by
                    simpa using hbudget
                  cases hrest
                  exact .late hcreate hallow haddress hnot
              | true =>
                  have hfirst := hbudget.mp rfl
                  simp only [Bool.not_true, Bool.false_eq_true, if_false] at hrest
                  obtain ⟨recheck, later, found, rfl, hfound, hlater⟩ :=
                    (runs_bind_iff _ _ _ _).mp hrest
                  rcases found with _ | error | _ | existing
                  · cases hlater
                    rw [List.append_nil]
                    exact .recheckExpired hcreate hallow haddress hfirst hfound
                  · cases hlater
                    rw [List.append_nil]
                    exact .recheckFailed hcreate hallow haddress hfirst hfound
                  · obtain ⟨_, after, again, rfl, hagain, hafter⟩ :=
                      (runs_bind_iff _ _ _ _).mp hlater
                    obtain ⟨now', rfl, hbudget'⟩ := self.runs_mutationCanFinishBefore hagain
                    cases again with
                    | false =>
                        have hnot : ¬ self.HasBudget options.deadline now' := by
                          simpa using hbudget'
                        cases hafter
                        exact .lateAgain hcreate hallow haddress hfirst hfound hnot
                    | true =>
                        simp only [Bool.not_true, Bool.false_eq_true, if_false] at hafter
                        unfold createCheckRecord at hafter
                        obtain ⟨_, _, result, rfl, hguarded, hresult⟩ :=
                          (runs_bind_iff _ _ _ _).mp hafter
                        obtain ⟨steps, rfl, hsend⟩ := runs_guarded hguarded
                        obtain ⟨outcome, rfl, hanswer⟩ :=
                          self.cloudflare.runs_createRecord hsend
                        have hhandles : self.HandlesMissing record zoneId addresses options
                            state _ _ :=
                          .created hcreate hallow haddress hfirst hfound (hbudget'.mp rfl)
                            hanswer
                        cases result with
                        | ok created =>
                            cases hresult
                            simpa [mutationSteps, settleCreation] using hhandles
                        | error error =>
                            cases hresult
                            simpa [mutationSteps, settleCreation] using hhandles
                  · have hhandles := self.handleExistingCheckRecord_handles hlater
                    change self.HandlesMissing record zoneId addresses options state
                      (⟨.act .now, now⟩ :: (recheck ++ later)) flow
                    exact .appeared hcreate hallow haddress hfirst hfound hhandles

/-- The runs of the body of the loop of `check_records`. -/
inductive ChecksRecord (addresses : DiscoveredAddresses) (options : CheckOptions)
    (record : RecordConfig) (state : CheckState) : List Step → Flow CheckState → Prop where
  | expired {inspection : List Step} {proofs : ZoneProofs} :
      self.Inspects record options.deadline state.proofs inspection (.error .deadline) proofs →
      ChecksRecord addresses options record state inspection
        (.stop (({ state with proofs := proofs } : CheckState).push checkDeadlineFailure))
  | failed {inspection : List Step} {proofs : ZoneProofs} {stage : FailureStage}
      {error : CloudflareError} :
      self.Inspects record options.deadline state.proofs inspection
        (.error (.cloudflare stage error)) proofs →
      ChecksRecord addresses options record state inspection
        (failCheck record.name stage { state with proofs := proofs } error)
  | existing {inspection handling : List Step} {proofs : ZoneProofs} {zoneId : String}
      {existing : DnsRecord} {flow : Flow CheckState} :
      self.Inspects record options.deadline state.proofs inspection
        (.ok (zoneId, some existing)) proofs →
      self.HandlesExisting record zoneId existing options { state with proofs := proofs }
        handling flow →
      ChecksRecord addresses options record state (inspection ++ handling) flow
  | missing {inspection handling : List Step} {proofs : ZoneProofs} {zoneId : String}
      {flow : Flow CheckState} :
      self.Inspects record options.deadline state.proofs inspection (.ok (zoneId, none))
        proofs →
      self.HandlesMissing record zoneId addresses options { state with proofs := proofs }
        handling flow →
      ChecksRecord addresses options record state (inspection ++ handling) flow

theorem checkRecord_checks {addresses : DiscoveredAddresses} {options : CheckOptions}
    {record : RecordConfig} {state : CheckState} {trace : List Step} {flow : Flow CheckState}
    (hrun : Runs (self.checkRecord addresses options record state) trace flow) :
    self.ChecksRecord addresses options record state trace flow := by
  unfold checkRecord at hrun
  obtain ⟨inspection, handling, ⟨inspected, proofs⟩, rfl, hinspect, hrest⟩ :=
    (runs_bind_iff _ _ _ _).mp hrun
  have hinspects := self.inspectCheckRecord_inspected hinspect
  match inspected with
  | .error .deadline =>
      cases hrest
      rw [List.append_nil]
      exact .expired hinspects
  | .error (.cloudflare stage error) =>
      cases hrest
      rw [List.append_nil]
      exact .failed hinspects
  | .ok (zoneId, some existing) =>
      exact .existing hinspects (self.handleExistingCheckRecord_handles hrest)
  | .ok (zoneId, none) =>
      exact .missing hinspects (self.handleMissingCheckRecord_handles hrest)

/-- The runs of `check_records`. -/
inductive ChecksAll (addresses : DiscoveredAddresses) (options : CheckOptions) :
    List RecordConfig → CheckState → List Step → CheckState → Prop where
  | done (state : CheckState) : ChecksAll addresses options [] state [] state
  | next {record : RecordConfig} {rest : List RecordConfig}
      {state state' final : CheckState} {checking later : List Step} :
      self.ChecksRecord addresses options record state checking (.next state') →
      ChecksAll addresses options rest state' later final →
      ChecksAll addresses options (record :: rest) state (checking ++ later) final
  | stop {record : RecordConfig} {rest : List RecordConfig} {state final : CheckState}
      {checking : List Step} :
      self.ChecksRecord addresses options record state checking (.stop final) →
      ChecksAll addresses options (record :: rest) state checking final

theorem checkRecords_checksAll {addresses : DiscoveredAddresses} {options : CheckOptions}
    {records : List RecordConfig} {state final : CheckState} {trace : List Step}
    (hrun : Runs (self.checkRecords addresses options records state) trace final) :
    self.ChecksAll addresses options records state trace final := by
  induction records generalizing state trace with
  | nil =>
      cases hrun
      exact .done _
  | cons record rest ih =>
      unfold checkRecords at hrun
      obtain ⟨checking, later, flow, rfl, hcheck, hrest⟩ := (runs_bind_iff _ _ _ _).mp hrun
      have hchecks := self.checkRecord_checks hcheck
      cases flow with
      | next state' => exact .next hchecks (ih hrest)
      | stop state' =>
          cases hrest
          rw [List.append_nil]
          exact .stop hchecks

theorem verification_quiet {deadline : Instant} {verification : List Step}
    {verified : Option (Except CloudflareError Unit)}
    (hrun : Runs (timeoutAt deadline self.cloudflare.verifyToken) verification verified) :
    ∀ step ∈ verification, LookupOp step.op :=
  uses_runs (uses_timeoutAt (fun _ => LookupOp.finishBefore) self.cloudflare.verifyToken_uses)
    hrun

theorem discovery_quiet {deadline : Instant} {discovery : List Step}
    {discovered : Option DiscoveredAddresses}
    (hrun : Runs (timeoutAt deadline self.discoverRequiredAddresses) discovery discovered) :
    ∀ step ∈ discovery, DiscoveryOp step.op :=
  uses_runs (uses_timeoutAt (fun _ => DiscoveryOp.finishBefore)
    self.discoverRequiredAddresses_uses) hrun

/-- The runs of `check_until` after the token has been verified. -/
inductive ChecksAddresses (allowCreate allowEditProbe : Bool) (deadline : Instant)
    (report : CheckReport) : List Step → CheckReport → Prop where
  | undiscovered {discovery : List Step} :
      Runs (timeoutAt deadline self.discoverRequiredAddresses) discovery none →
      ChecksAddresses allowCreate allowEditProbe deadline report discovery
        (summarizeCheckProofs (report.push checkDeadlineFailure)
          (ZoneProofs.forConfig self.config))
  | checked {discovery checking : List Step} {addresses : DiscoveredAddresses}
      {state : CheckState} :
      Runs (timeoutAt deadline self.discoverRequiredAddresses) discovery (some addresses) →
      Runs (self.checkRecords addresses
        { allowCreate := allowCreate, allowEditProbe := allowEditProbe, deadline := deadline }
        self.config.records
        { proofs := ZoneProofs.forConfig self.config
          report := { report with
            failures := report.failures ++ addresses.discoveryFailures } }) checking state →
      ChecksAddresses allowCreate allowEditProbe deadline report
        (discovery ++ ⟨.act .newControl, ()⟩ :: checking)
        (finalizeCheckReport state.report state.proofs allowEditProbe)

/-- The report with which a check starts. -/
def initialCheckReport : CheckReport := { records := self.config.records.length }

/-- The runs of `check_until`. -/
inductive Checks (allowCreate allowEditProbe : Bool) (deadline : Instant) :
    List Step → CheckReport → Prop where
  | expired {verification : List Step} :
      Runs (timeoutAt deadline self.cloudflare.verifyToken) verification none →
      Checks allowCreate allowEditProbe deadline verification
        (summarizeCheckProofs (self.initialCheckReport.push checkDeadlineFailure)
          (ZoneProofs.forConfig self.config))
  | refused {verification : List Step} {error : CloudflareError} :
      Runs (timeoutAt deadline self.cloudflare.verifyToken) verification
        (some (.error error)) →
      (error.isAuthenticationFailure || error.isPermissionDenied || error.isRateLimited) =
        true →
      Checks allowCreate allowEditProbe deadline verification
        (summarizeCheckProofs (self.initialCheckReport.push
          (cloudflareFailure "Cloudflare API token" .authentication error))
          (ZoneProofs.forConfig self.config))
  | verified {verification checking : List Step} {report : CheckReport} :
      Runs (timeoutAt deadline self.cloudflare.verifyToken) verification (some (.ok ())) →
      self.ChecksAddresses allowCreate allowEditProbe deadline
        { self.initialCheckReport with authenticated := true } checking report →
      Checks allowCreate allowEditProbe deadline (verification ++ checking) report
  | unverified {verification checking : List Step} {error : CloudflareError}
      {report : CheckReport} :
      Runs (timeoutAt deadline self.cloudflare.verifyToken) verification
        (some (.error error)) →
      (error.isAuthenticationFailure || error.isPermissionDenied || error.isRateLimited) =
        false →
      self.ChecksAddresses allowCreate allowEditProbe deadline
        (self.initialCheckReport.push
          (cloudflareFailure "Cloudflare API token" .authentication error)) checking report →
      Checks allowCreate allowEditProbe deadline (verification ++ checking) report

theorem checkAddressesAndRecords_checks {allowCreate allowEditProbe : Bool}
    {deadline : Instant} {report final : CheckReport} {trace : List Step}
    (hrun : Runs (self.checkAddressesAndRecords allowCreate allowEditProbe deadline
      (ZoneProofs.forConfig self.config) report) trace final) :
    self.ChecksAddresses allowCreate allowEditProbe deadline report trace final := by
  unfold checkAddressesAndRecords at hrun
  obtain ⟨discovery, _, discovered, rfl, hdiscovery, hrest⟩ :=
    (runs_bind_iff _ _ _ _).mp hrun
  cases discovered with
  | none =>
      cases hrest
      rw [List.append_nil]
      exact .undiscovered hdiscovery
  | some addresses =>
      simp only [act_eq, Program.ask_bind, Program.done_bind, runs_ask_iff] at hrest
      obtain ⟨_, rest, rfl, hrest⟩ := hrest
      obtain ⟨checking, _, state, rfl, hchecking, hdone⟩ := (runs_bind_iff _ _ _ _).mp hrest
      cases hdone
      rw [List.append_nil]
      exact .checked hdiscovery hchecking

theorem checkUntil_checks {allowCreate allowEditProbe : Bool} {deadline : Instant}
    {trace : List Step} {report : CheckReport}
    (hrun : Runs (self.checkUntil allowCreate allowEditProbe deadline) trace report) :
    self.Checks allowCreate allowEditProbe deadline trace report := by
  unfold checkUntil at hrun
  obtain ⟨verification, rest, verified, rfl, hverify, hrest⟩ :=
    (runs_bind_iff _ _ _ _).mp hrun
  match verified with
  | none =>
      cases hrest
      rw [List.append_nil]
      exact .expired hverify
  | some (.ok ()) => exact .verified hverify (self.checkAddressesAndRecords_checks hrest)
  | some (.error error) =>
      simp only at hrest
      split at hrest
      · rename_i habort
        cases hrest
        rw [List.append_nil]
        exact .refused hverify habort
      · rename_i hgoes
        have hcontinues : (error.isAuthenticationFailure || error.isPermissionDenied ||
            error.isRateLimited) = false := by simpa using hgoes
        exact .unverified hverify hcontinues (self.checkAddressesAndRecords_checks hrest)

end Updater

end

end Cirrusync
