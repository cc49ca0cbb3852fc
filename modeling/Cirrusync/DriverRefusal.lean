import Cirrusync.Refusal

/-!
The two drivers after a global refusal: a cycle and a check send nothing more,
and their reports contain its failure.
-/

namespace Cirrusync

open Effect Text

/-- The refusal behind the error of a stage. -/
def stageAbort {α : Type} (result : Except (FailureStage × CloudflareError) α) :
    Option CloudflareError :=
  abortOf (result.mapError Prod.snd)

@[simp] theorem stageAbort_ok {α : Type} (value : α) :
    stageAbort (.ok value : Except (FailureStage × CloudflareError) α) = none := rfl

theorem stageAbort_error {α : Type} (stage : FailureStage) (error : CloudflareError) :
    stageAbort (.error (stage, error) : Except (FailureStage × CloudflareError) α) =
      if error.aborts then some error else none := rfl

theorem RequestOp.not_discovery {op : Op} (h : RequestOp op) : ¬ DiscoveryOp op := by
  intro hop
  unfold RequestOp at h
  split at h
  · exact hop
  · exact hop
  · exact hop
  · exact h

theorem RequestOp.not_lock {op : Op} (h : RequestOp op) : ¬ LockOp op := by
  intro hop
  unfold RequestOp at h
  split at h
  · exact hop
  · exact hop
  · exact hop
  · exact h

variable [Externals]

/-- A refusal met stops the loop, and its failure is in the report. -/
def Stops {σ : Type} (failures : σ → List CycleFailure) (flow : Flow σ)
    (met : Option CloudflareError) : Prop :=
  ∀ error, met = some error →
    ∃ final, flow = .stop final ∧ Reports (failures final) error

theorem stops_none {σ : Type} (failures : σ → List CycleFailure) (flow : Flow σ) :
    Stops failures flow none :=
  fun _ h => nomatch h

theorem reports_append {failures : List CycleFailure} {error : CloudflareError}
    (h : Reports failures error) (more : List CycleFailure) :
    Reports (failures ++ more) error := by
  obtain ⟨target, stage, member⟩ := h
  exact ⟨target, stage, List.mem_append_left _ member⟩

theorem reports_push (failures : List CycleFailure) (target : String)
    (stage : FailureStage) (error : CloudflareError) :
    Reports (failures ++ [cloudflareFailure target stage error]) error :=
  ⟨target, stage, List.mem_append_right _ (List.mem_singleton.mpr rfl)⟩

namespace Updater

variable (self : Updater)

theorem settle_stops (record : RecordConfig) (report : CycleReport)
    (result : Except (FailureStage × CloudflareError) RecordOutcome) :
    Stops CycleReport.failures (settle record report result) (stageAbort result) := by
  intro refused hmet
  match result with
  | .ok outcome => cases hmet
  | .error (stage, error) =>
      rw [stageAbort_error] at hmet
      split at hmet
      · rename_i haborts
        have haborts' : (error.isAuthenticationFailure || error.isRateLimited) = true :=
          haborts
        obtain rfl : error = refused := Option.some.inj hmet
        refine ⟨report.push (cloudflareFailure record.name stage error), ?_, ?_⟩
        · simp only [settle, haborts', if_true]
        · exact reports_push report.failures record.name stage error
      · cases hmet

theorem failCheck_stops (target : String) (stage : FailureStage) (state : CheckState)
    (error : CloudflareError) :
    Stops (fun state : CheckState => state.report.failures)
      (failCheck target stage state error) (if error.aborts then some error else none) := by
  intro refused hmet
  split at hmet
  · rename_i haborts
    have haborts' : (error.isAuthenticationFailure || error.isRateLimited) = true :=
      haborts
    obtain rfl : error = refused := Option.some.inj hmet
    refine ⟨state.push (cloudflareFailure target stage error), ?_, ?_⟩
    · simp only [failCheck, haborts', if_true]
    · exact reports_push state.report.failures target stage error
  · cases hmet

theorem discovery_refusal (deadline : Instant) :
    Holds self.cloudflare.refusalContract (fun _ met => met = none)
      (timeoutAt deadline self.discoverRequiredAddresses) none := by
  refine self.cloudflare.holds_quiet ?_ (uses_timeoutAt (fun _ => DiscoveryOp.finishBefore)
    self.discoverRequiredAddresses_uses)
  exact fun op hop => ⟨fun hrequest => hrequest.not_discovery hop, fun _ => rfl⟩

theorem lock_refusal {α : Type} {p : M α} (huses : Uses LockOp p)
    (met : Option CloudflareError) :
    Holds self.cloudflare.refusalContract (fun _ met' => met' = met) p met := by
  refine self.cloudflare.holds_quiet ?_ huses
  intro op hop
  constructor
  · exact fun hrequest => hrequest.not_lock hop
  · intro hgated
    unfold GatedOp at hgated
    split at hgated
    · exact hop.elim
    · exact hop.elim
    · exact hop.elim
    · exact hgated.elim

/-- The planning of a record meets a refusal exactly if its result is an error that aborts, of the
resolution or of the lookup. -/
theorem planRecord_refusal (record : RecordConfig) (address : IpAddr) :
    Holds self.cloudflare.refusalContract (fun result met => met = stageAbort result)
      (self.planRecord record address) none := by
  unfold planRecord
  apply holds_bind
  refine holds_mono (self.cloudflare.resolveZoneId_refusal _ _) ?_
  rintro zone _ rfl
  cases zone with
  | error error => simp [stageAbort_error, abortOf]
  | ok zoneId =>
      apply holds_bind
      refine holds_mono (self.cloudflare.findRecord_refusal _ _ _) ?_
      rintro found _ rfl
      cases found with
      | error error => simp [stageAbort_error, abortOf]
      | ok entry =>
          cases entry with
          | some existing => simp
          | none =>
              simp only [abortOf_ok]
              split
              · simp [stageAbort_error, CloudflareError.aborts,
                  CloudflareError.isAuthenticationFailure, CloudflareError.isRateLimited]
              · apply holds_bind
                refine holds_mono (self.cloudflare.findRecord_refusal _ _ _) ?_
                rintro again _ rfl
                cases again with
                | error error => simp [stageAbort_error, abortOf]
                | ok entry =>
                    cases entry with
                    | some existing => simp
                    | none => simp

/-- The flag around a mutation does not touch the refusal. -/
theorem guarded_refusal {α : Type} {mutation : M α}
    {post : α → Option CloudflareError → Prop} {met : Option CloudflareError}
    (h : Holds self.cloudflare.refusalContract post mutation met) :
    Holds self.cloudflare.refusalContract post (guarded mutation) met := by
  simp only [guarded, act_eq, Program.ask_bind, Program.done_bind,
    CloudflareClient.holds_refusal_ask, CloudflareClient.refusal_act, Option.or_none,
    GatedOp, false_implies, true_and]
  intro _
  apply holds_bind
  refine holds_mono h ?_
  intro result met' hpost
  simpa [GatedOp] using hpost

theorem updateRecord_refusal (zoneId recordId : String) (payload : RecordPayload) :
    Holds self.cloudflare.refusalContract (fun result met => met = abortOf result)
      (self.cloudflare.updateRecord zoneId recordId payload) none :=
  self.cloudflare.resultInZone_refusal zoneId rfl (fun _ => rfl) (fun _ => rfl)

theorem createRecord_refusal (zoneId : String) (payload : RecordPayload) :
    Holds self.cloudflare.refusalContract (fun result met => met = abortOf result)
      (self.cloudflare.createRecord zoneId payload) none :=
  self.cloudflare.resultInZone_refusal zoneId rfl (fun _ => rfl) (fun _ => rfl)

theorem probeRecordEdit_refusal (zoneId : String) (existing : DnsRecord) :
    Holds self.cloudflare.refusalContract (fun result met => met = abortOf result)
      (self.cloudflare.probeRecordEdit zoneId existing) none :=
  self.cloudflare.resultInZone_refusal zoneId rfl (fun _ => rfl) (fun _ => rfl)

theorem executeRecordPlan_refusal (plan : RecordPlan) :
    Holds self.cloudflare.refusalContract (fun result met => met = stageAbort result)
      (self.executeRecordPlan plan) none := by
  cases plan with
  | unchanged => simp [executeRecordPlan]
  | update zoneId recordId payload =>
      apply holds_bind
      refine holds_mono (self.guarded_refusal
        (self.updateRecord_refusal zoneId recordId payload)) ?_
      rintro result _ rfl
      cases result <;> simp [stageAbort_error, abortOf]
  | create zoneId payload =>
      apply holds_bind
      refine holds_mono (self.guarded_refusal (self.createRecord_refusal zoneId payload)) ?_
      rintro result _ rfl
      cases result <;> simp [stageAbort_error, abortOf]

/-- A refusal that is met at a record stops the loop over the records, and the report has a
failure for it. Any other error lets the loop go on with the next record. -/
theorem visitRecord_refusal (deadline : Instant) (addresses : DiscoveredAddresses)
    (record : RecordConfig) (report : CycleReport) :
    Holds self.cloudflare.refusalContract (Stops CycleReport.failures)
      (self.visitRecord deadline addresses record report) none := by
  simp only [visitRecord, act_eq, Program.ask_bind, Program.done_bind,
    CloudflareClient.holds_refusal_ask, CloudflareClient.refusal_act, Option.or_none,
    GatedOp, false_implies, true_and]
  intro stopRequested
  cases stopRequested with
  | true => simp [stops_none]
  | false =>
      simp only [Bool.false_eq_true, if_false]
      cases addresses.forRecord record with
      | error message => simp [stops_none]
      | ok address =>
          apply holds_bind
          refine holds_mono (self.cloudflare.timeoutAt_refusal
            (self.planRecord_refusal record address)) ?_
          intro planned met hmet
          cases planned with
          | none =>
              obtain rfl : met = none := hmet
              simp [stops_none]
          | some result =>
              cases result with
              | error error =>
                  obtain rfl : met = stageAbort (.error error : Except _ RecordPlan) := hmet
                  have hstops := settle_stops record report (.error error)
                  exact (self.cloudflare.holds_refusal_done).mpr hstops
              | ok plan =>
                  obtain rfl : met = none := hmet
                  simp only [CloudflareClient.holds_refusal_ask, CloudflareClient.refusal_act,
                    Option.or_none, GatedOp, false_implies, true_and]
                  intro now
                  split
                  · simp [stops_none]
                  · apply holds_bind
                    refine holds_mono (self.executeRecordPlan_refusal plan) ?_
                    rintro result _ rfl
                    simpa using settle_stops record report result

theorem visitRecords_refusal (deadline : Instant) (addresses : DiscoveredAddresses)
    (records : List RecordConfig) (report : CycleReport) :
    Holds self.cloudflare.refusalContract
      (fun final met => ∀ error, met = some error → Reports final.failures error)
      (self.visitRecords deadline addresses records report) none := by
  induction records generalizing report with
  | nil => simp [visitRecords]
  | cons record rest ih =>
      apply holds_bind
      refine holds_mono (self.visitRecord_refusal deadline addresses record report) ?_
      intro flow met hstops
      cases flow with
      | next report' =>
          have hnone : met = none := by
            cases met with
            | none => rfl
            | some error =>
                obtain ⟨final, hflow, -⟩ := hstops error rfl
                cases hflow
          rw [hnone]
          exact ih report'
      | stop report' =>
          refine (self.cloudflare.holds_refusal_done).mpr ?_
          intro error hmet
          obtain ⟨final, hflow, hreports⟩ := hstops error hmet
          cases hflow
          exact hreports

theorem runCycleUntil_refusal (deadline : Instant) :
    Holds self.cloudflare.refusalContract
      (fun report met => ∀ error, met = some error → Reports report.failures error)
      (self.runCycleUntil deadline) none := by
  apply holds_bind
  refine holds_mono (self.discovery_refusal deadline) ?_
  rintro discovered _ rfl
  cases discovered with
  | none => simp
  | some addresses =>
      simp only
      split
      · simp
      · simp only [act_eq, Program.ask_bind, Program.done_bind,
          CloudflareClient.holds_refusal_ask, CloudflareClient.refusal_act, Option.or_none,
          GatedOp, false_implies, true_and]
        intro cursor
        exact self.visitRecords_refusal deadline addresses _ _

theorem runCycleLocked_refusal :
    Holds self.cloudflare.refusalContract
      (fun report met => ∀ error, met = some error → Reports report.failures error)
      self.runCycleLocked none := by
  simp only [runCycleLocked, act_eq, Program.ask_bind, Program.done_bind,
    CloudflareClient.holds_refusal_ask, CloudflareClient.refusal_act, Option.or_none,
    GatedOp, false_implies, true_and]
  intro now
  exact self.runCycleUntil_refusal _

theorem runCycle_refusal :
    Holds self.cloudflare.refusalContract
      (fun report met => ∀ error, met = some error → Reports report.failures error)
      self.runCycle none := by
  simp only [runCycle, act_eq, Program.ask_bind, Program.done_bind,
    CloudflareClient.holds_refusal_ask, CloudflareClient.refusal_act, Option.or_none,
    GatedOp, false_implies, true_and]
  intro _
  apply holds_bind
  refine holds_mono (self.lock_refusal (acquire_uses self.runtimeLock) none) ?_
  rintro acquired _ rfl
  cases acquired with
  | error error => simp
  | ok lock =>
      apply holds_bind
      refine holds_mono self.runCycleLocked_refusal ?_
      intro report met hreports
      apply holds_bind
      refine holds_mono (self.lock_refusal (drop_uses lock) met) ?_
      rintro _ _ rfl
      simpa using hreports

/-! The check. -/

theorem mutationCanFinishBefore_refusal (deadline : Instant) :
    Holds self.cloudflare.refusalContract (fun _ met => met = none)
      (self.mutationCanFinishBefore deadline) none := by
  simp [mutationCanFinishBefore, GatedOp]

theorem handleExistingCheckRecord_refusal (record : RecordConfig) (zoneId : String)
    (existing : DnsRecord) (options : CheckOptions) (state : CheckState) :
    Holds self.cloudflare.refusalContract
      (Stops fun state : CheckState => state.report.failures)
      (self.handleExistingCheckRecord record zoneId existing options state) none := by
  unfold handleExistingCheckRecord
  simp only
  split
  · simp [stops_none]
  · apply holds_bind
    refine holds_mono (self.mutationCanFinishBefore_refusal _) ?_
    rintro fits _ rfl
    split
    · simp [stops_none]
    · unfold probeEditPermission
      rw [Program.bind_assoc]
      apply holds_bind
      refine holds_mono (self.guarded_refusal
        (self.probeRecordEdit_refusal zoneId existing)) ?_
      rintro result _ rfl
      cases result with
      | ok probed => simp [stops_none]
      | error error =>
          simpa [abortOf] using failCheck_stops record.name .editPermission _ error

theorem createCheckRecord_refusal (record : RecordConfig) (zoneId : String)
    (payload : RecordPayload) (state : CheckState) :
    Holds self.cloudflare.refusalContract
      (Stops fun state : CheckState => state.report.failures)
      (self.createCheckRecord record zoneId payload state) none := by
  apply holds_bind
  refine holds_mono (self.guarded_refusal (self.createRecord_refusal zoneId payload)) ?_
  rintro result _ rfl
  cases result with
  | ok created => simp [stops_none]
  | error error => simpa [abortOf] using failCheck_stops record.name .creation state error

/-- A refusal that is met while a missing record is handled, at the second lookup or at a
mutation, stops the check, and the report has a failure for it. -/
theorem handleMissingCheckRecord_refusal (record : RecordConfig) (zoneId : String)
    (addresses : DiscoveredAddresses) (options : CheckOptions) (state : CheckState) :
    Holds self.cloudflare.refusalContract
      (Stops fun state : CheckState => state.report.failures)
      (self.handleMissingCheckRecord record zoneId addresses options state) none := by
  unfold handleMissingCheckRecord
  split
  · simp [stops_none]
  split
  · simp [stops_none]
  cases addresses.forRecord record with
  | error message => simp [stops_none]
  | ok address =>
      apply holds_bind
      refine holds_mono (self.mutationCanFinishBefore_refusal _) ?_
      rintro fits _ rfl
      split
      · simp [stops_none]
      · apply holds_bind
        refine holds_mono (self.cloudflare.timeoutAt_refusal
          (self.cloudflare.findRecord_refusal _ _ _)) ?_
        intro found met hmet
        match found with
        | none =>
            obtain rfl : met = none := hmet
            simp [stops_none]
        | some (.error error) =>
            obtain rfl : met = abortOf (.error error : Except _ (Option DnsRecord)) := hmet
            have hstops := failCheck_stops record.name .recordLookup state error
            exact (self.cloudflare.holds_refusal_done).mpr hstops
        | some (.ok (some existing)) =>
            obtain rfl : met = none := hmet
            exact self.handleExistingCheckRecord_refusal record zoneId existing _ _
        | some (.ok none) =>
            obtain rfl : met = none := hmet
            apply holds_bind
            refine holds_mono (self.mutationCanFinishBefore_refusal _) ?_
            rintro fits _ rfl
            split
            · simp [stops_none]
            · exact self.createCheckRecord_refusal record zoneId _ state

/-- The error of an inspection carries its refusal. -/
def inspectAbort {α : Type} : Except CheckLookupError α → Option CloudflareError
  | .error (.cloudflare _ error) => if error.aborts then some error else none
  | _ => none

/-- The inspection of a record meets a refusal exactly if its result is an error that aborts the
check, of the resolution or of the lookup. -/
theorem inspectCheckRecord_refusal (record : RecordConfig) (deadline : Instant)
    (proofs : ZoneProofs) :
    Holds self.cloudflare.refusalContract (fun result met => met = inspectAbort result.1)
      (self.inspectCheckRecord record deadline proofs) none := by
  unfold inspectCheckRecord
  apply holds_bind
  refine holds_mono (self.cloudflare.timeoutAt_refusal
    (self.cloudflare.resolveZoneId_refusal _ _)) ?_
  intro zone met hmet
  cases zone with
  | none =>
      obtain rfl : met = none := hmet
      simp [inspectAbort]
  | some result =>
      cases result with
      | error error =>
          obtain rfl : met = abortOf (.error error : Except _ String) := hmet
          simp [inspectAbort, abortOf]
      | ok zoneId =>
          obtain rfl : met = none := hmet
          apply holds_bind
          refine holds_mono (self.cloudflare.timeoutAt_refusal
            (self.cloudflare.findRecord_refusal _ _ _)) ?_
          intro found met hmet
          cases found with
          | none =>
              obtain rfl : met = none := hmet
              simp [inspectAbort]
          | some result =>
              cases result with
              | error error =>
                  obtain rfl : met = abortOf (.error error : Except _ (Option DnsRecord)) := hmet
                  simp [inspectAbort, abortOf]
              | ok existing =>
                  obtain rfl : met = none := hmet
                  simp [inspectAbort]

theorem checkRecord_refusal (addresses : DiscoveredAddresses) (options : CheckOptions)
    (record : RecordConfig) (state : CheckState) :
    Holds self.cloudflare.refusalContract
      (Stops fun state : CheckState => state.report.failures)
      (self.checkRecord addresses options record state) none := by
  apply holds_bind
  refine holds_mono (self.inspectCheckRecord_refusal record _ _) ?_
  rintro ⟨inspected, proofs⟩ met hmet
  match inspected with
  | .error .deadline =>
      obtain rfl : met = none := hmet
      exact (self.cloudflare.holds_refusal_done).mpr (stops_none _ _)
  | .error (.cloudflare stage error) =>
      obtain rfl : met = if error.aborts then some error else none := hmet
      exact (self.cloudflare.holds_refusal_done).mpr (failCheck_stops _ _ _ error)
  | .ok (zoneId, some existing) =>
      obtain rfl : met = none := hmet
      exact self.handleExistingCheckRecord_refusal record zoneId existing _ _
  | .ok (zoneId, none) =>
      obtain rfl : met = none := hmet
      exact self.handleMissingCheckRecord_refusal record zoneId addresses _ _

theorem checkRecords_refusal (addresses : DiscoveredAddresses) (options : CheckOptions)
    (records : List RecordConfig) (state : CheckState) :
    Holds self.cloudflare.refusalContract
      (fun final met => ∀ error, met = some error → Reports final.report.failures error)
      (self.checkRecords addresses options records state) none := by
  induction records generalizing state with
  | nil => simp [checkRecords]
  | cons record rest ih =>
      apply holds_bind
      refine holds_mono (self.checkRecord_refusal addresses options record state) ?_
      intro flow met hstops
      cases flow with
      | next state' =>
          have hnone : met = none := by
            cases met with
            | none => rfl
            | some error =>
                obtain ⟨final, hflow, -⟩ := hstops error rfl
                cases hflow
          rw [hnone]
          exact ih state'
      | stop state' =>
          refine (self.cloudflare.holds_refusal_done).mpr ?_
          intro error hmet
          obtain ⟨final, hflow, hreports⟩ := hstops error hmet
          cases hflow
          exact hreports

omit [Externals] in
theorem finalize_keeps_failures (report : CheckReport) (proofs : ZoneProofs)
    (editProbeRequested : Bool) :
    ∃ more, (finalizeCheckReport report proofs editProbeRequested).failures =
      report.failures ++ more := by
  have hfold : ∀ (targets : List String) (message : String) (report : CheckReport),
      ∃ more, (targets.foldl (fun report target =>
        report.push (permanentFailure target .editPermission message)) report).failures =
          report.failures ++ more := by
    intro targets message
    induction targets with
    | nil => exact fun report => ⟨[], (List.append_nil _).symm⟩
    | cons target rest ih =>
        intro report
        obtain ⟨more, hmore⟩ :=
          ih (report.push (permanentFailure target .editPermission message))
        refine ⟨permanentFailure target .editPermission message :: more, ?_⟩
        rw [List.foldl_cons, hmore]
        simp [CheckReport.push]
  unfold finalizeCheckReport
  exact hfold _ _ _

theorem checkAddressesAndRecords_refusal (allowCreate allowEditProbe : Bool)
    (deadline : Instant) (proofs : ZoneProofs) (report : CheckReport) :
    Holds self.cloudflare.refusalContract
      (fun report met => ∀ error, met = some error → Reports report.failures error)
      (self.checkAddressesAndRecords allowCreate allowEditProbe deadline proofs report)
      none := by
  apply holds_bind
  refine holds_mono (self.discovery_refusal deadline) ?_
  rintro discovered _ rfl
  cases discovered with
  | none => simp
  | some addresses =>
      simp only [act_eq, Program.ask_bind, Program.done_bind,
        CloudflareClient.holds_refusal_ask, CloudflareClient.refusal_act, Option.or_none,
        GatedOp, false_implies, true_and]
      intro _
      apply holds_bind
      refine holds_mono (self.checkRecords_refusal addresses _ _ _) ?_
      intro final met hreports
      refine (self.cloudflare.holds_refusal_done).mpr ?_
      intro error hmet
      obtain ⟨more, hmore⟩ :=
        finalize_keeps_failures final.report final.proofs allowEditProbe
      rw [hmore]
      exact reports_append (hreports error hmet) more

/-- A refusal that a check meets at any point is reported: at the verification of the token, or at
a record, after which the loop stops. -/
theorem checkUntil_refusal (allowCreate allowEditProbe : Bool) (deadline : Instant) :
    Holds self.cloudflare.refusalContract
      (fun report met => ∀ error, met = some error → Reports report.failures error)
      (self.checkUntil allowCreate allowEditProbe deadline) none := by
  apply holds_bind
  refine holds_mono (self.cloudflare.timeoutAt_refusal
    self.cloudflare.verifyToken_refusal) ?_
  intro verified met hmet
  match verified with
  | none =>
      obtain rfl : met = none := hmet
      simp
  | some (.ok ()) =>
      obtain rfl : met = none := hmet
      exact self.checkAddressesAndRecords_refusal _ _ _ _ _
  | some (.error error) =>
      obtain rfl : met = if error.aborts then some error else none := hmet
      simp only
      split
      · refine (self.cloudflare.holds_refusal_done).mpr ?_
        intro refused hrefused
        split at hrefused
        · cases hrefused
          exact reports_push [] "Cloudflare API token" .authentication error
        · cases hrefused
      · rename_i hgoes
        have haborts : error.aborts = false := by
          simp only [Bool.or_eq_true, not_or, Bool.not_eq_true] at hgoes
          simp [CloudflareError.aborts, hgoes]
        rw [haborts]
        exact self.checkAddressesAndRecords_refusal _ _ _ _ _

theorem check_refusal (allowCreate allowEditProbe : Bool) :
    Holds self.cloudflare.refusalContract
      (fun report met => ∀ error, met = some error → Reports report.failures error)
      (self.check allowCreate allowEditProbe) none := by
  unfold check
  split
  · apply holds_bind
    refine holds_mono (self.lock_refusal (acquire_uses self.runtimeLock) none) ?_
    rintro acquired _ rfl
    cases acquired with
    | error error => simp
    | ok lock =>
        simp only [act_eq, Program.ask_bind, Program.done_bind,
          CloudflareClient.holds_refusal_ask, CloudflareClient.refusal_act, Option.or_none,
          GatedOp, false_implies, true_and]
        intro now
        apply holds_bind
        refine holds_mono (self.checkUntil_refusal _ _ _) ?_
        intro report met hreports
        apply holds_bind
        refine holds_mono (self.lock_refusal (drop_uses lock) met) ?_
        rintro _ _ rfl
        simpa using hreports
  · simp only [act_eq, Program.ask_bind, Program.done_bind,
      CloudflareClient.holds_refusal_ask, CloudflareClient.refusal_act, Option.or_none,
      GatedOp, false_implies, true_and]
    intro now
    exact self.checkUntil_refusal _ _ _

end Updater

namespace CloudflareClient

variable (self : CloudflareClient)

theorem foldl_refusal_some (error : CloudflareError) (trace : List Step) :
    trace.foldl (fun met step => met.or (self.refusal step)) (some error) =
      some error := by
  induction trace with
  | nil => rfl
  | cons step rest ih => exact ih

theorem gated_of_refusal {step : Step} {error : CloudflareError}
    (h : self.refusal step = some error) : GatedOp step.op := by
  by_contra hnot
  rw [self.refusal_of_not_request (mt RequestOp.gated hnot)] at h
  cases h

omit [Externals] in
theorem gated_of_sent {step : Step} {request : Request} (h : sent step = some request) :
    GatedOp step.op := by
  unfold sent at h
  split at h
  · trivial
  · cases h

section

variable {self} {α : Type} {p : M α} {failures : α → List CycleFailure}
  (h : Holds self.refusalContract
    (fun value met => ∀ error, met = some error → Reports (failures value) error) p none)
  {before after : List Step} {step : Step} {error : CloudflareError}
  (hrefusal : self.refusal step = some error)

include h hrefusal

theorem foldl_refusal {rest : M α} (hreach : Reaches p (before ++ step :: after) rest)
    (later : List Step) :
    (before ++ step :: later).foldl (fun met step => met.or (self.refusal step)) none =
      some error := by
  have hmet : before.foldl (fun met step => met.or (self.refusal step)) none = none :=
    track_permits h hreach coherentFrom_true (self.gated_of_refusal hrefusal)
  rw [List.foldl_append, hmet, List.foldl_cons, hrefusal]
  exact self.foldl_refusal_some error later

/-- Once a step has brought a refusal, nothing is waited for any more. -/
theorem not_gated_after_refusal {rest : M α}
    (hreach : Reaches p (before ++ step :: after) rest) {late : Step} (member : late ∈ after) :
    ¬ GatedOp late.op := by
  intro hgated
  obtain ⟨first, second, rfl⟩ := List.append_of_mem member
  have hmet := foldl_refusal h hrefusal hreach first
  rw [← List.cons_append, ← List.append_assoc] at hreach
  have hnone := track_permits h hreach coherentFrom_true hgated
  rw [hmet] at hnone
  cases hnone

/-- Once a step has brought a refusal, nothing more is sent. -/
theorem nothing_sent_after_refusal {rest : M α}
    (hreach : Reaches p (before ++ step :: after) rest) : after.filterMap sent = [] := by
  rw [List.filterMap_eq_nil_iff]
  intro late member
  cases hsent : sent late with
  | none => rfl
  | some request =>
      exact absurd (gated_of_sent hsent) (not_gated_after_refusal h hrefusal hreach member)

/-- The value of a run that has met a refusal reports it. -/
theorem reports_refusal {value : α} (hrun : Runs p (before ++ step :: after) value) :
    Reports (failures value) error :=
  track_run h hrun coherentFrom_true error (foldl_refusal h hrefusal hrun.reaches after)

end

end CloudflareClient

end Cirrusync
