import Cirrusync.EditProof
import Cirrusync.Punctual

/-!
What a check may change and what its success covers. Every mutation of a check
comes right after the lookups that call for it, in a zone in which none has
succeeded; a record that leaves no failure behind is counted once.
-/

namespace Cirrusync

open Effect

/-- How many records a check has covered. -/
def CheckReport.covered (report : CheckReport) : Nat :=
  report.existing + report.creatable + report.created

theorem failures_summarize_push (report : CheckReport) (failure : CycleFailure)
    (proofs : ZoneProofs) : (summarizeCheckProofs (report.push failure) proofs).failures ≠ [] := by
  simp [summarizeCheckProofs, CheckReport.push]

theorem foldl_push_covered (failureOf : String → CycleFailure) (targets : List String)
    (report : CheckReport) :
    (targets.foldl (fun report target => report.push (failureOf target)) report).covered =
      report.covered := by
  induction targets generalizing report with
  | nil => rfl
  | cons target rest ih => exact ih _

theorem finalizeCheckReport_covered (report : CheckReport) (proofs : ZoneProofs)
    (editProbeRequested : Bool) :
    (finalizeCheckReport report proofs editProbeRequested).covered = report.covered :=
  foldl_push_covered _ proofs.unverifiedTargets _

section

variable {α : Type}

@[simp] theorem foldl_concat (past steps : List α) :
    steps.foldl (fun past step => past ++ [step]) past = past ++ steps := by
  induction steps generalizing past with
  | nil => simp
  | cons step rest ih => simp [ih]

end

section

variable [Externals]

/-- The zone of the PATCH whose success a step brings the client. -/
def patchedZone (apiToken : String) (step : Step) : Option String :=
  match replied step with
  | some (request, _) => if request.method = .patch then provenZone apiToken step else none
  | none => none

/-- The zones of the successful PATCHes of a trace. -/
def patchedZones (apiToken : String) (trace : List Step) : List String :=
  trace.filterMap (patchedZone apiToken)

namespace Updater

variable (self : Updater)

/-- The mutations that a check may begin after these steps. -/
inductive MutationAllowed (options : CheckOptions) : List Step → Request → Prop where
  /-- Two lookups of a record that may be created have both found none. -/
  | creation {record : RecordConfig} {zoneId : String} {address : IpAddr} {now now' : Instant}
      {earlier lookup recheck : List Step} :
      options.allowCreate = true → record ∈ self.config.records →
      record.createIfMissing = true →
      Runs (timeoutAt options.deadline (self.cloudflare.findRecord zoneId
        record.recordType.asStr record.name)) lookup (some (.ok none)) →
      Runs (timeoutAt options.deadline (self.cloudflare.findRecord zoneId
        record.recordType.asStr record.name)) recheck (some (.ok none)) →
      MutationAllowed options
        (earlier ++ lookup ++ ⟨.act .now, now⟩ :: recheck ++
          [⟨.act .now, now'⟩, ⟨.act (.setMutationInFlight true), ()⟩])
        (.createRecord zoneId (recordPayload record address))
  /-- The record has just been found, in a zone without a successful mutation. -/
  | probe {record : RecordConfig} {zoneId : String} {existing : DnsRecord} {now : Instant}
      {earlier lookup : List Step} :
      options.allowEditProbe = true → record ∈ self.config.records →
      Runs (timeoutAt options.deadline (self.cloudflare.findRecord zoneId
        record.recordType.asStr record.name)) lookup (some (.ok (some existing))) →
      zoneId ∉ provenZones self.cloudflare.apiToken (earlier ++ lookup) →
      MutationAllowed options
        (earlier ++ lookup ++ [⟨.act .now, now⟩, ⟨.act (.setMutationInFlight true), ()⟩])
        (CloudflareClient.probeRequest zoneId existing)

/-- What a step may do after the steps of the past. -/
structure StepAllowed (updater : Updater) (options : CheckOptions) (past : List Step)
    (step : Step) : Prop where
  mutation : ∀ request, begunMutation step = some request →
    updater.MutationAllowed options past request
  patch : ∀ zoneId, patchedZone updater.cloudflare.apiToken step = some zoneId →
    zoneId ∉ provenZones updater.cloudflare.apiToken past

/-- Every step is allowed after those before it. -/
def Allowed (options : CheckOptions) (past steps : List Step) : Prop :=
  CoherentFrom (StepAllowed self options) (fun past step => past ++ [step]) past steps

/-- A step that neither begins a mutation nor brings the success of one. -/
def QuietStep (apiToken : String) (step : Step) : Prop :=
  begunMutation step = none ∧ provenZone apiToken step = none

variable {self} {options : CheckOptions}

theorem Allowed.append {past first second : List Step}
    (hfirst : self.Allowed options past first)
    (hsecond : self.Allowed options (past ++ first) second) :
    self.Allowed options past (first ++ second) := by
  apply coherentFrom_append.mpr
  rw [foldl_concat]
  exact ⟨hfirst, hsecond⟩

theorem patchedZone_eq_none {apiToken : String} {step : Step}
    (h : provenZone apiToken step = none) : patchedZone apiToken step = none := by
  unfold patchedZone
  split
  · rw [h, ite_self]
  · rfl

theorem provenZone_of_patched {apiToken zoneId : String} {step : Step}
    (h : patchedZone apiToken step = some zoneId) : provenZone apiToken step = some zoneId := by
  unfold patchedZone at h
  split at h
  · split at h
    · exact h
    · cases h
  · cases h

/-- When what is proved is not patched any more, nothing is patched twice. -/
theorem nodup_patchedZones {apiToken : String} {trace : List Step}
    (h : ∀ before after, trace = before ++ after →
      ∀ zoneId ∈ provenZones apiToken before, zoneId ∉ patchedZones apiToken after) :
    (patchedZones apiToken trace).Nodup := by
  induction trace with
  | nil => exact List.nodup_nil
  | cons step rest ih =>
      have hrest : (patchedZones apiToken rest).Nodup := by
        apply ih
        rintro before after rfl zoneId hproven
        apply h (step :: before) after rfl zoneId
        unfold provenZones at hproven ⊢
        rw [← List.singleton_append, List.filterMap_append]
        exact List.mem_append_right _ hproven
      cases hstep : patchedZone apiToken step with
      | none =>
          unfold patchedZones at hrest ⊢
          rw [List.filterMap_cons_none hstep]
          exact hrest
      | some zoneId =>
          have hproven : zoneId ∈ provenZones apiToken [step] :=
            List.mem_filterMap.mpr ⟨step, List.mem_cons_self, provenZone_of_patched hstep⟩
          have hlater := h [step] rest rfl zoneId hproven
          unfold patchedZones at hrest hlater ⊢
          rw [List.filterMap_cons_some hstep]
          exact List.nodup_cons.mpr ⟨hlater, hrest⟩

theorem QuietStep.allowed {step : Step} (h : QuietStep self.cloudflare.apiToken step)
    (past : List Step) : StepAllowed self options past step := by
  constructor
  · intro request hbegun
    rw [h.1] at hbegun
    cases hbegun
  · intro zoneId hpatched
    rw [patchedZone_eq_none h.2] at hpatched
    cases hpatched

theorem allowed_of_quiet {steps : List Step}
    (h : ∀ step ∈ steps, QuietStep self.cloudflare.apiToken step) (past : List Step) :
    self.Allowed options past steps := by
  induction steps generalizing past with
  | nil => trivial
  | cons step rest ih =>
      have hrest := ih (fun other member => h other (List.mem_cons_of_mem _ member))
        (past ++ [step])
      exact ⟨(h step List.mem_cons_self).allowed past, hrest⟩

theorem quietStep_lookup {apiToken : String} {step : Step} (h : LookupOp step.op) :
    QuietStep apiToken step :=
  ⟨begunMutation_lookup h, provenZone_lookup h⟩

theorem quietStep_discovery {apiToken : String} {step : Step} (h : DiscoveryOp step.op) :
    QuietStep apiToken step :=
  ⟨begunMutation_discovery h, provenZone_discovery h⟩

theorem resolution_quiet {zoneName : String} {explicitZoneId : Option String}
    {deadline : Instant} {resolution : List Step}
    {result : Option (Except CloudflareError String)}
    (hrun : Runs (timeoutAt deadline (self.cloudflare.resolveZoneId zoneName explicitZoneId))
      resolution result) : ∀ step ∈ resolution, QuietStep self.cloudflare.apiToken step :=
  fun step member => quietStep_lookup (uses_runs (uses_timeoutAt
    (fun _ => LookupOp.finishBefore) (self.cloudflare.resolveZoneId_uses _ _)) hrun step member)

theorem lookup_quiet {zoneId recordType name : String} {deadline : Instant}
    {lookup : List Step} {found : Option (Except CloudflareError (Option DnsRecord))}
    (hrun : Runs (timeoutAt deadline (self.cloudflare.findRecord zoneId recordType name))
      lookup found) : ∀ step ∈ lookup, QuietStep self.cloudflare.apiToken step :=
  fun step member => quietStep_lookup (uses_runs (uses_timeoutAt
    (fun _ => LookupOp.finishBefore) (self.cloudflare.findRecord_uses _ _ _)) hrun step member)

/-- A mutation that is allowed where it begins, in a zone that is not proved yet when
it is a PATCH. -/
theorem allowed_mutation {past : List Step} {zoneId : String} {request : Request}
    {outcome : HttpOutcome} {result : Except CloudflareError request.kind.Value}
    (hallowed : self.MutationAllowed options
      (past ++ [⟨.act (.setMutationInFlight true), ()⟩]) request)
    (hzone : request.mutatedZone = some zoneId)
    (hfresh : request.method = .patch → zoneId ∉ provenZones self.cloudflare.apiToken past) :
    self.Allowed options past (mutationSteps zoneId request outcome result) := by
  have hend : ∀ step ∈ evictions zoneId result ++ [⟨.act (.setMutationInFlight false), ()⟩],
      QuietStep self.cloudflare.apiToken step := by
    intro step member
    rcases List.mem_append.mp member with member | member
    · cases result with
      | ok value => cases member
      | error error =>
          simp only [evictions] at member
          split at member
          · rw [List.mem_singleton.mp member]
            exact ⟨rfl, rfl⟩
          · cases member
    · rw [List.mem_singleton.mp member]
      exact ⟨rfl, rfl⟩
  have hset : StepAllowed self options past ⟨.act (.setMutationInFlight true), ()⟩ :=
    QuietStep.allowed ⟨rfl, rfl⟩ past
  have hbegin : StepAllowed self options (past ++ [⟨.act (.setMutationInFlight true), ()⟩])
      ⟨.act (.begin (.http request)), ()⟩ := by
    constructor
    · intro begun hbegun
      obtain ⟨hsent, -⟩ := Option.filter_eq_some_iff.mp hbegun
      cases hsent
      exact hallowed
    · intro other hpatched
      cases hpatched
  have hfinish : StepAllowed self options
      (past ++ [⟨.act (.setMutationInFlight true), ()⟩] ++ [⟨.act (.begin (.http request)), ()⟩])
      ⟨.finish (.http request), outcome⟩ := by
    constructor
    · intro begun hbegun
      cases hbegun
    · intro other hpatched
      simp only [patchedZone, replied] at hpatched
      split at hpatched
      · rename_i hpatch
        have hother : other = zoneId := by
          simp only [provenZone, replied, hzone] at hpatched
          split at hpatched
          · exact (Option.some.inj hpatched).symm
          · cases hpatched
        subst hother
        have hpast : provenZones self.cloudflare.apiToken
            (past ++ [⟨.act (.setMutationInFlight true), ()⟩] ++
              [⟨.act (.begin (.http request)), ()⟩]) =
            provenZones self.cloudflare.apiToken past := by
          simp [provenZones, provenZone, replied]
        rw [hpast]
        exact hfresh hpatch
      · cases hpatched
  exact ⟨hset, hbegin, hfinish, allowed_of_quiet hend _⟩

/-- The proofs of a check are those of its steps so far. -/
def Knows (proofs : ZoneProofs) (apiToken : String) (past : List Step) : Prop :=
  ∀ zoneId, zoneId ∈ proofs.provenIds ↔ zoneId ∈ provenZones apiToken past

theorem Knows.proves {proofs proofs' : ZoneProofs} {apiToken : String} {past steps : List Step}
    (h : Knows proofs apiToken past) (hproves : Proves apiToken proofs steps proofs') :
    Knows proofs' apiToken (past ++ steps) := by
  intro zoneId
  rw [hproves.proven, h]
  simp [provenZones]

theorem Knows.quiet {proofs : ZoneProofs} {apiToken : String} {past steps : List Step}
    (h : Knows proofs apiToken past) (hquiet : ∀ step ∈ steps, QuietStep apiToken step) :
    Knows proofs apiToken (past ++ steps) := by
  have hnone : provenZones apiToken steps = [] :=
    provenZones_eq_nil fun step member => (hquiet step member).2
  intro zoneId
  unfold provenZones at hnone ⊢
  rw [List.filterMap_append, hnone, List.append_nil]
  exact h zoneId

theorem Knows.fresh {proofs : ZoneProofs} {apiToken zoneId : String} {past : List Step}
    (h : Knows proofs apiToken past) (hneeds : proofs.needsProof zoneId = true) :
    zoneId ∉ provenZones apiToken past := by
  rw [← h zoneId]
  simpa [ZoneProofs.needsProof] using hneeds

theorem HandlesExisting.allowed {record : RecordConfig} {zoneId : String}
    {existing : DnsRecord} {state : CheckState} {earlier lookup handling : List Step}
    {flow : Flow CheckState} (hrecord : record ∈ self.config.records)
    (hfound : Runs (timeoutAt options.deadline (self.cloudflare.findRecord zoneId
      record.recordType.asStr record.name)) lookup (some (.ok (some existing))))
    (h : self.HandlesExisting record zoneId existing options state handling flow)
    (hknows : Knows state.proofs self.cloudflare.apiToken (earlier ++ lookup)) :
    self.Allowed options (earlier ++ lookup) handling := by
  have hnow : ∀ now : Instant,
      QuietStep self.cloudflare.apiToken ⟨.act .now, now⟩ := fun _ => ⟨rfl, rfl⟩
  cases h with
  | counted => trivial
  | late => exact ⟨(hnow _).allowed _, trivial⟩
  | @probed now outcome result hallow hneeds _ _ =>
      have hfresh := hknows.fresh hneeds
      have hzone : (CloudflareClient.probeRequest zoneId existing).mutatedZone = some zoneId :=
        rfl
      have hmutation : self.MutationAllowed options
          (earlier ++ lookup ++ [⟨.act .now, now⟩] ++ [⟨.act (.setMutationInFlight true), ()⟩])
          (CloudflareClient.probeRequest zoneId existing) := by
        rw [List.append_assoc (earlier ++ lookup)]
        exact .probe hallow hrecord hfound hfresh
      refine ⟨(hnow now).allowed _, allowed_mutation hmutation hzone fun _ => ?_⟩
      simpa [provenZones, provenZone, replied] using hfresh

/-- Each step of a check that handles a missing record is allowed after the steps before it. It
may begin the creation of this record, after a second lookup that has found none, or the edit
probe of a record that this lookup has found. -/
theorem HandlesMissing.allowed {record : RecordConfig} {zoneId : String}
    {addresses : DiscoveredAddresses} {state : CheckState} {earlier lookup handling : List Step}
    {flow : Flow CheckState} (hrecord : record ∈ self.config.records)
    (hmissing : Runs (timeoutAt options.deadline (self.cloudflare.findRecord zoneId
      record.recordType.asStr record.name)) lookup (some (.ok none)))
    (h : self.HandlesMissing record zoneId addresses options state handling flow)
    (hknows : Knows state.proofs self.cloudflare.apiToken (earlier ++ lookup)) :
    self.Allowed options (earlier ++ lookup) handling := by
  have hnow : ∀ now : Instant,
      QuietStep self.cloudflare.apiToken ⟨.act .now, now⟩ := fun _ => ⟨rfl, rfl⟩
  have hrecheck : ∀ {now : Instant} {recheck : List Step}
      {found : Option (Except CloudflareError (Option DnsRecord))},
      Runs (timeoutAt options.deadline (self.cloudflare.findRecord zoneId
        record.recordType.asStr record.name)) recheck found →
      ∀ step ∈ (⟨.act .now, now⟩ :: recheck : List Step),
        QuietStep self.cloudflare.apiToken step := by
    intro now recheck found hrun step member
    rcases List.mem_cons.mp member with rfl | member
    · exact hnow now
    · exact lookup_quiet hrun step member
  cases h with
  | disabled | creatable | noAddress => trivial
  | late => exact ⟨(hnow _).allowed _, trivial⟩
  | recheckExpired _ _ _ _ hrun => exact allowed_of_quiet (hrecheck hrun) _
  | recheckFailed _ _ _ _ hrun => exact allowed_of_quiet (hrecheck hrun) _
  | @appeared _ now recheck handling existing _ _ _ _ _ hrun hexisting =>
      have hquiet : ∀ step ∈ (⟨.act .now, now⟩ :: recheck : List Step),
          QuietStep self.cloudflare.apiToken step := hrecheck hrun
      have hlooked : self.Allowed options (earlier ++ lookup) (⟨.act .now, now⟩ :: recheck) :=
        allowed_of_quiet hquiet _
      have hpast : earlier ++ lookup ++ ⟨.act .now, now⟩ :: recheck =
          earlier ++ lookup ++ [⟨.act .now, now⟩] ++ recheck := by simp
      have hknown := hknows.quiet hquiet
      rw [hpast] at hknown
      have hhandled := HandlesExisting.allowed hrecord hrun hexisting hknown
      rw [← hpast] at hhandled
      exact hlooked.append hhandled
  | @lateAgain _ now now' recheck _ _ _ _ hrun _ =>
      have hlooked : self.Allowed options (earlier ++ lookup) (⟨.act .now, now⟩ :: recheck) :=
        allowed_of_quiet (hrecheck hrun) _
      exact hlooked.append ⟨(hnow now').allowed _, trivial⟩
  | @created address now now' recheck outcome result hcreate hallow _ _ hrun _ _ =>
      have hlooked : self.Allowed options (earlier ++ lookup) (⟨.act .now, now⟩ :: recheck) :=
        allowed_of_quiet (hrecheck hrun) _
      have hzone : (Request.createRecord zoneId (recordPayload record address)).mutatedZone =
          some zoneId := rfl
      have hmutation : self.MutationAllowed options
          (earlier ++ lookup ++ ⟨.act .now, now⟩ :: recheck ++ [⟨.act .now, now'⟩] ++
            [⟨.act (.setMutationInFlight true), ()⟩])
          (.createRecord zoneId (recordPayload record address)) := by
        rw [List.append_assoc _ [_] [_]]
        exact .creation hallow hrecord hcreate hmissing hrun
      refine hlooked.append ⟨(hnow now').allowed _, allowed_mutation hmutation hzone ?_⟩
      intro hpatch
      cases hpatch

theorem Inspects.steps_quiet {record : RecordConfig} {deadline : Instant}
    {proofs proofs' : ZoneProofs} {inspection : List Step}
    {inspected : Except CheckLookupError (String × Option DnsRecord)}
    (h : self.Inspects record deadline proofs inspection inspected proofs') :
    ∀ step ∈ inspection, QuietStep self.cloudflare.apiToken step := by
  have hboth : ∀ {first second : List Step},
      (∀ step ∈ first, QuietStep self.cloudflare.apiToken step) →
      (∀ step ∈ second, QuietStep self.cloudflare.apiToken step) →
      ∀ step ∈ first ++ second, QuietStep self.cloudflare.apiToken step := by
    intro first second hfirst hsecond step member
    rcases List.mem_append.mp member with member | member
    · exact hfirst step member
    · exact hsecond step member
  cases h with
  | zoneExpired hzone => exact resolution_quiet hzone
  | zoneFailed hzone => exact resolution_quiet hzone
  | lookupExpired hzone hfound => exact hboth (resolution_quiet hzone) (lookup_quiet hfound)
  | lookupFailed hzone hfound => exact hboth (resolution_quiet hzone) (lookup_quiet hfound)
  | inspected hzone hfound => exact hboth (resolution_quiet hzone) (lookup_quiet hfound)

/-- After a record too the proofs are those of the steps so far. -/
theorem Knows.checked {addresses : DiscoveredAddresses} {record : RecordConfig}
    {state : CheckState} {past checking : List Step} {flow : Flow CheckState}
    (h : Knows state.proofs self.cloudflare.apiToken past)
    (hchecks : self.ChecksRecord addresses options record state checking flow) :
    Knows flow.value.proofs self.cloudflare.apiToken (past ++ checking) := by
  obtain ⟨turn, -, rfl, ⟨result, hrun, -⟩, hproves⟩ := hchecks.turn self
  have hresolved : Knows (state.proofs.resolvedTo record turn.resolved)
      self.cloudflare.apiToken (past ++ turn.resolution) := by
    have hids : (state.proofs.resolvedTo record turn.resolved).provenIds =
        state.proofs.provenIds := by
      unfold ZoneProofs.resolvedTo
      split <;> rfl
    intro zoneId
    rw [hids]
    exact h.quiet (resolution_quiet hrun) zoneId
  have hknown := hresolved.proves hproves
  rw [List.append_assoc] at hknown
  exact hknown

/-- Each step of the check of one record is allowed after the steps before it, if the zone proofs
so far are those of the mutations that have succeeded. The inspection sends only reads, and the
rest is the handling of an existing or a missing record. -/
theorem ChecksRecord.allowed {addresses : DiscoveredAddresses} {record : RecordConfig}
    {state : CheckState} {past checking : List Step} {flow : Flow CheckState}
    (hrecord : record ∈ self.config.records)
    (hknows : Knows state.proofs self.cloudflare.apiToken past)
    (h : self.ChecksRecord addresses options record state checking flow) :
    self.Allowed options past checking := by
  have hquiet : ∀ {inspection : List Step} {proofs : ZoneProofs}
      {inspected : Except CheckLookupError (String × Option DnsRecord)},
      self.Inspects record options.deadline state.proofs inspection inspected proofs →
      ∀ step ∈ inspection, QuietStep self.cloudflare.apiToken step :=
    fun hinspects => hinspects.steps_quiet
  cases h with
  | expired hinspects => exact allowed_of_quiet (hquiet hinspects) _
  | failed hinspects => exact allowed_of_quiet (hquiet hinspects) _
  | @existing _ _ _ zoneId _ _ hinspects hhandles =>
      have hlooked := hquiet hinspects
      cases hinspects with
      | @inspected zoneTrace lookup _ _ hzone hfound =>
          have hknown : Knows (state.proofs.markResolved record zoneId)
              self.cloudflare.apiToken (past ++ (zoneTrace ++ lookup)) := hknows.quiet hlooked
          rw [← List.append_assoc] at hknown
          have hhandled := HandlesExisting.allowed hrecord hfound hhandles hknown
          rw [List.append_assoc past] at hhandled
          exact (allowed_of_quiet hlooked _).append hhandled
  | @missing _ _ _ zoneId _ hinspects hhandles =>
      have hlooked := hquiet hinspects
      cases hinspects with
      | @inspected zoneTrace lookup _ _ hzone hfound =>
          have hknown : Knows (state.proofs.markResolved record zoneId)
              self.cloudflare.apiToken (past ++ (zoneTrace ++ lookup)) := hknows.quiet hlooked
          rw [← List.append_assoc] at hknown
          have hhandled := HandlesMissing.allowed hrecord hfound hhandles hknown
          rw [List.append_assoc past] at hhandled
          exact (allowed_of_quiet hlooked _).append hhandled

theorem ChecksAll.allowed {addresses : DiscoveredAddresses} {records : List RecordConfig}
    {state final : CheckState} {past checking : List Step}
    (hrecords : ∀ record ∈ records, record ∈ self.config.records)
    (hknows : Knows state.proofs self.cloudflare.apiToken past)
    (h : self.ChecksAll addresses options records state checking final) :
    self.Allowed options past checking := by
  induction h generalizing past with
  | done state => trivial
  | next hchecks _ ih =>
      have hrecord := hrecords _ List.mem_cons_self
      have hfirst := hchecks.allowed hrecord hknows
      have hknown := hknows.checked hchecks
      exact hfirst.append (ih (fun other member => hrecords other
        (List.mem_cons_of_mem _ member)) hknown)
  | stop hchecks => exact hchecks.allowed (hrecords _ List.mem_cons_self) hknows

theorem failures_failCheck (target : String) (stage : FailureStage) (state : CheckState)
    (error : CloudflareError) :
    (failCheck target stage state error).value.report.failures =
      state.report.failures ++ [cloudflareFailure target stage error] := by
  unfold failCheck
  simp only
  split <;> rfl

/-- What the handling of a record makes of the report: one more record is covered, or
there are failures, without which a check is not stopped. -/
structure Covers (report : CheckReport) (flow : Flow CheckState) : Prop where
  keeps : report.failures ≠ [] → flow.value.report.failures ≠ []
  covered : flow.value.report.failures ≠ [] ∨
    flow.value.report.covered = report.covered + 1
  stops : ∀ final, flow = .stop final → final.report.failures ≠ []

omit [Externals] in
theorem covers_of_failure {report : CheckReport} {flow : Flow CheckState}
    {failure : CycleFailure}
    (h : flow.value.report.failures = report.failures ++ [failure]) : Covers report flow := by
  have hfailed : flow.value.report.failures ≠ [] := by
    rw [h]
    simp
  refine ⟨fun _ => hfailed, .inl hfailed, ?_⟩
  rintro final rfl
  exact hfailed

omit [Externals] in
theorem covers_of_next {report : CheckReport} {state : CheckState}
    (hfailures : state.report.failures = report.failures)
    (hcovered : state.report.covered = report.covered + 1) : Covers report (.next state) := by
  refine ⟨fun hfailed => ?_, .inr hcovered, fun final heq => ?_⟩
  · rw [← hfailures] at hfailed
    exact hfailed
  · cases heq

theorem HandlesExisting.covers {record : RecordConfig} {zoneId : String}
    {existing : DnsRecord} {state : CheckState} {handling : List Step} {flow : Flow CheckState}
    (h : self.HandlesExisting record zoneId existing options state handling flow) :
    Covers state.report flow := by
  have hcovered : (countExisting state).report.covered = state.report.covered + 1 := by
    simp only [countExisting, CheckReport.covered]
    omega
  cases h with
  | counted => exact covers_of_next rfl hcovered
  | late => exact covers_of_failure rfl
  | @probed _ _ result =>
      cases result with
      | ok updated => exact covers_of_next rfl hcovered
      | error error =>
          exact covers_of_failure (failures_failCheck _ _ (countExisting state) error)

theorem HandlesMissing.covers {record : RecordConfig} {zoneId : String}
    {addresses : DiscoveredAddresses} {state : CheckState} {handling : List Step}
    {flow : Flow CheckState}
    (h : self.HandlesMissing record zoneId addresses options state handling flow)
    (haddress : ∀ message, addresses.forRecord record = .error message →
      state.report.failures ≠ []) : Covers state.report flow := by
  cases h with
  | disabled => exact covers_of_failure rfl
  | creatable =>
      apply covers_of_next
      · rfl
      · simp only [CheckReport.covered]
        omega
  | noAddress _ _ hmissing =>
      have hfailed := haddress _ hmissing
      refine ⟨fun _ => hfailed, .inl hfailed, fun final heq => ?_⟩
      cases heq
  | late | recheckExpired | lateAgain => exact covers_of_failure rfl
  | recheckFailed => exact covers_of_failure (failures_failCheck _ _ state _)
  | appeared _ _ _ _ _ hexisting => exact hexisting.covers
  | @created _ _ _ _ _ result =>
      cases result with
      | ok created =>
          simp only [settleCreation]
          apply covers_of_next
          · rfl
          · simp only [CheckReport.covered]
            omega
      | error error => exact covers_of_failure (failures_failCheck _ _ state error)

theorem ChecksRecord.covers {addresses : DiscoveredAddresses} {record : RecordConfig}
    {state : CheckState} {checking : List Step} {flow : Flow CheckState}
    (h : self.ChecksRecord addresses options record state checking flow)
    (haddress : ∀ message, addresses.forRecord record = .error message →
      state.report.failures ≠ []) : Covers state.report flow := by
  cases h with
  | expired => exact covers_of_failure rfl
  | @failed _ proofs _ _ =>
      have hfailures := failures_failCheck record.name ‹_› { state with proofs := proofs } ‹_›
      exact covers_of_failure hfailures
  | @existing _ _ proofs _ _ _ _ hhandles =>
      have hcovers : Covers ({ state with proofs := proofs } : CheckState).report flow :=
        hhandles.covers
      exact hcovers
  | @missing _ _ proofs _ _ _ hhandles =>
      have hcovers : Covers ({ state with proofs := proofs } : CheckState).report flow :=
        HandlesMissing.covers hhandles haddress
      exact hcovers

/-- A loop without failures covers all its records. -/
theorem ChecksAll.covers {addresses : DiscoveredAddresses} {records : List RecordConfig}
    {state final : CheckState} {checking : List Step}
    (h : self.ChecksAll addresses options records state checking final)
    (haddress : ∀ record ∈ records, ∀ message, addresses.forRecord record = .error message →
      state.report.failures ≠ []) :
    (state.report.failures ≠ [] → final.report.failures ≠ []) ∧
      (final.report.failures = [] →
        final.report.covered = state.report.covered + records.length) := by
  induction h with
  | done state => exact ⟨fun h => h, fun _ => rfl⟩
  | @next record rest state state' final checking later hchecks _ ih =>
      have hcovers := hchecks.covers (haddress record List.mem_cons_self)
      obtain ⟨hkeeps, hcovered⟩ := ih fun other member message hmissing =>
        hcovers.keeps (haddress other (List.mem_cons_of_mem _ member) message hmissing)
      refine ⟨fun hfailed => hkeeps (hcovers.keeps hfailed), fun hnone => ?_⟩
      have hone : state'.report.covered = state.report.covered + 1 := by
        rcases hcovers.covered with hfailed | hone
        · exact absurd hnone (hkeeps hfailed)
        · exact hone
      rw [hcovered hnone, hone, List.length_cons]
      omega
  | stop hchecks =>
      have hcovers := hchecks.covers (haddress _ List.mem_cons_self)
      have hfailed := hcovers.stops _ rfl
      exact ⟨fun _ => hfailed, fun hnone => absurd hnone hfailed⟩

/-- After a quiet beginning, a check that knows no proofs yet does what is allowed. -/
theorem Checks.allowed {allowCreate allowEditProbe : Bool} {deadline : Instant}
    {past trace : List Step} {report : CheckReport}
    (hpast : ∀ step ∈ past, QuietStep self.cloudflare.apiToken step)
    (h : self.Checks allowCreate allowEditProbe deadline trace report) :
    self.Allowed ⟨allowCreate, allowEditProbe, deadline⟩ past trace := by
  have hverification : ∀ {verification : List Step}
      {verified : Option (Except CloudflareError Unit)},
      Runs (timeoutAt deadline self.cloudflare.verifyToken) verification verified →
      ∀ step ∈ verification, QuietStep self.cloudflare.apiToken step :=
    fun hrun step member => quietStep_lookup (self.verification_quiet hrun step member)
  have hdiscovery : ∀ {discovery : List Step} {discovered : Option DiscoveredAddresses},
      Runs (timeoutAt deadline self.discoverRequiredAddresses) discovery discovered →
      ∀ step ∈ discovery, QuietStep self.cloudflare.apiToken step :=
    fun hrun step member => quietStep_discovery (self.discovery_quiet hrun step member)
  have hrest : ∀ {past trace : List Step} {first final : CheckReport},
      (∀ step ∈ past, QuietStep self.cloudflare.apiToken step) →
      self.ChecksAddresses allowCreate allowEditProbe deadline first trace final →
      self.Allowed ⟨allowCreate, allowEditProbe, deadline⟩ past trace := by
    intro past trace first final hpast hchecks
    cases hchecks with
    | undiscovered hrun => exact allowed_of_quiet (hdiscovery hrun) past
    | @checked discovery checking _ state hrun hchecking =>
        have hcontrol : StepAllowed self ⟨allowCreate, allowEditProbe, deadline⟩ (past ++ discovery)
            ⟨.act .newControl, ()⟩ := QuietStep.allowed ⟨rfl, rfl⟩ _
        have hknows : Knows (ZoneProofs.forConfig self.config) self.cloudflare.apiToken [] :=
          fun _ => Iff.rfl
        have hsofar := ((hknows.quiet hpast).quiet (hdiscovery hrun)).quiet
          (List.forall_mem_singleton.mpr
            (⟨rfl, rfl⟩ : QuietStep self.cloudflare.apiToken ⟨.act .newControl, ()⟩))
        have hrecords := ChecksAll.allowed (fun _ member => member) hsofar
          (self.checkRecords_checksAll hchecking)
        exact (allowed_of_quiet (hdiscovery hrun) past).append ⟨hcontrol, hrecords⟩
  have hboth : ∀ {verification rest : List Step} {first : CheckReport}
      {verified : Option (Except CloudflareError Unit)},
      Runs (timeoutAt deadline self.cloudflare.verifyToken) verification verified →
      self.ChecksAddresses allowCreate allowEditProbe deadline first rest report →
      self.Allowed ⟨allowCreate, allowEditProbe, deadline⟩ past (verification ++ rest) := by
    intro verification rest first verified hrun hchecks
    have hlater := hrest (List.forall_mem_append.mpr ⟨hpast, hverification hrun⟩) hchecks
    exact (allowed_of_quiet (hverification hrun) past).append hlater
  cases h with
  | expired hrun => exact allowed_of_quiet (hverification hrun) past
  | refused hrun => exact allowed_of_quiet (hverification hrun) past
  | verified hrun hchecks => exact hboth hrun hchecks
  | unverified hrun _ hchecks => exact hboth hrun hchecks

/-- A check without failures has covered every record. -/
theorem Checks.covers {allowCreate allowEditProbe : Bool} {deadline : Instant}
    {trace : List Step} {report : CheckReport}
    (h : self.Checks allowCreate allowEditProbe deadline trace report)
    (hnone : report.failures = []) : report.covered = self.config.records.length := by
  have hrest : ∀ {trace : List Step} {first : CheckReport}, first.covered = 0 →
      self.ChecksAddresses allowCreate allowEditProbe deadline first trace report →
      report.covered = self.config.records.length := by
    intro trace first hfirst hchecks
    cases hchecks with
    | undiscovered => exact absurd hnone (failures_summarize_push _ _ _)
    | @checked discovery checking addresses state hrun hchecking =>
        have hdiscovered := self.timeoutDiscovery_runs hrun
        obtain ⟨added, hadded, -, -⟩ :=
          finalizeCheckReport_adds state.report state.proofs allowEditProbe
        rw [hadded] at hnone
        have hcovers := (self.checkRecords_checksAll hchecking).covers
          fun record member message hmissing hempty =>
            forRecord_error hdiscovered member hmissing (List.append_eq_nil_iff.mp hempty).2
        have hcovered := hcovers.2 (List.append_eq_nil_iff.mp hnone).1
        have hfinal : (finalizeCheckReport state.report state.proofs allowEditProbe).covered =
            state.report.covered := finalizeCheckReport_covered _ _ _
        rw [hfinal, hcovered]
        simp only [CheckReport.covered] at hfirst ⊢
        omega
  cases h with
  | expired => exact absurd hnone (failures_summarize_push _ _ _)
  | refused => exact absurd hnone (failures_summarize_push _ _ _)
  | verified _ hchecks => exact hrest rfl hchecks
  | unverified _ _ hchecks => exact hrest rfl hchecks

/-- Where the options ask for neither creations nor probes, the check of one record begins no
mutation, so that it brings no zone proof either. -/
theorem ChecksRecord.steps_quiet {addresses : DiscoveredAddresses} {record : RecordConfig}
    {state : CheckState} {checking : List Step} {flow : Flow CheckState}
    (h : self.ChecksRecord addresses options record state checking flow)
    (hcreate : options.allowCreate = false) (hprobe : options.allowEditProbe = false) :
    ∀ step ∈ checking, QuietStep self.cloudflare.apiToken step := by
  have hexisting : ∀ {zoneId : String} {existing : DnsRecord} {state : CheckState}
      {handling : List Step},
      self.HandlesExisting record zoneId existing options state handling flow →
      handling = [] := by
    intro zoneId existing state handling hhandles
    cases hhandles with
    | counted => rfl
    | late hallow => simp [hprobe] at hallow
    | probed hallow => simp [hprobe] at hallow
  have hmissing : ∀ {zoneId : String} {state : CheckState} {handling : List Step},
      self.HandlesMissing record zoneId addresses options state handling flow →
      handling = [] := by
    intro zoneId state handling hhandles
    cases hhandles with
    | disabled | creatable | noAddress => rfl
    | late _ hallow | recheckExpired _ hallow | recheckFailed _ hallow | appeared _ hallow
    | lateAgain _ hallow | created _ hallow => simp [hcreate] at hallow
  cases h with
  | expired hinspects => exact hinspects.steps_quiet
  | failed hinspects => exact hinspects.steps_quiet
  | existing hinspects hhandles =>
      rw [hexisting hhandles, List.append_nil]
      exact hinspects.steps_quiet
  | missing hinspects hhandles =>
      rw [hmissing hhandles, List.append_nil]
      exact hinspects.steps_quiet

theorem ChecksAll.steps_quiet {addresses : DiscoveredAddresses} {records : List RecordConfig}
    {state final : CheckState} {checking : List Step}
    (h : self.ChecksAll addresses options records state checking final)
    (hcreate : options.allowCreate = false) (hprobe : options.allowEditProbe = false) :
    ∀ step ∈ checking, QuietStep self.cloudflare.apiToken step := by
  induction h with
  | done state => exact fun step member => absurd member List.not_mem_nil
  | next hchecks _ ih =>
      exact List.forall_mem_append.mpr ⟨hchecks.steps_quiet hcreate hprobe, ih⟩
  | stop hchecks => exact hchecks.steps_quiet hcreate hprobe

/-- A check without failures has got to its records. -/
theorem Checks.reaches_of_success {allowCreate allowEditProbe : Bool} {deadline : Instant}
    {trace : List Step} {report : CheckReport}
    (h : self.Checks allowCreate allowEditProbe deadline trace report)
    (hnone : report.failures = []) : ∃ step ∈ trace, step.op = .act .newControl := by
  have hrest : ∀ {rest : List Step} {first : CheckReport},
      self.ChecksAddresses allowCreate allowEditProbe deadline first rest report →
      ∃ step ∈ rest, step.op = .act .newControl := by
    intro rest first hchecks
    cases hchecks with
    | undiscovered => exact absurd hnone (failures_summarize_push _ _ _)
    | checked => exact ⟨⟨.act .newControl, ()⟩, by simp, rfl⟩
  cases h with
  | expired => exact absurd hnone (failures_summarize_push _ _ _)
  | refused => exact absurd hnone (failures_summarize_push _ _ _)
  | verified _ hchecks =>
      obtain ⟨step, member, hstep⟩ := hrest hchecks
      exact ⟨step, List.mem_append_right _ member, hstep⟩
  | unverified _ _ hchecks =>
      obtain ⟨step, member, hstep⟩ := hrest hchecks
      exact ⟨step, List.mem_append_right _ member, hstep⟩

/-- Without its flags a check is quiet, and so it does not succeed. -/
theorem Checks.flagless {deadline : Instant} {trace : List Step} {report : CheckReport}
    (h : self.Checks false false deadline trace report) (hrecords : self.config.records ≠ []) :
    (∀ step ∈ trace, QuietStep self.cloudflare.apiToken step) ∧ report.isSuccess = false := by
  have hquiet : ∀ step ∈ trace, QuietStep self.cloudflare.apiToken step := by
    have hrest : ∀ {verification rest : List Step} {first : CheckReport}
        {verified : Option (Except CloudflareError Unit)},
        Runs (timeoutAt deadline self.cloudflare.verifyToken) verification verified →
        self.ChecksAddresses false false deadline first rest report →
        ∀ step ∈ verification ++ rest, QuietStep self.cloudflare.apiToken step := by
      intro verification rest first verified hrun hchecks
      rw [List.forall_mem_append]
      refine ⟨fun step member => quietStep_lookup (self.verification_quiet hrun step member), ?_⟩
      cases hchecks with
      | undiscovered hrun =>
          exact fun step member => quietStep_discovery (self.discovery_quiet hrun step member)
      | checked hrun hchecking =>
          rw [List.forall_mem_append]
          refine ⟨fun step member =>
            quietStep_discovery (self.discovery_quiet hrun step member), ?_⟩
          have hloop := (self.checkRecords_checksAll hchecking).steps_quiet rfl rfl
          exact List.forall_mem_cons.mpr ⟨⟨rfl, rfl⟩, hloop⟩
    cases h with
    | expired hrun =>
        exact fun step member => quietStep_lookup (self.verification_quiet hrun step member)
    | refused hrun =>
        exact fun step member => quietStep_lookup (self.verification_quiet hrun step member)
    | verified hrun hchecks => exact hrest hrun hchecks
    | unverified hrun _ hchecks => exact hrest hrun hchecks
  refine ⟨hquiet, ?_⟩
  by_contra hsuccess
  rw [Bool.not_eq_false] at hsuccess
  simp only [CheckReport.isSuccess, Bool.and_eq_true, List.isEmpty_iff] at hsuccess
  obtain ⟨⟨-, hverified⟩, hnone⟩ := hsuccess
  obtain ⟨addresses, start, final, before, checking, hreaches⟩ :=
    h.reachesRecords self (h.reaches_of_success hnone)
  obtain ⟨turns, -, hclaim, -, -⟩ := hreaches.claims
  have hunproven : provenZones self.cloudflare.apiToken trace = [] :=
    provenZones_eq_nil fun step member => (hquiet step member).2
  rw [hunproven] at hclaim
  obtain ⟨record, hrecord⟩ := List.exists_mem_of_ne_nil _ hrecords
  obtain ⟨zoneId, member, -⟩ := hclaim.mp hverified record hrecord
  cases member

/-- A check is the course of its records between the steps of the runtime lock, unless the
lock is not to be had. -/
theorem runs_check_locked {allowCreate allowEditProbe : Bool} {trace : List Step}
    {report : CheckReport} (hrun : Runs (self.check allowCreate allowEditProbe) trace report) :
    ∃ setup checking closing, trace = setup ++ (checking ++ closing) ∧
      (∀ step ∈ setup, LockOp step.op ∨ step.op = .act .now) ∧
      (∀ step ∈ closing, LockOp step.op) ∧
      ((∃ error, checking = [] ∧
          report = self.initialCheckReport.push (coordinationFailure error)) ∨
        ∃ deadline, self.Checks allowCreate allowEditProbe deadline checking report) := by
  unfold check at hrun
  split at hrun
  · obtain ⟨acquiring, rest, acquired, rfl, hacquire, hgoes⟩ :=
      (runs_bind_iff _ _ _ _).mp hrun
    have hacquiring : ∀ step ∈ acquiring, LockOp step.op ∨ step.op = .act .now :=
      fun step member => .inl (uses_runs (acquire_uses self.runtimeLock) hacquire step member)
    cases acquired with
    | error error =>
        obtain ⟨rfl, rfl⟩ := (runs_done_iff _ _ _).mp hgoes
        exact ⟨acquiring, [], [], rfl, hacquiring, by simp, .inl ⟨error, rfl, rfl⟩⟩
    | ok lock =>
        simp only [act_eq, Program.ask_bind, Program.done_bind] at hgoes
        obtain ⟨now, _, rfl, hchecking⟩ := (runs_ask_iff _ _ _ _).mp hgoes
        obtain ⟨checking, _, report', rfl, huntil, hclose⟩ := (runs_bind_iff _ _ _ _).mp hchecking
        obtain ⟨closing, _, _, rfl, hdrop, hend⟩ := (runs_bind_iff _ _ _ _).mp hclose
        obtain ⟨rfl, rfl⟩ := (runs_done_iff _ _ _).mp hend
        refine ⟨acquiring ++ [⟨.act .now, now⟩], checking, closing, by simp, ?_,
          fun step member => uses_runs (drop_uses lock) hdrop step member,
          .inr ⟨_, self.checkUntil_checks huntil⟩⟩
        rw [List.forall_mem_append, List.forall_mem_singleton]
        exact ⟨hacquiring, .inr rfl⟩
  · simp only [act_eq, Program.ask_bind, Program.done_bind] at hrun
    obtain ⟨now, checking, rfl, huntil⟩ := (runs_ask_iff _ _ _ _).mp hrun
    refine ⟨[⟨.act .now, now⟩], checking, [], by simp, ?_, by simp,
      .inr ⟨_, self.checkUntil_checks huntil⟩⟩
    rw [List.forall_mem_singleton]
    exact .inr rfl

theorem quietStep_lock {op : Op} (h : LockOp op ∨ op = .act .now) (answer : Ans op) :
    QuietStep self.cloudflare.apiToken ⟨op, answer⟩ := by
  rcases h with hop | rfl
  · unfold LockOp at hop
    split at hop
    · exact ⟨rfl, rfl⟩
    · exact ⟨rfl, rfl⟩
    · exact ⟨rfl, rfl⟩
    · exact ⟨rfl, rfl⟩
    · exact ⟨rfl, rfl⟩
    · exact hop.elim
  · exact ⟨rfl, rfl⟩

/-- A check is the course of its records between quiet steps, unless the runtime lock is
not to be had. -/
theorem runs_check {allowCreate allowEditProbe : Bool} {trace : List Step}
    {report : CheckReport} (hrun : Runs (self.check allowCreate allowEditProbe) trace report) :
    ∃ setup checking closing, trace = setup ++ (checking ++ closing) ∧
      (∀ step ∈ setup, QuietStep self.cloudflare.apiToken step) ∧
      (∀ step ∈ closing, QuietStep self.cloudflare.apiToken step) ∧
      (checking = [] ∧ report.failures ≠ [] ∨
        ∃ deadline, self.Checks allowCreate allowEditProbe deadline checking report) := by
  obtain ⟨setup, checking, closing, htrace, hsetup, hclosing, hchecking⟩ := runs_check_locked hrun
  refine ⟨setup, checking, closing, htrace,
    fun step member => quietStep_lock (hsetup step member) step.answer,
    fun step member => quietStep_lock (.inl (hclosing step member)) step.answer, ?_⟩
  rcases hchecking with ⟨error, hnil, rfl⟩ | hchecks
  · exact .inl ⟨hnil, by simp [CheckReport.push]⟩
  · exact .inr hchecks

theorem check_allowed {allowCreate allowEditProbe : Bool} {trace : List Step}
    {report : CheckReport} (hrun : Runs (self.check allowCreate allowEditProbe) trace report) :
    ∃ deadline, self.Allowed ⟨allowCreate, allowEditProbe, deadline⟩ [] trace := by
  obtain ⟨setup, checking, closing, rfl, hsetup, hclosing, hchecking⟩ := runs_check hrun
  rcases hchecking with ⟨rfl, -⟩ | ⟨deadline, hchecks⟩
  · refine ⟨0, allowed_of_quiet ?_ _⟩
    rw [List.nil_append, List.forall_mem_append]
    exact ⟨hsetup, hclosing⟩
  · have hfirst : self.Allowed ⟨allowCreate, allowEditProbe, deadline⟩ [] setup :=
      allowed_of_quiet hsetup []
    have hmiddle : self.Allowed ⟨allowCreate, allowEditProbe, deadline⟩ ([] ++ setup) checking :=
      hchecks.allowed hsetup
    exact ⟨deadline, hfirst.append (hmiddle.append (allowed_of_quiet hclosing _))⟩

end Updater

open Updater

/-- A check changes only what its flags allow, each zone at most once by a PATCH and not
after a creation, and its success covers every record. -/
theorem check_mutations_allowed (self : Updater) (hvalid : self.config.validate = .ok ())
    {allowCreate allowEditProbe : Bool} {trace : List Step} {report : CheckReport}
    (hrun : Runs (self.check allowCreate allowEditProbe) trace report) :
    (∃ deadline, ∀ before step after request, trace = before ++ step :: after →
      begunMutation step = some request →
      self.MutationAllowed ⟨allowCreate, allowEditProbe, deadline⟩ before request) ∧
    (∀ before after, trace = before ++ after →
      ∀ zoneId ∈ provenZones self.cloudflare.apiToken before,
        zoneId ∉ patchedZones self.cloudflare.apiToken after) ∧
    (patchedZones self.cloudflare.apiToken trace).Nodup ∧
    (report.isSuccess = true →
      report.existing + report.creatable + report.created = self.config.records.length) ∧
    (allowCreate = false → allowEditProbe = false →
      (∀ step ∈ trace, begunMutation step = none) ∧ report.isSuccess = false) := by
  obtain ⟨deadline, hallowed⟩ := check_allowed hrun
  have hsteps := coherentFrom_iff.mp hallowed
  simp only [foldl_concat, List.nil_append] at hsteps
  have hpatched : ∀ before after, trace = before ++ after →
      ∀ zoneId ∈ provenZones self.cloudflare.apiToken before,
        zoneId ∉ patchedZones self.cloudflare.apiToken after := by
    rintro before after rfl zoneId hproven hpatch
    obtain ⟨step, member, hstep⟩ := List.mem_filterMap.mp hpatch
    obtain ⟨between, rest, rfl⟩ := List.append_of_mem member
    have hfresh := (hsteps (before ++ between) step rest (by simp)).patch zoneId hstep
    apply hfresh
    unfold provenZones at hproven ⊢
    rw [List.filterMap_append]
    exact List.mem_append_left _ hproven
  refine ⟨⟨deadline, ?_⟩, hpatched, ?_, ?_, ?_⟩
  · intro before step after request heq hbegun
    exact (hsteps before step after heq).mutation request hbegun
  · exact nodup_patchedZones hpatched
  · intro hsuccess
    simp only [CheckReport.isSuccess, Bool.and_eq_true, List.isEmpty_iff] at hsuccess
    obtain ⟨_, _, _, -, -, -, ⟨-, hfailed⟩ | ⟨_, hchecks⟩⟩ := runs_check hrun
    · exact absurd hsuccess.2 hfailed
    · exact hchecks.covers hsuccess.2
  · rintro rfl rfl
    obtain ⟨setup, checking, closing, rfl, hsetup, hclosing, hchecking⟩ := runs_check hrun
    rw [List.forall_mem_append, List.forall_mem_append]
    rcases hchecking with ⟨rfl, hfailed⟩ | ⟨deadline', hchecks⟩
    · refine ⟨⟨fun step member => (hsetup step member).1, by simp,
        fun step member => (hclosing step member).1⟩, ?_⟩
      simp [CheckReport.isSuccess, hfailed]
    · obtain ⟨hquiet, hfails⟩ := hchecks.flagless (Config.validate_ok hvalid).2.2
      exact ⟨⟨fun step member => (hsetup step member).1,
        fun step member => (hquiet step member).1,
        fun step member => (hclosing step member).1⟩, hfails⟩

end

section

attribute [local instance] exampleExternals

/-- A zone with the first of two records. -/
def coveringScenario : Scenario where
  server := fun _ request =>
    match request with
    | .verifyToken _ => delivered 200 exampleVerificationBody
    | .listZones _ _ _ => delivered 200 exampleZonesBody
    | .listRecords _ _ name _ _ =>
        if name = "www.example.com" then delivered 200 siteFoundBody
        else delivered 200 exampleNoRecordsBody
    | .probeRecord _ _ _ | .createRecord _ _ => delivered 200 exampleRecordBody
    | _ => .failed "connection refused"
  provider := creationScenario.provider

/-- A check with both flags changes the record that exists by one PATCH and creates the other. It
is a success, and covers both. -/
theorem check_mutations_allowed_covering :
    let trace := coveringScenario.trace (pairUpdater.check true true)
    let report := coveringScenario.result (pairUpdater.check true true)
    report.isSuccess = true ∧ report.created = 1 ∧
      report.existing + report.creatable + report.created = 2 ∧
      patchedZones "token" trace = ["023e"] ∧
      (∃ deadline, ∀ before step after request, trace = before ++ step :: after →
        begunMutation step = some request →
        pairUpdater.MutationAllowed ⟨true, true, deadline⟩ before request) ∧
      ∀ before after, trace = before ++ after → ∀ zoneId ∈ provenZones "token" before,
        zoneId ∉ patchedZones "token" after := by
  have hvalid : pairUpdater.config.validate = .ok () := by
    decide +kernel
  obtain ⟨hallowed, hproven, -, hcovers, -⟩ := check_mutations_allowed pairUpdater hvalid
    (coveringScenario.runs (pairUpdater.check true true))
  have hends : (coveringScenario.result (pairUpdater.check true true)).isSuccess = true ∧
      (coveringScenario.result (pairUpdater.check true true)).created = 1 ∧
      patchedZones "token" (coveringScenario.trace (pairUpdater.check true true)) = ["023e"] := by
    decide +kernel
  obtain ⟨hsuccess, hcreated, hpatched⟩ := hends
  exact ⟨hsuccess, hcreated, hcovers hsuccess, hpatched, hallowed, hproven⟩

end

end Cirrusync
