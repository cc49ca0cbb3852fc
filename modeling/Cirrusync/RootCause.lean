import Cirrusync.CheckMutations

/-!
What the report of a check says after an authentication failure. The failure itself is in
it; where the check had come to its records, so is a failure for every zone that was not
proved until then, although nothing was tried in it.
-/

namespace Cirrusync

open Effect

theorem head?_append_of {c : Char} {s t : String} (h : s.toList.head? = some c) :
    (s ++ t).toList.head? = some c := by
  rw [String.toList_append, List.head?_append, h]
  rfl

section

variable [Externals]

/-- The text of an exchange's error is none of the check's own texts. -/
theorem display_of_exchange {error : CloudflareError} (h : error.isExchangeError = true) :
    ∃ first, error.display.toList.head? = some first ∧ first ≠ 'D' := by
  have hupper : ∀ {text : String}, text.toList.head? = some 'C' →
      ∃ first, text.toList.head? = some first ∧ first ≠ 'D' := by
    intro text htext
    exact ⟨'C', htext, by decide⟩
  cases error with
  | request operation source =>
      exact hupper (head?_append_of (head?_append_of (head?_append_of rfl)))
  | authentication status message errors =>
      exact hupper (head?_append_of (head?_append_of (head?_append_of rfl)))
  | permissionDenied status message errors =>
      exact hupper (head?_append_of (head?_append_of (head?_append_of rfl)))
  | rateLimited retryAfter retrySuffix message errors =>
      exact hupper (head?_append_of (head?_append_of (head?_append_of rfl)))
  | api operation status retryAfter retrySuffix message errors =>
      exact hupper (head?_append_of (head?_append_of (head?_append_of (head?_append_of
        (head?_append_of (head?_append_of (head?_append_of rfl)))))))
  | malformedResponse operation reason =>
      exact ⟨'m', head?_append_of (head?_append_of (head?_append_of rfl)), by decide⟩
  | responseTooLarge operation limit =>
      exact hupper (head?_append_of (head?_append_of (head?_append_of rfl)))
  | missingResult operation => exact hupper (head?_append_of rfl)
  | _ => cases h

namespace Updater

/-- The failure of an edit probe that was sent. -/
def ProbeFailed (updater : Updater) (trace : List Step) (failure : CycleFailure) : Prop :=
  ∃ zoneId record outcome error target,
    exchange (CloudflareClient.probeRequest zoneId record) outcome <:+: trace ∧
    receive updater.cloudflare.apiToken (CloudflareClient.probeRequest zoneId record) outcome =
      .error error ∧
    failure = cloudflareFailure target .editPermission error

/-- The report of a check holds a failure, and of DNS Edit only that of probes. -/
structure RootCauseOnly (updater : Updater) (trace : List Step) (error : CloudflareError)
    (report : CheckReport) : Prop where
  reported : Reports report.failures error
  probed : ∀ failure ∈ report.failures, failure.stage = .editPermission →
    ProbeFailed updater trace failure

variable {updater : Updater}

theorem ProbeFailed.mono {trace trace' : List Step} {failure : CycleFailure}
    (h : ProbeFailed updater trace failure) (hwithin : trace <:+: trace') :
    ProbeFailed updater trace' failure := by
  obtain ⟨zoneId, record, outcome, error, target, hexchange, hreceive, hfailure⟩ := h
  exact ⟨zoneId, record, outcome, error, target, hexchange.trans hwithin, hreceive, hfailure⟩

/-- A failure that the check adds for a zone without proof is not that of a probe. -/
theorem not_probeFailed {trace : List Step} {target message : String}
    (hmessage : message.toList.head? = some 'D') :
    ¬ ProbeFailed updater trace (permanentFailure target .editPermission message) := by
  rintro ⟨zoneId, record, outcome, error, target', -, hreceive, hfailure⟩
  have htext : message = error.display := congrArg CycleFailure.message hfailure
  obtain ⟨first, hfirst, hne⟩ := display_of_exchange (receive_error hreceive).1
  rw [← htext, hmessage] at hfirst
  exact hne (Option.some.inj hfirst).symm

/-- These steps add no failure of DNS Edit to a report but that of a probe. -/
def AddsProbes (updater : Updater) (steps : List Step) (before after : List CycleFailure) :
    Prop :=
  ∀ failure ∈ after, failure.stage = .editPermission →
    failure ∈ before ∨ ProbeFailed updater steps failure

theorem AddsProbes.refl (steps : List Step) (failures : List CycleFailure) :
    AddsProbes updater steps failures failures :=
  fun _ member _ => .inl member

theorem AddsProbes.push {steps : List Step} {before : List CycleFailure} {failure : CycleFailure}
    (h : failure.stage = .editPermission → ProbeFailed updater steps failure) :
    AddsProbes updater steps before (before ++ [failure]) := by
  intro other member hstage
  rcases List.mem_append.mp member with member | member
  · exact .inl member
  · obtain rfl := List.mem_singleton.mp member
    exact .inr (h hstage)

theorem AddsProbes.mono {steps steps' : List Step} {before after : List CycleFailure}
    (h : AddsProbes updater steps before after) (hwithin : steps <:+: steps') :
    AddsProbes updater steps' before after := by
  intro failure member hstage
  rcases h failure member hstage with hbefore | hprobe
  · exact .inl hbefore
  · exact .inr (hprobe.mono hwithin)

theorem AddsProbes.append {first second : List Step} {before middle after : List CycleFailure}
    (hfirst : AddsProbes updater first before middle)
    (hsecond : AddsProbes updater second middle after) :
    AddsProbes updater (first ++ second) before after := by
  intro failure member hstage
  rcases hsecond failure member hstage with hmiddle | hprobe
  · exact hfirst.mono (List.prefix_append _ _).isInfix failure hmiddle hstage
  · exact .inr (hprobe.mono (List.suffix_append _ _).isInfix)

/-- A Cloudflare error at another stage. -/
theorem addsProbes_failCheck (steps : List Step) {target : String} {stage : FailureStage}
    {state : CheckState} {error : CloudflareError} (hstage : stage ≠ .editPermission) :
    AddsProbes updater steps state.report.failures
      (failCheck target stage state error).value.report.failures := by
  rw [failures_failCheck]
  exact .push fun h => absurd h hstage

/-- The handling of an existing record adds no failure of DNS Edit to the report but that of a
probe which has failed in one of its own steps. -/
theorem HandlesExisting.addsProbes {record : RecordConfig} {zoneId : String}
    {existing : DnsRecord} {options : CheckOptions} {state : CheckState} {handling : List Step}
    {flow : Flow CheckState}
    (h : updater.HandlesExisting record zoneId existing options state handling flow) :
    AddsProbes updater handling state.report.failures flow.value.report.failures := by
  cases h with
  | counted => exact .refl _ _
  | late =>
      refine .push fun hstage => ?_
      cases hstage
  | @probed now outcome result _ _ _ hresult =>
      cases result with
      | ok updated => exact .refl _ _
      | error error =>
          have hreceive : receive updater.cloudflare.apiToken
              (CloudflareClient.probeRequest zoneId existing) outcome = .error error := by
            cases hanswer : receive updater.cloudflare.apiToken
                (CloudflareClient.probeRequest zoneId existing) outcome with
            | ok response =>
                rw [hanswer] at hresult
                cases hresult
            | error error' =>
                rw [hanswer] at hresult
                cases hresult
                rfl
          simp only [settleProbe]
          rw [failures_failCheck]
          refine .push fun _ => ⟨zoneId, existing, outcome, error, record.name, ?_, hreceive, rfl⟩
          unfold mutationSteps
          refine ⟨[⟨.act .now, now⟩, ⟨.act (.setMutationInFlight true), ()⟩],
            evictions zoneId (.error error : Except CloudflareError DnsRecord) ++
              [⟨.act (.setMutationInFlight false), ()⟩], ?_⟩
          simp only [List.cons_append, List.nil_append, List.append_assoc]

theorem HandlesMissing.addsProbes {record : RecordConfig} {zoneId : String}
    {addresses : DiscoveredAddresses} {options : CheckOptions} {state : CheckState}
    {handling : List Step} {flow : Flow CheckState}
    (h : updater.HandlesMissing record zoneId addresses options state handling flow) :
    AddsProbes updater handling state.report.failures flow.value.report.failures := by
  have hpush : ∀ (steps : List Step) {failure : CycleFailure}, failure.stage ≠ .editPermission →
      AddsProbes updater steps state.report.failures (state.push failure).report.failures :=
    fun steps failure hstage => .push fun h => absurd h hstage
  cases h with
  | disabled => exact hpush _ FailureStage.noConfusion
  | creatable => exact .refl _ _
  | noAddress => exact .refl _ _
  | late => exact hpush _ FailureStage.noConfusion
  | recheckExpired => exact hpush _ FailureStage.noConfusion
  | recheckFailed => exact addsProbes_failCheck _ FailureStage.noConfusion
  | @appeared _ now recheck handling _ _ _ _ _ _ _ hexisting =>
      refine (HandlesExisting.addsProbes hexisting).mono ?_
      exact ⟨⟨.act .now, now⟩ :: recheck, [], by simp⟩
  | lateAgain => exact hpush _ FailureStage.noConfusion
  | @created _ _ _ _ _ result =>
      cases result with
      | ok created => exact .refl _ _
      | error error => exact addsProbes_failCheck _ FailureStage.noConfusion

theorem ChecksRecord.addsProbes {addresses : DiscoveredAddresses} {options : CheckOptions}
    {record : RecordConfig} {state : CheckState} {checking : List Step} {flow : Flow CheckState}
    (h : updater.ChecksRecord addresses options record state checking flow) :
    AddsProbes updater checking state.report.failures flow.value.report.failures := by
  cases h with
  | expired =>
      refine .push fun hstage => ?_
      cases hstage
  | @failed _ proofs stage error hinspects =>
      have hstage : stage ≠ .editPermission := by
        cases hinspects with
        | zoneFailed => exact FailureStage.noConfusion
        | lookupFailed => exact FailureStage.noConfusion
      have hadds : AddsProbes updater checking
          ({ state with proofs := proofs } : CheckState).report.failures
          (failCheck record.name stage { state with proofs := proofs }
            error).value.report.failures :=
        addsProbes_failCheck _ hstage
      exact hadds
  | @existing inspection _ proofs _ _ _ _ hhandles =>
      have hadds : AddsProbes updater _
          ({ state with proofs := proofs } : CheckState).report.failures
          flow.value.report.failures := HandlesExisting.addsProbes hhandles
      exact hadds.mono (List.suffix_append _ _).isInfix
  | @missing inspection _ proofs _ _ _ hhandles =>
      have hadds : AddsProbes updater _
          ({ state with proofs := proofs } : CheckState).report.failures
          flow.value.report.failures := HandlesMissing.addsProbes hhandles
      exact hadds.mono (List.suffix_append _ _).isInfix

theorem ChecksAll.addsProbes {addresses : DiscoveredAddresses} {options : CheckOptions}
    {records : List RecordConfig} {state final : CheckState} {checking : List Step}
    (h : updater.ChecksAll addresses options records state checking final) :
    AddsProbes updater checking state.report.failures final.report.failures := by
  induction h with
  | done state => exact .refl _ _
  | next hchecks _ ih => exact (ChecksRecord.addsProbes hchecks).append ih
  | stop hchecks => exact ChecksRecord.addsProbes hchecks

/-- The turns of the records in the trace of a check, of which there are none where it did
not come to them. -/
inductive CheckTurns (updater : Updater) : List Step → List Turn → Prop where
  | none {trace : List Step} :
      (∀ step ∈ trace, step.op ≠ .act .newControl) → CheckTurns updater trace []
  | some {deadline : Instant} {setup checking closing : List Step} {turns : List Turn} :
      (∀ step ∈ setup, step.op ≠ .act .newControl) →
      TurnsOf updater deadline updater.config.records checking turns →
      (∀ step ∈ closing, LockOp step.op) →
      CheckTurns updater (setup ++ ⟨.act .newControl, ()⟩ :: (checking ++ closing)) turns

omit [Externals] in
theorem gated_of_replied {step : Step} {exchanged : Request × HttpOutcome}
    (h : replied step = some exchanged) : GatedOp step.op := by
  unfold replied at h
  split at h
  · trivial
  · trivial
  · cases h

/-- A refusal proves nothing. -/
theorem provenZone_of_refusal {step : Step} {error : CloudflareError}
    (h : updater.cloudflare.refusal step = some error) :
    provenZone updater.cloudflare.apiToken step = none := by
  unfold CloudflareClient.refusal at h
  unfold provenZone
  cases hreplied : replied step with
  | none => rfl
  | some exchanged =>
      obtain ⟨request, outcome⟩ := exchanged
      simp only [hreplied] at h ⊢
      by_cases hplain : request.isPlain = true
      · rw [updater.cloudflare.verdictOf_plain hplain] at h
        cases hreceive : receive updater.cloudflare.apiToken request outcome with
        | ok response =>
            rw [hreceive] at h
            cases h
        | error received => rfl
      · cases request with
        | verifyToken target => exact ite_self none
        | _ => exact absurd rfl hplain

/-- What is proved in a check that meets a refusal is proved before it. -/
theorem provenZones_before {allowCreate allowEditProbe : Bool} {before after : List Step}
    {step : Step} {error : CloudflareError} {report : CheckReport}
    (hrun : Runs (updater.check allowCreate allowEditProbe) (before ++ step :: after) report)
    (hrefusal : updater.cloudflare.refusal step = some error) :
    provenZones updater.cloudflare.apiToken (before ++ step :: after) =
      provenZones updater.cloudflare.apiToken before := by
  have hafter : provenZones updater.cloudflare.apiToken after = [] := by
    apply provenZones_eq_nil
    intro late member
    have hgated := CloudflareClient.not_gated_after_refusal
      (updater.check_refusal allowCreate allowEditProbe) hrefusal hrun.reaches member
    unfold provenZone
    cases hreplied : replied late with
    | none => rfl
    | some exchanged => exact absurd (gated_of_replied hreplied) hgated
  unfold provenZones at hafter ⊢
  rw [List.filterMap_append, List.filterMap_cons_none (provenZone_of_refusal hrefusal), hafter,
    List.append_nil]

omit [Externals] in
/-- The failures that a check adds for zones without proof, in its own words. -/
theorem finalizeCheckReport_failures (report : CheckReport) (proofs : ZoneProofs)
    (editProbeRequested : Bool) :
    ∃ message : String, message.toList.head? = some 'D' ∧
      (finalizeCheckReport report proofs editProbeRequested).failures =
        report.failures ++
          proofs.unverifiedTargets.map (permanentFailure · .editPermission message) := by
  refine ⟨_, ?_, foldl_push_failures (permanentFailure · .editPermission _) _ _⟩
  cases editProbeRequested
  · rfl
  · rfl

/-- A check that has got to its records adds a failure of DNS Edit for each zone without
proof, and no others but those of probes. -/
theorem ReachesRecords.rootCause_iff {allowCreate allowEditProbe : Bool} {deadline : Instant}
    {trace : List Step} {report : CheckReport} {addresses : DiscoveredAddresses}
    {start final : CheckState} {before checking : List Step}
    (h : ReachesRecords updater allowCreate allowEditProbe deadline trace report addresses start
      final before checking)
    (hstart : ∀ failure ∈ start.report.failures, failure.stage ≠ .editPermission)
    {whole : List Step} (hwhole : checking <:+: whole) :
    (∀ failure ∈ report.failures, failure.stage = .editPermission →
      ProbeFailed updater whole failure) ↔ final.proofs.unverifiedTargets = [] := by
  obtain ⟨message, hmessage, hfailures⟩ :=
    finalizeCheckReport_failures final.report final.proofs allowEditProbe
  have hreport : report.failures = final.report.failures ++
      final.proofs.unverifiedTargets.map (permanentFailure · .editPermission message) := by
    rw [h.report_eq]
    exact hfailures
  rw [hreport]
  constructor
  · intro hprobed
    cases htargets : final.proofs.unverifiedTargets with
    | nil => rfl
    | cons target rest =>
        rw [htargets, List.map_cons] at hprobed
        exact absurd (hprobed _ (List.mem_append_right _ List.mem_cons_self) rfl)
          (not_probeFailed hmessage)
  · intro hnone failure member hstage
    rw [hnone, List.map_nil, List.append_nil] at member
    rcases ChecksAll.addsProbes (updater.checkRecords_checksAll h.checks) failure member hstage
      with hfirst | hprobe
    · exact absurd hstage (hstart failure hfirst)
    · exact hprobe.mono hwhole

omit [Externals] in
/-- A step other than the mark that does not come before it comes after it. -/
theorem mem_of_split {α : Type} {lead visits before after : List α} {mark entry : α}
    (h : lead ++ mark :: visits = before ++ entry :: after) (hlead : entry ∉ lead)
    (hmark : mark ≠ entry) : mark ∈ before := by
  rcases List.append_eq_append_iff.mp h with ⟨rest, hbefore, hrest⟩ | ⟨rest, hlead', hrest⟩
  · cases rest with
    | nil =>
        rw [List.nil_append] at hrest
        exact absurd (List.cons_eq_cons.mp hrest).1 hmark
    | cons first rest =>
        obtain ⟨rfl, -⟩ := List.cons_eq_cons.mp hrest
        rw [hbefore]
        exact List.mem_append_right _ List.mem_cons_self
  · cases rest with
    | nil =>
        rw [List.nil_append] at hrest
        exact absurd (List.cons_eq_cons.mp hrest).1.symm hmark
    | cons first rest =>
        obtain ⟨rfl, -⟩ := List.cons_eq_cons.mp hrest
        refine absurd ?_ hlead
        rw [hlead']
        exact List.mem_append_right _ List.mem_cons_self

end Updater

open Updater

/-- When a check is aborted by a refusal, its failure is in the report. It is the only one,
but for probes that were sent, exactly when the check had not come to its records or each
configured zone had already been proved. -/
theorem root_cause_exact (updater : Updater) {allowCreate allowEditProbe : Bool}
    {before after : List Step} {step : Step} {error : CloudflareError} {report : CheckReport}
    (hrun : Runs (updater.check allowCreate allowEditProbe) (before ++ step :: after) report)
    (hrefusal : updater.cloudflare.refusal step = some error) :
    ∃ turns, CheckTurns updater (before ++ step :: after) turns ∧
      (RootCauseOnly updater (before ++ step :: after) error report ↔
        (∀ earlier ∈ before, earlier.op ≠ .act .newControl) ∨
        Exercised updater.config turns (provenZones updater.cloudflare.apiToken before)) := by
  have hreported : Reports report.failures error :=
    CloudflareClient.reports_refusal (updater.check_refusal allowCreate allowEditProbe)
      hrefusal hrun
  have hproven := provenZones_before hrun hrefusal
  obtain ⟨setup, checking, closing, htrace, hsetup, hclosing, hchecking⟩ := runs_check_locked hrun
  have hsetup' : ∀ entry ∈ setup, entry.op ≠ .act .newControl := by
    intro entry member hop
    rcases hsetup entry member with hlock | hnow
    · rw [hop] at hlock
      exact hlock
    · rw [hop] at hnow
      cases hnow
  have hclosing' : ∀ entry ∈ closing, entry.op ≠ .act .newControl := by
    intro entry member hop
    have hlock := hclosing entry member
    rw [hop] at hlock
    exact hlock
  -- A check that ends before its records says nothing about DNS Edit.
  have hearly : (∀ entry ∈ checking, entry.op ≠ .act .newControl) →
      (∀ failure ∈ report.failures, failure.stage ≠ .editPermission) →
      ∃ turns, CheckTurns updater (before ++ step :: after) turns ∧
        (RootCauseOnly updater (before ++ step :: after) error report ↔
          (∀ earlier ∈ before, earlier.op ≠ .act .newControl) ∨
          Exercised updater.config turns (provenZones updater.cloudflare.apiToken before)) := by
    intro hnone hstage
    have hall : ∀ entry ∈ before ++ step :: after, entry.op ≠ .act .newControl := by
      rw [htrace]
      exact List.forall_mem_append.mpr ⟨hsetup', List.forall_mem_append.mpr ⟨hnone, hclosing'⟩⟩
    refine ⟨[], .none hall, iff_of_true ⟨hreported, ?_⟩ (.inl ?_)⟩
    · exact fun failure member h => absurd h (hstage failure member)
    · exact fun earlier member => hall earlier (List.mem_append_left _ member)
  rcases hchecking with ⟨failed, rfl, rfl⟩ | ⟨deadline, hchecks⟩
  · refine hearly (fun _ member => absurd member List.not_mem_nil) ?_
    exact List.forall_mem_singleton.mpr FailureStage.noConfusion
  rcases hchecks.reaches_or with ⟨hnone, hstage⟩ |
    ⟨addresses, start, final, lead, visits, hreaches, hquiet, hstart⟩
  · exact hearly hnone hstage
  obtain ⟨turns, hturns, haccounts, hzones⟩ := hreaches.accounts
  have hwhole : before ++ step :: after =
      (setup ++ lead) ++ ⟨.act .newControl, ()⟩ :: (visits ++ closing) := by
    rw [htrace, hreaches.trace_eq]
    simp only [List.append_assoc, List.cons_append]
  have hlead : ∀ entry ∈ setup ++ lead, entry.op ≠ .act .newControl := by
    refine List.forall_mem_append.mpr ⟨hsetup', fun entry member hop => ?_⟩
    rcases hreaches.before_quiet entry member with hquiet | hquiet
    · rw [hop] at hquiet
      exact hquiet
    · rw [hop] at hquiet
      exact hquiet
  -- The refusal comes after the mark, so the mark is one of the steps before it.
  have hmark : (⟨.act .newControl, ()⟩ : Step) ∈ before := by
    refine mem_of_split hwhole.symm (fun member => ?_) ?_
    · rcases List.mem_append.mp member with member | member
      · rw [updater.cloudflare.refusal_of_not_request] at hrefusal
        · cases hrefusal
        · intro hrequest
          rcases hsetup step member with hlock | hnow
          · exact hrequest.not_lock hlock
          · rw [hnow] at hrequest
            exact hrequest
      · rw [hquiet step member] at hrefusal
        cases hrefusal
    · rintro rfl
      cases hrefusal
  have hexercised : Exercised updater.config turns
        (provenZones updater.cloudflare.apiToken before) ↔
      final.proofs.unverifiedTargets = [] := by
    have hsteps : provenZones updater.cloudflare.apiToken before =
        provenZones updater.cloudflare.apiToken (turns.flatMap Turn.steps) := by
      have hsetupNone : provenZones updater.cloudflare.apiToken setup = [] :=
        provenZones_eq_nil fun entry member =>
          (quietStep_lock (hsetup entry member) entry.answer).2
      have hclosingNone : provenZones updater.cloudflare.apiToken closing = [] :=
        provenZones_eq_nil fun entry member =>
          (quietStep_lock (.inl (hclosing entry member)) entry.answer).2
      rw [← hproven, htrace, ← hzones]
      unfold provenZones at hsetupNone hclosingNone ⊢
      rw [List.filterMap_append, List.filterMap_append, hsetupNone, hclosingNone,
        List.nil_append, List.append_nil]
    rw [hsteps]
    exact haccounts.unverifiedTargets_nil.symm
  have hwithin : visits <:+: before ++ step :: after := by
    rw [hwhole]
    exact ⟨(setup ++ lead) ++ [⟨.act .newControl, ()⟩], closing, by simp⟩
  refine ⟨turns, ?_, ?_⟩
  · rw [hwhole]
    exact .some hlead hturns hclosing
  · rw [hexercised, ← hreaches.rootCause_iff hstart hwithin]
    constructor
    · exact fun h => .inr h.probed
    · rintro (hnone | hprobed)
      · exact absurd rfl (hnone _ hmark)
      · exact ⟨hreported, hprobed⟩

end

section

open Updater

attribute [local instance] exampleExternals

/-- The token is revoked after it could not be verified: the zone lookup brings a 401. -/
def revokedScenario : Scenario where
  server := fun _ request =>
    match request with
    | .listZones _ _ _ => delivered 401 ""
    | _ => .failed "connection refused"
  provider := fun _ => some (delivered 200 "93.184.216.34")

/-- The step that brings the refusal of a check with a revoked token. -/
theorem revoked_refusal :
    ∃ before step after error,
      revokedScenario.trace (exampleUpdater.check false false) = before ++ step :: after ∧
      exampleUpdater.cloudflare.refusal step = some error ∧
      error.isAuthenticationFailure = true := by
  have hany : (revokedScenario.trace (exampleUpdater.check false false)).any
      (fun step => (exampleUpdater.cloudflare.refusal step).any
        CloudflareError.isAuthenticationFailure) = true := by
    decide +kernel
  obtain ⟨step, member, hstep⟩ := List.any_eq_true.mp hany
  obtain ⟨before, after, htrace⟩ := List.append_of_mem member
  cases hrefusal : exampleUpdater.cloudflare.refusal step with
  | none =>
      rw [hrefusal] at hstep
      cases hstep
  | some error =>
      rw [hrefusal, Option.any_some] at hstep
      exact ⟨before, step, after, error, htrace, hrefusal, hstep⟩

/-- The report of that check also has a failure for the zone that it did not reach. -/
theorem revoked_adds_failure :
    ∃ before step after error,
      revokedScenario.trace (exampleUpdater.check false false) = before ++ step :: after ∧
      exampleUpdater.cloudflare.refusal step = some error ∧
      error.isAuthenticationFailure = true ∧
      ¬ RootCauseOnly exampleUpdater (before ++ step :: after) error
        (revokedScenario.result (exampleUpdater.check false false)) := by
  obtain ⟨before, step, after, error, htrace, hrefusal, hauthentication⟩ := revoked_refusal
  refine ⟨before, step, after, error, htrace, hrefusal, hauthentication, fun honly => ?_⟩
  have hadded : permanentFailure "example.com" .editPermission
      "DNS edit permission was not exercised; rerun check with --allow-edit-probe" ∈
        (revokedScenario.result (exampleUpdater.check false false)).failures := by
    decide +kernel
  exact not_probeFailed rfl (honly.probed _ hadded rfl)

theorem root_cause_exact_revoked :
    ∃ before step after error turns,
      revokedScenario.trace (exampleUpdater.check false false) = before ++ step :: after ∧
      CheckTurns exampleUpdater (before ++ step :: after) turns ∧
      (RootCauseOnly exampleUpdater (before ++ step :: after) error
          (revokedScenario.result (exampleUpdater.check false false)) ↔
        (∀ earlier ∈ before, earlier.op ≠ .act .newControl) ∨
        Exercised exampleConfig turns (provenZones "token" before)) := by
  obtain ⟨before, step, after, error, htrace, hrefusal, -⟩ := revoked_refusal
  have hrun := revokedScenario.runs (exampleUpdater.check false false)
  rw [htrace] at hrun
  obtain ⟨turns, hturns, hexact⟩ := root_cause_exact exampleUpdater hrun hrefusal
  exact ⟨before, step, after, error, turns, htrace, hturns, hexact⟩

end

end Cirrusync
