import Cirrusync.Classification
import Cirrusync.CycleCount
import Cirrusync.DriverRefusal

/-!
Every exchange of a cycle that fails is reported. A lookup and a mutation end with the
first exchange that fails and hand its error up; the loop over the records adds it to the
report and never takes one away.
-/

namespace Cirrusync

open Effect

namespace CloudflareClient

variable [Externals] (self : CloudflareClient)

/-- The error that a step brings the client. -/
def failing (step : Step) : Option CloudflareError :=
  match replied step with
  | some (request, outcome) =>
      match receive self.apiToken request outcome with
      | .error error => some error
      | .ok _ => none
  | none => none

/-- The error met so far; a request is sent, and a wait finished, only before it. -/
def failureContract : Contract Ans (Option CloudflareError) :=
  .track (fun met op => GatedOp op → met = none) (fun _ _ => True)
    (fun met step => met.or (self.failing step))

@[simp] theorem failing_act (action : Action) (answer : action.Answer) :
    self.failing ⟨.act action, answer⟩ = none := rfl

theorem failing_of_not_request {step : Step} (h : ¬ RequestOp step.op) :
    self.failing step = none := by
  unfold failing replied
  split
  · rename_i hreplied
    split at hreplied
    · exact absurd trivial h
    · exact absurd trivial h
    · cases hreplied
  · rfl

/-- The program ends with the error of the first exchange that fails, as `blame` reads it. -/
def HandsUp {α : Type} (blame : α → Option CloudflareError) (p : M α) : Prop :=
  Holds self.failureContract (fun value met => ∀ error, met = some error →
    blame value = some error) p none

variable {self} {α β : Type} {blame : α → Option CloudflareError}
  {blame' : β → Option CloudflareError}

theorem holds_failure_ask {post : α → Option CloudflareError → Prop} {op : Op}
    {rest : Ans op → M α} {met : Option CloudflareError} :
    Holds self.failureContract post (.ask op rest) met ↔
      (GatedOp op → met = none) ∧ ∀ answer, Holds self.failureContract post (rest answer)
        (met.or (self.failing ⟨op, answer⟩)) := by
  unfold failureContract
  rw [holds_track_ask]
  simp

theorem HandsUp.done (value : α) : self.HandsUp blame (.done value) := by
  unfold HandsUp failureContract
  rw [holds_track_done]
  intro error hmet
  cases hmet

theorem HandsUp.act {action : Action} {rest : action.Answer → M α}
    (h : ∀ answer, self.HandsUp blame (rest answer)) :
    self.HandsUp blame (.ask (.act action) rest) :=
  holds_failure_ask.mpr ⟨fun _ => rfl, h⟩

/-- What comes after an error is that error. -/
theorem HandsUp.bind {p : M α} {f : α → M β} (hp : self.HandsUp blame p)
    (hok : ∀ value, blame value = none → self.HandsUp blame' (f value))
    (herror : ∀ value error, blame value = some error →
      ∃ result, f value = .done result ∧ blame' result = some error) :
    self.HandsUp blame' (p >>= f) := by
  apply holds_bind
  refine holds_mono hp ?_
  intro value met hmet
  cases hblame : blame value with
  | none =>
      have hnone : met = none := by
        cases met with
        | none => rfl
        | some error => cases hblame.symm.trans (hmet error rfl)
      rw [hnone]
      exact hok value hblame
  | some error =>
      obtain ⟨result, hf, hresult⟩ := herror value error hblame
      rw [hf]
      unfold failureContract
      rw [holds_track_done]
      intro other hother
      rw [hresult, ← hblame]
      exact hmet other hother

theorem HandsUp.timeoutAt {deadline : Instant} {p : M α} (h : self.HandsUp blame p) :
    self.HandsUp (fun result => result.bind blame) (timeoutAt deadline p) := by
  refine holds_mono (@holds_timeoutAt _ _ self.failureContract deadline
    (fun value met => ∀ error, met = some error → blame value = some error)
    (fun met => met = none) p none ?_ h) ?_
  · intro met wait hpermits
    have hnone : met = none := hpermits trivial
    refine ⟨fun _ => hnone, ?_, ?_⟩
    · rintro answer met' ⟨-, hmet'⟩
      refine ⟨trivial, ?_⟩
      rw [hmet']
      cases wait <;> rfl
    · rintro met' met'' ⟨-, hmet'⟩ hsame
      have hfailing : self.failing ⟨.finishBefore deadline wait, none⟩ = none := by
        cases wait <;> rfl
      simp only [hfailing, hnone, Option.or_none] at hmet'
      exact hsame.symm.trans hmet'
  · intro result met hpost
    cases result with
    | none =>
        rintro error rfl
        cases hpost
    | some value => exact hpost

/-- Each error that a run has met is the one it ends with. -/
theorem HandsUp.run {p : M α} (h : self.HandsUp blame p) {trace : List Step} {value : α}
    (hrun : Runs p trace value) {step : Step} (member : step ∈ trace) {error : CloudflareError}
    (hfailing : self.failing step = some error) : blame value = some error := by
  obtain ⟨before, after, rfl⟩ := List.append_of_mem member
  have hgated : GatedOp step.op := by
    by_contra hnot
    rw [failing_of_not_request _ (mt RequestOp.gated hnot)] at hfailing
    cases hfailing
  have hnone : before.foldl (fun met step => met.or (self.failing step)) none = none :=
    track_permits h hrun.reaches coherentFrom_true hgated
  have hlater : ∀ steps : List Step,
      steps.foldl (fun met step => met.or (self.failing step)) (some error) = some error := by
    intro steps
    induction steps with
    | nil => rfl
    | cons step rest ih => exact ih
  refine track_run h hrun coherentFrom_true error ?_
  rw [List.foldl_append, hnone, List.foldl_cons, hfailing]
  exact hlater after

/-- The error of a result. -/
def errorOf (result : Except CloudflareError α) : Option CloudflareError :=
  match result with
  | .ok _ => none
  | .error error => some error

/-- The error of a stage's result. -/
def stageErrorOf (result : Except (FailureStage × CloudflareError) α) : Option CloudflareError :=
  errorOf (result.mapError Prod.snd)

theorem send_handsUp (request : Request) : self.HandsUp errorOf (self.send request) := by
  unfold HandsUp send
  simp only [await_eq, Program.ask_bind, Program.done_bind]
  refine holds_failure_ask.mpr ⟨fun _ => rfl, fun _ => ?_⟩
  refine holds_failure_ask.mpr ⟨fun _ => rfl, fun outcome => ?_⟩
  rw [failing_act, Option.none_or, Option.none_or]
  unfold failureContract
  rw [Program.pure_eq, holds_track_done]
  intro error hmet
  simp only [failing, replied] at hmet
  cases hreceive : receive self.apiToken request outcome with
  | ok response =>
      rw [hreceive] at hmet
      cases hmet
  | error received =>
      rw [hreceive] at hmet
      exact hmet

/-- An error of the result is handed up as it is. -/
theorem HandsUp.bind_except {γ : Type} {p : M (Except CloudflareError α)}
    {f : Except CloudflareError α → M (Except CloudflareError γ)}
    (hp : self.HandsUp errorOf p) (hok : ∀ value, self.HandsUp errorOf (f (.ok value)))
    (herror : ∀ error, f (.error error) = .done (.error error)) :
    self.HandsUp errorOf (p >>= f) := by
  refine hp.bind ?_ ?_
  · intro value hvalue
    cases value with
    | ok value => exact hok value
    | error error => cases hvalue
  · intro value error hvalue
    cases value with
    | ok value => cases hvalue
    | error error' => exact ⟨_, herror error', hvalue⟩

theorem resolveExplicitZoneId_handsUp (zoneName zoneId : String) :
    self.HandsUp errorOf (self.resolveExplicitZoneId zoneName zoneId) := by
  refine .act fun cached => ?_
  cases cached with
  | some cachedZoneId => exact .done _
  | none =>
      refine (send_handsUp _).bind_except ?_ fun _ => rfl
      intro response
      simp only
      split
      · exact .done _
      · exact .act fun _ => .done _

theorem zonePages_handsUp (zoneName : String) (left page : Nat)
    (exactMatch inactiveMatch : Option String) :
    self.HandsUp errorOf (self.zonePages zoneName left page exactMatch inactiveMatch) := by
  induction left generalizing page exactMatch inactiveMatch with
  | zero => exact .done _
  | succ left ih =>
      refine (send_handsUp _).bind_except ?_ fun _ => rfl
      intro response
      simp only
      split
      · exact .done _
      · split
        · exact ih _ _ _
        · split
          · exact .done _
          · exact .act fun _ => .done _

theorem resolveZoneId_handsUp (zoneName : String) (explicitZoneId : Option String) :
    self.HandsUp errorOf (self.resolveZoneId zoneName explicitZoneId) := by
  cases explicitZoneId with
  | some zoneId => exact resolveExplicitZoneId_handsUp zoneName zoneId
  | none =>
      refine .act fun cached => ?_
      cases cached with
      | some cachedZoneId => exact .done _
      | none => exact zonePages_handsUp zoneName _ _ _ _

theorem sendInZone_handsUp (zoneId : String) (request : Request) :
    self.HandsUp errorOf (self.sendInZone zoneId request) := by
  apply holds_bind
  refine holds_mono (send_handsUp request) ?_
  intro result met hmet
  cases result with
  | ok response =>
      have hnone : met = none := by
        cases met with
        | none => rfl
        | some error => cases hmet error rfl
      rw [hnone]
      exact HandsUp.done _
  | error received =>
      have hend : ∀ answered : Option CloudflareError, answered = met →
          Holds self.failureContract (fun value met => ∀ error, met = some error →
            errorOf value = some error)
            (.done (.error received : Except CloudflareError
              (ApiResponse request.kind.Value))) answered := by
        rintro _ rfl
        unfold failureContract
        rw [holds_track_done]
        exact hmet
      simp only [invalidateZoneAfterNotFound]
      split
      · refine holds_failure_ask.mpr ⟨fun h => h.elim, fun answer => ?_⟩
        rw [failing_act, Option.or_none]
        exact hend met rfl
      · exact hend met rfl

theorem recordPages_handsUp (zoneId recordType name : String) (left page : Nat)
    (exactMatch : Option DnsRecord) :
    self.HandsUp errorOf (self.recordPages zoneId recordType name left page exactMatch) := by
  induction left generalizing page exactMatch with
  | zero => exact .done _
  | succ left ih =>
      refine (sendInZone_handsUp zoneId _).bind_except ?_ fun _ => rfl
      intro response
      simp only
      split
      · exact .done _
      · split
        · exact ih _ _
        · exact .done _

end CloudflareClient

namespace Updater

variable [Externals] {updater : Updater}

/-- A step of a stage: its error is handed up with the stage's name. -/
theorem handsUp_stage {α β : Type} {stage : FailureStage} {p : M (Except CloudflareError α)}
    {f : Except CloudflareError α → M (Except (FailureStage × CloudflareError) β)}
    (hp : updater.cloudflare.HandsUp CloudflareClient.errorOf p)
    (hok : ∀ value, updater.cloudflare.HandsUp CloudflareClient.stageErrorOf (f (.ok value)))
    (herror : ∀ error, f (.error error) = .done (.error (stage, error))) :
    updater.cloudflare.HandsUp CloudflareClient.stageErrorOf (p >>= f) := by
  refine hp.bind ?_ ?_
  · intro value hvalue
    cases value with
    | ok value => exact hok value
    | error error => cases hvalue
  · intro value error hvalue
    cases value with
    | ok value => cases hvalue
    | error error' => exact ⟨_, herror error', hvalue⟩

theorem planRecord_handsUp (record : RecordConfig) (address : IpAddr) :
    updater.cloudflare.HandsUp CloudflareClient.stageErrorOf
      (updater.planRecord record address) := by
  refine handsUp_stage (CloudflareClient.resolveZoneId_handsUp _ _) ?_ fun _ => rfl
  intro zoneId
  refine handsUp_stage (CloudflareClient.recordPages_handsUp _ _ _ _ _ _) ?_ fun _ => rfl
  intro found
  cases found with
  | some existing => exact .done _
  | none =>
      simp only
      split
      · exact .done _
      · refine handsUp_stage (CloudflareClient.recordPages_handsUp _ _ _ _ _ _) ?_ fun _ => rfl
        intro again
        cases again with
        | some existing => exact .done _
        | none => exact .done _

/-- If some step of a mutation brings an error, then that is the result of the mutation. The only
such step is the response, since the flags around it bring nothing. -/
theorem mutationSteps_failing {zoneId : String} {request : Request} {outcome : HttpOutcome}
    {result : Except CloudflareError DnsRecord}
    {read : ApiResponse request.kind.Value → DnsRecord}
    (hresult : result = (receive updater.cloudflare.apiToken request outcome).map read)
    {step : Step} (member : step ∈ mutationSteps zoneId request outcome result)
    {error : CloudflareError} (hfailing : updater.cloudflare.failing step = some error) :
    result = .error error := by
  have hevictions : ∀ step ∈ evictions zoneId result, updater.cloudflare.failing step = none := by
    intro step member
    cases result with
    | ok value => cases member
    | error error =>
        simp only [evictions] at member
        split at member
        · obtain rfl := List.mem_singleton.mp member
          rfl
        · cases member
  unfold mutationSteps exchange at member
  simp only [List.mem_append, List.mem_cons, List.not_mem_nil, or_false] at member
  rcases member with (rfl | (rfl | rfl) | member) | rfl
  · cases hfailing
  · cases hfailing
  · simp only [CloudflareClient.failing, replied] at hfailing
    cases hreceive : receive updater.cloudflare.apiToken request outcome with
    | ok response =>
        rw [hreceive] at hfailing
        cases hfailing
    | error received =>
        rw [hreceive] at hfailing hresult
        cases hfailing
        exact hresult
  · rw [hevictions step member] at hfailing
    cases hfailing
  · cases hfailing

theorem executes_failing {plan : RecordPlan} {mutation : List Step}
    {result : Except (FailureStage × CloudflareError) RecordOutcome}
    (h : updater.Executes plan mutation result) {step : Step} (member : step ∈ mutation)
    {error : CloudflareError} (hfailing : updater.cloudflare.failing step = some error) :
    ∃ stage, result = .error (stage, error) := by
  cases h with
  | unchanged => cases member
  | update hresult =>
      rw [mutationSteps_failing hresult member hfailing]
      exact ⟨_, rfl⟩
  | create hresult =>
      rw [mutationSteps_failing hresult member hfailing]
      exact ⟨_, rfl⟩

theorem settle_reports (record : RecordConfig) (report : CycleReport) (stage : FailureStage)
    (error : CloudflareError) :
    Reports (settle record report (.error (stage, error))).value.failures error := by
  simp only [settle]
  split
  · exact reports_push report.failures record.name stage error
  · exact reports_push report.failures record.name stage error

/-- A visit adds to the failures. -/
theorem visit_appends {deadline : Instant} {addresses : DiscoveredAddresses}
    {record : RecordConfig} {report : CycleReport} {trace : List Step} {flow : Flow CycleReport}
    (h : updater.Visits deadline addresses record report trace flow) :
    ∃ more, flow.value.failures = report.failures ++ more := by
  have hsettle : ∀ result : Except (FailureStage × CloudflareError) RecordOutcome,
      ∃ more, (settle record report result).value.failures = report.failures ++ more := by
    intro result
    match result with
    | .ok .unchanged => exact ⟨[], (List.append_nil _).symm⟩
    | .ok .updated => exact ⟨[], (List.append_nil _).symm⟩
    | .ok .created => exact ⟨[], (List.append_nil _).symm⟩
    | .error (stage, error) =>
        refine ⟨[cloudflareFailure record.name stage error], ?_⟩
        simp only [settle]
        split
        · rfl
        · rfl
  cases h with
  | stopped => exact ⟨[], (List.append_nil _).symm⟩
  | noAddress _ => exact ⟨[], (List.append_nil _).symm⟩
  | planExpired _ _ => exact ⟨[cycleDeadlineFailure], rfl⟩
  | planFailed _ _ => exact hsettle _
  | planLate _ _ _ => exact ⟨[cycleDeadlineFailure], rfl⟩
  | executed _ _ _ _ => exact hsettle _

/-- A visit reports the exchange that fails in it. -/
theorem visit_reports {deadline : Instant} {addresses : DiscoveredAddresses}
    {record : RecordConfig} {report : CycleReport} {trace : List Step} {flow : Flow CycleReport}
    (h : updater.Visits deadline addresses record report trace flow) {step : Step}
    (member : step ∈ trace) {error : CloudflareError}
    (hfailing : updater.cloudflare.failing step = some error) :
    Reports flow.value.failures error := by
  have hplanning : ∀ {address : IpAddr} {planning : List Step}
      {result : Option (Except (FailureStage × CloudflareError) RecordPlan)},
      Runs (timeoutAt deadline (updater.planRecord record address)) planning result →
      step ∈ planning → result.bind CloudflareClient.stageErrorOf = some error :=
    fun hrun member => (planRecord_handsUp record _).timeoutAt.run hrun member hfailing
  cases h with
  | stopped =>
      obtain rfl := List.mem_singleton.mp member
      cases hfailing
  | noAddress _ =>
      obtain rfl := List.mem_singleton.mp member
      cases hfailing
  | planExpired _ hrun =>
      rcases List.mem_cons.mp member with rfl | member
      · cases hfailing
      · cases hplanning hrun member
  | @planFailed _ _ failure _ hrun =>
      rcases List.mem_cons.mp member with rfl | member
      · cases hfailing
      · obtain ⟨stage, failed⟩ := failure
        obtain rfl : failed = error := Option.some.inj (hplanning hrun member)
        exact settle_reports record report stage failed
  | planLate _ hrun _ =>
      rcases List.mem_cons.mp member with rfl | member
      · cases hfailing
      · rcases List.mem_append.mp member with member | member
        · cases hplanning hrun member
        · obtain rfl := List.mem_singleton.mp member
          cases hfailing
  | executed _ hrun _ hexecutes =>
      rcases List.mem_cons.mp member with rfl | member
      · cases hfailing
      · rcases List.mem_append.mp member with member | member
        · cases hplanning hrun member
        · rcases List.mem_cons.mp member with rfl | member
          · cases hfailing
          · obtain ⟨stage, rfl⟩ := executes_failing hexecutes member hfailing
            exact settle_reports record report stage error

theorem visitsAll_appends {deadline : Instant} {addresses : DiscoveredAddresses}
    {records : List RecordConfig} {report final : CycleReport} {trace : List Step}
    (h : updater.VisitsAll deadline addresses records report trace final) :
    ∃ more, final.failures = report.failures ++ more := by
  induction h with
  | done report => exact ⟨[], (List.append_nil _).symm⟩
  | next hvisit _ ih =>
      obtain ⟨more, hmore⟩ := visit_appends hvisit
      obtain ⟨later, hlater⟩ := ih
      exact ⟨more ++ later, by rw [hlater, ← List.append_assoc, ← hmore]; rfl⟩
  | stop hvisit => exact visit_appends hvisit

theorem visitsAll_reports {deadline : Instant} {addresses : DiscoveredAddresses}
    {records : List RecordConfig} {report final : CycleReport} {trace : List Step}
    (h : updater.VisitsAll deadline addresses records report trace final) {step : Step}
    (member : step ∈ trace) {error : CloudflareError}
    (hfailing : updater.cloudflare.failing step = some error) :
    Reports final.failures error := by
  induction h with
  | done report => cases member
  | next hvisit hlater ih =>
      rcases List.mem_append.mp member with member | member
      · obtain ⟨more, hmore⟩ := visitsAll_appends hlater
        rw [hmore]
        exact reports_append (visit_reports hvisit member hfailing) more
      · exact ih member
  | stop hvisit => exact visit_reports hvisit member hfailing

/-- A cycle reports every exchange that fails. -/
theorem cycle_reports {deadline : Instant} {trace : List Step} {report : CycleReport}
    (hrun : Runs (updater.runCycleUntil deadline) trace report) {step : Step}
    (member : step ∈ trace) {error : CloudflareError}
    (hfailing : updater.cloudflare.failing step = some error) :
    Reports report.failures error := by
  have hdiscovery : ∀ {discovery : List Step} {found : Option DiscoveredAddresses},
      Runs (timeoutAt deadline updater.discoverRequiredAddresses) discovery found →
      step ∉ discovery := by
    intro discovery found hrun member
    have hop := uses_runs (uses_timeoutAt (fun _ => DiscoveryOp.finishBefore)
      updater.discoverRequiredAddresses_uses) hrun step member
    rw [CloudflareClient.failing_of_not_request _ fun hrequest => hrequest.not_discovery hop]
      at hfailing
    cases hfailing
  cases updater.runCycleUntil_cycles hrun with
  | undiscovered hfound => exact absurd member (hdiscovery hfound)
  | unmanaged hfound _ => exact absurd member (hdiscovery hfound)
  | visited hfound _ hvisits =>
      rcases List.mem_append.mp member with member | member
      · exact absurd member (hdiscovery hfound)
      · rcases List.mem_cons.mp member with rfl | member
        · cases hfailing
        · exact visitsAll_reports hvisits member hfailing

theorem cycleLocked_reports {trace : List Step} {report : CycleReport}
    (hrun : Runs updater.runCycleLocked trace report) {step : Step} (member : step ∈ trace)
    {error : CloudflareError} (hfailing : updater.cloudflare.failing step = some error) :
    Reports report.failures error := by
  unfold runCycleLocked at hrun
  obtain ⟨now, rest, rfl, hrest⟩ := (runs_ask_iff _ _ _ _).mp hrun
  rcases List.mem_cons.mp member with rfl | member
  · cases hfailing
  · exact cycle_reports hrest member hfailing

end Updater

end Cirrusync
