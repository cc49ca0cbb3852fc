import Cirrusync.ZoneScope

/-!
One zone's part of a sequence of cycles does not depend on what happens to the other
zones. Two sequences that serve the zone alike are compared visit by visit: a visit to
a record of the zone runs the same in both, and a visit to any other record leaves the
zone's view as it is and the loop going.
-/

namespace Cirrusync

open Effect Text

/-- The requests of a zone lookup. -/
def Request.LooksUp (zoneName : String) (explicitZoneId : Option String) : Request → Prop
  | .listZones name _ _ => explicitZoneId = none ∧ name = zoneName
  | .getZone zoneId => explicitZoneId = some zoneId
  | _ => False

/-- What a zone lookup asks. -/
def ZoneLookupOp (zoneName : String) (explicitZoneId : Option String) : Op → Prop
  | .act (.begin (.http request)) | .finish (.http request) =>
      request.LooksUp zoneName explicitZoneId
  | .act (.cacheGet key) | .act (.cacheInsert key _) =>
      key = zoneCacheKey zoneName explicitZoneId
  | _ => False

theorem Request.LooksUp.sided {scope : ZoneScope} {zoneName : String}
    {explicitZoneId : Option String} {request : Request}
    (h : request.LooksUp zoneName explicitZoneId) :
    request.isPlain = true ∧
      scope.ofRequest request = scope.concerns zoneName explicitZoneId := by
  cases request with
  | listZones name page perPage =>
      obtain ⟨rfl, rfl⟩ := h
      exact ⟨rfl, rfl⟩
  | getZone zoneId =>
      obtain rfl : explicitZoneId = some zoneId := h
      exact ⟨rfl, rfl⟩
  | _ => exact h.elim

section

variable [Externals]

namespace CloudflareClient

variable (self : CloudflareClient)

theorem zonePages_asks (zoneName : String) (left page : Nat)
    (exactMatch inactiveMatch : Option String) :
    Uses (ZoneLookupOp zoneName none)
      (self.zonePages zoneName left page exactMatch inactiveMatch) := by
  induction left generalizing page exactMatch inactiveMatch with
  | zero => trivial
  | succ left ih =>
      unfold zonePages
      apply uses_bind (self.uses_send ⟨rfl, rfl⟩ ⟨rfl, rfl⟩)
      intro result
      cases result with
      | error error => trivial
      | ok response =>
          simp only
          split
          · trivial
          · split
            · exact ih _ _ _
            · split
              · trivial
              · exact ⟨rfl, fun _ => trivial⟩

theorem resolveZoneId_asks (zoneName : String) (explicitZoneId : Option String) :
    Uses (ZoneLookupOp zoneName explicitZoneId)
      (self.resolveZoneId zoneName explicitZoneId) := by
  cases explicitZoneId with
  | none =>
      refine ⟨rfl, fun cached => ?_⟩
      cases cached with
      | some cachedZoneId => trivial
      | none => exact self.zonePages_asks _ _ _ _ _
  | some zoneId =>
      refine ⟨rfl, fun cached => ?_⟩
      cases cached with
      | some cachedZoneId => trivial
      | none =>
          have hfirst : Uses (ZoneLookupOp zoneName (some zoneId))
              (self.send (.getZone zoneId)) := self.uses_send rfl rfl
          apply uses_bind hfirst
          intro result
          cases result with
          | error error => trivial
          | ok response =>
              simp only
              split
              · trivial
              · exact ⟨rfl, fun _ => trivial⟩

/-- What a zone lookup puts in the cache is the id that it returns. -/
theorem resolveZoneId_inserts {zoneName key zoneId : String} {explicitZoneId : Option String}
    {trace : List Step} {result : Except CloudflareError String} {step : Step}
    (hrun : Runs (self.resolveZoneId zoneName explicitZoneId) trace result)
    (member : step ∈ trace) (hop : step.op = .act (.cacheInsert key zoneId)) :
    result = .ok zoneId := by
  rcases self.runs_resolveZoneId hrun with
    ⟨cached, rfl, rfl⟩ | ⟨asking, rfl, huncached, -, -⟩
  · obtain rfl := List.mem_singleton.mp member
    cases hop
  · rcases List.mem_cons.mp member with rfl | member
    · cases hop
    · rcases List.mem_append.mp member with member | member
      · have hquiet := huncached step member
        rw [hop] at hquiet
        exact hquiet.elim
      · cases result with
        | error error => cases member
        | ok returned =>
            obtain rfl := List.mem_singleton.mp member
            cases hop
            rfl

end CloudflareClient

section

variable {scope : ZoneScope} {apiToken : String} {behaviour : ZoneBehaviour} {view : ZoneView}

/-- An id that a response confirms is on the side of the zone that was asked for. -/
theorem owns_of_confirms (hconsistent : scope.Consistent apiToken behaviour)
    {zoneName zoneId : String} {explicitZoneId : Option String} {step : Step}
    (hop : ZoneLookupOp zoneName explicitZoneId step.op)
    (hserved : scope.Served apiToken behaviour view step)
    (hconfirms : Confirms apiToken zoneName explicitZoneId zoneId step) :
    scope.owns zoneId = scope.concerns zoneName explicitZoneId := by
  obtain ⟨zone, member, -, hname, hid⟩ := hconfirms
  cases explicitZoneId with
  | some explicit => exact scope.caseless hid.2
  | none =>
      obtain rfl : zone.id = zoneId := hid
      have hasked : ∀ request outcome, replied step = some (request, outcome) →
          request.LooksUp zoneName none := by
        intro request outcome hreplied
        unfold replied at hreplied
        split at hreplied
        · cases hreplied
          exact hop
        · exact hop.elim
        · cases hreplied
      have hshown := member
      unfold zonesAnswered at hshown
      split at hshown
      · rename_i asked outcome hreplied
        cases hasked _ _ hreplied
      · rename_i name page perPage outcome hreplied
        obtain ⟨-, rfl⟩ := hasked _ _ hreplied
        cases hside : scope.concerns name none with
        | false => exact (hserved.other _ _ hreplied hside).2 zone member
        | true =>
            have hown : outcome = behaviour view.asked (.listZones name page perPage) :=
              hserved.own _ _ hreplied hside
            split at hshown
            · rename_i response hreceive
              rw [hown] at hreceive
              exact hconsistent _ _ _ _ _ zone hreceive hshown
                (eqIgnoreAsciiCase_trans hname hside)
            · cases hshown
      · cases hshown

/-- A zone lookup stays on the side of its zone, and so does the id it returns. -/
theorem resolveZoneId_sided (client : CloudflareClient)
    (hconsistent : scope.Consistent client.apiToken behaviour) {zoneName : String}
    {explicitZoneId : Option String} (hplain : PlainName zoneName) {trace : List Step}
    {result : Except CloudflareError String}
    (hrun : Runs (client.resolveZoneId zoneName explicitZoneId) trace result)
    (hsorted : scope.Sorted view)
    (hserved : CoherentFrom (scope.Served client.apiToken behaviour) scope.next view trace) :
    (∀ step ∈ trace, scope.Sided (scope.concerns zoneName explicitZoneId) step.op) ∧
      ∀ zoneId, result = .ok zoneId →
        scope.owns zoneId = scope.concerns zoneName explicitZoneId := by
  have huses := uses_runs (client.resolveZoneId_asks zoneName explicitZoneId) hrun
  have hkey : scope.KeyOf (scope.concerns zoneName explicitZoneId)
      (zoneCacheKey zoneName explicitZoneId) := ⟨zoneName, explicitZoneId, hplain, rfl, rfl⟩
  have howns : ∀ zoneId, result = .ok zoneId →
      scope.owns zoneId = scope.concerns zoneName explicitZoneId := by
    intro zoneId hresult
    rcases client.runs_resolveZoneId hrun with
      ⟨cached, rfl, rfl⟩ | ⟨asking, htrace, -, -, hconfirms⟩
    · cases hresult
      have hcached : some zoneId = view.cache (zoneCacheKey zoneName explicitZoneId) :=
        hserved.1.cache
      exact (hsorted _ _ hcached.symm).side hkey
    · obtain ⟨step, member, hstep⟩ := hconfirms zoneId hresult
      have hasked : step ∈ trace := by
        rw [htrace]
        exact List.mem_cons_of_mem _ (List.mem_append_left _ member)
      obtain ⟨_, hserved⟩ := coherent_of_mem hserved hasked
      exact owns_of_confirms hconsistent (huses step hasked) hserved hstep
  refine ⟨fun step member => ?_, howns⟩
  have hop := huses step member
  unfold ZoneLookupOp at hop
  split at hop
  · rename_i request heq
    rw [heq]
    exact hop.sided
  · rename_i request heq
    rw [heq]
    exact hop.sided
  · rename_i key heq
    rw [heq, hop]
    exact hkey
  · rename_i key zoneId heq
    rw [heq, hop]
    exact ⟨hkey, howns zoneId (client.resolveZoneId_inserts hrun member heq)⟩
  · exact hop.elim

theorem findRecord_sided (client : CloudflareClient) (zoneId recordType name : String) :
    Uses (scope.Sided (scope.owns zoneId)) (client.findRecord zoneId recordType name) := by
  apply client.uses_recordPages
  · exact fun _ => ⟨rfl, rfl⟩
  · exact fun _ => ⟨rfl, rfl⟩
  · rfl

end

/-- The zone that a plan changes. -/
def RecordPlan.zone : RecordPlan → Option String
  | .unchanged => none
  | .update zoneId _ _ | .create zoneId _ => some zoneId

theorem planExistingRecord_zone {record : RecordConfig} {address : IpAddr}
    {zoneId zoneId' : String} {existing : DnsRecord}
    (h : (planExistingRecord record address zoneId existing).zone = some zoneId') :
    zoneId' = zoneId := by
  unfold planExistingRecord at h
  split at h
  · cases h
  · exact (Option.some.inj h).symm

namespace Updater

variable (self : Updater) {scope : ZoneScope} {behaviour : ZoneBehaviour} {view : ZoneView}

/-- A plan is made, and is to be carried out, on the side of the record's zone. -/
theorem planRecord_sided (hconsistent : scope.Consistent self.cloudflare.apiToken behaviour)
    {record : RecordConfig} {address : IpAddr} (hplain : PlainName record.zone)
    {trace : List Step} {result : Except (FailureStage × CloudflareError) RecordPlan}
    (hrun : Runs (self.planRecord record address) trace result)
    (hsorted : scope.Sorted view)
    (hserved : CoherentFrom (scope.Served self.cloudflare.apiToken behaviour) scope.next view
      trace) :
    (∀ step ∈ trace, scope.Sided (scope.ofRecord record) step.op) ∧
      ∀ plan zoneId, result = .ok plan → plan.zone = some zoneId →
        scope.owns zoneId = scope.ofRecord record := by
  have hresolves : ∀ {zoneTrace later : List Step} {zone : Except CloudflareError String},
      self.resolves record zoneTrace zone → trace = zoneTrace ++ later →
      (∀ step ∈ zoneTrace, scope.Sided (scope.ofRecord record) step.op) ∧
        ∀ zoneId, zone = .ok zoneId → scope.owns zoneId = scope.ofRecord record := by
    rintro zoneTrace later zone hzone rfl
    exact resolveZoneId_sided self.cloudflare hconsistent hplain hzone hsorted
      (coherentFrom_append.mp hserved).1
  have hfinds : ∀ {zoneId : String} {lookup : List Step}
      {found : Except CloudflareError (Option DnsRecord)},
      scope.owns zoneId = scope.ofRecord record → self.finds record zoneId lookup found →
      ∀ step ∈ lookup, scope.Sided (scope.ofRecord record) step.op := by
    intro zoneId lookup found hown hfound
    rw [← hown]
    exact uses_runs (findRecord_sided self.cloudflare _ _ _) hfound
  have hexisting : ∀ {zoneId : String} {existing : DnsRecord},
      scope.owns zoneId = scope.ofRecord record →
      ∀ plan zoneId', Except.ok (planExistingRecord record address zoneId existing) =
        (.ok plan : Except (FailureStage × CloudflareError) RecordPlan) →
        plan.zone = some zoneId' → scope.owns zoneId' = scope.ofRecord record := by
    intro zoneId existing hown plan zoneId' hplan hzone
    cases hplan
    rw [planExistingRecord_zone hzone]
    exact hown
  cases self.planRecord_plans hrun with
  | zoneFailed hzone =>
      obtain ⟨hsided, -⟩ := hresolves hzone (List.append_nil _).symm
      exact ⟨hsided, fun plan zoneId heq => (by cases heq)⟩
  | lookupFailed hzone hfound =>
      obtain ⟨hsided, hown⟩ := hresolves hzone rfl
      exact ⟨List.forall_mem_append.mpr ⟨hsided, hfinds (hown _ rfl) hfound⟩,
        fun plan zoneId heq => (by cases heq)⟩
  | found hzone hfound =>
      obtain ⟨hsided, hown⟩ := hresolves hzone rfl
      exact ⟨List.forall_mem_append.mpr ⟨hsided, hfinds (hown _ rfl) hfound⟩,
        hexisting (hown _ rfl)⟩
  | disabled hzone hfound _ =>
      obtain ⟨hsided, hown⟩ := hresolves hzone rfl
      exact ⟨List.forall_mem_append.mpr ⟨hsided, hfinds (hown _ rfl) hfound⟩,
        fun plan zoneId heq => (by cases heq)⟩
  | recheckFailed hzone hfound hagain =>
      obtain ⟨hsided, hown⟩ := hresolves hzone rfl
      exact ⟨List.forall_mem_append.mpr ⟨hsided, List.forall_mem_append.mpr
        ⟨hfinds (hown _ rfl) hfound, hfinds (hown _ rfl) hagain⟩⟩,
        fun plan zoneId heq => (by cases heq)⟩
  | appeared hzone hfound hagain =>
      obtain ⟨hsided, hown⟩ := hresolves hzone rfl
      exact ⟨List.forall_mem_append.mpr ⟨hsided, List.forall_mem_append.mpr
        ⟨hfinds (hown _ rfl) hfound, hfinds (hown _ rfl) hagain⟩⟩, hexisting (hown _ rfl)⟩
  | missing hzone hfound _ hagain =>
      obtain ⟨hsided, hown⟩ := hresolves hzone rfl
      refine ⟨List.forall_mem_append.mpr ⟨hsided, List.forall_mem_append.mpr
        ⟨hfinds (hown _ rfl) hfound, hfinds (hown _ rfl) hagain⟩⟩, ?_⟩
      intro plan zoneId heq hplan
      cases heq
      obtain rfl := Option.some.inj hplan
      exact hown _ rfl

theorem executeRecordPlan_sided {side : Bool} {plan : RecordPlan}
    (hside : ∀ zoneId, plan.zone = some zoneId → scope.owns zoneId = side) :
    Uses (scope.Sided side) (self.executeRecordPlan plan) := by
  cases plan with
  | unchanged => trivial
  | update zoneId recordId payload =>
      have hown := hside zoneId rfl
      apply uses_bind (uses_guarded (fun _ => trivial)
        (self.cloudflare.updateRecord_uses ⟨rfl, hown⟩ ⟨rfl, hown⟩ hown))
      intro result
      cases result <;> trivial
  | create zoneId payload =>
      have hown := hside zoneId rfl
      apply uses_bind (uses_guarded (fun _ => trivial)
        (self.cloudflare.createRecord_uses ⟨rfl, hown⟩ ⟨rfl, hown⟩ hown))
      intro result
      cases result <;> trivial

/-- Requests about other zones end no work. -/
theorem foreign_refuses_nothing {α : Type} {p : M (Except (FailureStage × CloudflareError) α)}
    (hrefusal : Holds self.cloudflare.refusalContract (fun result met => met = stageAbort result)
      p none) {trace : List Step} {result : Except (FailureStage × CloudflareError) α}
    (hrun : Runs p trace result) (hsided : ∀ step ∈ trace, scope.Sided false step.op)
    (hserved : CoherentFrom (scope.Served self.cloudflare.apiToken behaviour) scope.next view
      trace) : stageAbort result = none := by
  have hmet : trace.foldl (fun met step => met.or (self.cloudflare.refusal step)) none =
      stageAbort result :=
    track_run hrefusal hrun coherentFrom_true
  rw [← hmet]
  clear hmet hrun hrefusal
  induction trace generalizing view with
  | nil => rfl
  | cons step rest ih =>
      rw [List.forall_mem_cons] at hsided
      have hnone : self.cloudflare.refusal step = none := by
        unfold CloudflareClient.refusal
        split
        · rename_i request outcome hreplied
          obtain ⟨hplain, hother⟩ := hsided.1.of_replied hreplied
          rw [self.cloudflare.verdictOf_plain hplain, abortOf_map]
          exact (hserved.1.other request outcome hreplied hother).1
        · rfl
      rw [List.foldl_cons, hnone, Option.or_none]
      exact ih hsided.2 hserved.2

/-- A failure that does not end the API work leaves the loop going. -/
theorem settle_next {result : Except (FailureStage × CloudflareError) RecordOutcome}
    (h : stageAbort result = none) (record : RecordConfig) (report : CycleReport) :
    ∃ report', settle record report result = .next report' := by
  match result with
  | .ok .unchanged => exact ⟨_, rfl⟩
  | .ok .updated => exact ⟨_, rfl⟩
  | .ok .created => exact ⟨_, rfl⟩
  | .error (stage, error) =>
      rw [stageAbort_error] at h
      split at h
      · cases h
      · rename_i haborts
        simp only [CloudflareError.aborts] at haborts
        simp [settle, haborts]

/-- The runs of one visit to a record that meets no deadline and no stop request, with
what the report is told of it: nothing where the record has no address. -/
inductive Attempts (deadline : Instant) (addresses : DiscoveredAddresses)
    (record : RecordConfig) : List Step →
      Option (Except (FailureStage × CloudflareError) RecordOutcome) → Prop where
  | noAddress {message : String} :
      addresses.forRecord record = .error message →
      Attempts deadline addresses record [⟨.act .stopRequested, false⟩] none
  | planFailed {address : IpAddr} {planning : List Step}
      {error : FailureStage × CloudflareError} :
      addresses.forRecord record = .ok address →
      Runs (timeoutAt deadline (self.planRecord record address)) planning
        (some (.error error)) →
      Attempts deadline addresses record (⟨.act .stopRequested, false⟩ :: planning)
        (some (.error error))
  | executed {address : IpAddr} {planning mutation : List Step} {plan : RecordPlan}
      {now : Instant} {outcome : Except (FailureStage × CloudflareError) RecordOutcome} :
      addresses.forRecord record = .ok address →
      Runs (timeoutAt deadline (self.planRecord record address)) planning
        (some (.ok plan)) →
      now < deadline →
      Runs (self.executeRecordPlan plan) mutation outcome →
      Attempts deadline addresses record
        (⟨.act .stopRequested, false⟩ :: (planning ++ ⟨.act .now, now⟩ :: mutation))
        (some outcome)

/-- How the outcome of a visit enters the report. -/
def concludeVisit (record : RecordConfig) (report : CycleReport) :
    Option (Except (FailureStage × CloudflareError) RecordOutcome) → Flow CycleReport
  | none => .next report
  | some outcome => settle record report outcome

/-- A report of a cycle that was stopped or met its deadline. -/
def Disturbed (report : CycleReport) : Prop :=
  report.interrupted = true ∨ cycleDeadlineFailure ∈ report.failures

omit [Externals] in
theorem disturbed_push (report : CycleReport) :
    Disturbed (report.push cycleDeadlineFailure) :=
  .inr (List.mem_append_right _ (List.mem_singleton.mpr rfl))

/-- A visit is an attempt, or it meets the deadline or a stop request. -/
theorem visitRecord_attempts {deadline : Instant} {addresses : DiscoveredAddresses}
    {record : RecordConfig} {report : CycleReport} {trace : List Step}
    {flow : Flow CycleReport}
    (hrun : Runs (self.visitRecord deadline addresses record report) trace flow) :
    (∃ outcome, self.Attempts deadline addresses record trace outcome ∧
      flow = concludeVisit record report outcome) ∨
    ∃ final, flow = .stop final ∧ Disturbed final := by
  simp only [visitRecord, act_eq, Program.ask_bind, Program.done_bind,
    runs_ask_iff] at hrun
  obtain ⟨stopRequested, _, rfl, hrest⟩ := hrun
  cases stopRequested with
  | true =>
      cases hrest
      exact .inr ⟨_, rfl, .inl rfl⟩
  | false =>
      simp only [Bool.false_eq_true, if_false] at hrest
      cases haddress : addresses.forRecord record with
      | error message =>
          simp only [haddress, Program.pure_eq, runs_done_iff] at hrest
          obtain ⟨rfl, rfl⟩ := hrest
          exact .inl ⟨none, .noAddress haddress, rfl⟩
      | ok address =>
          simp only [haddress] at hrest
          obtain ⟨planning, _, planned, rfl, hplanned, hrest⟩ :=
            (runs_bind_iff _ _ _ _).mp hrest
          cases planned with
          | none =>
              cases hrest
              exact .inr ⟨_, rfl, disturbed_push report⟩
          | some result =>
              cases result with
              | error error =>
                  cases hrest
                  rw [List.append_nil]
                  exact .inl ⟨_, .planFailed haddress hplanned, rfl⟩
              | ok plan =>
                  obtain ⟨now, later, rfl, hlater⟩ := (runs_ask_iff _ _ _ _).mp hrest
                  by_cases hlate : deadline ≤ now
                  · simp only [hlate, if_true, Program.pure_eq, runs_done_iff] at hlater
                    obtain ⟨rfl, rfl⟩ := hlater
                    exact .inr ⟨_, rfl, disturbed_push report⟩
                  · simp only [hlate, if_false] at hlater
                    obtain ⟨mutation, _, outcome, rfl, hexecute, hsettle⟩ :=
                      (runs_bind_iff _ _ _ _).mp hlater
                    cases hsettle
                    rw [List.append_nil]
                    exact .inl ⟨_, .executed haddress hplanned (Nat.lt_of_not_le hlate) hexecute,
                      rfl⟩

/-- What one visit to a record sent and came to. -/
structure Attempt where
  record : RecordConfig
  requests : List Request
  outcome : Option (Except (FailureStage × CloudflareError) RecordOutcome)

/-- The attempts of one turn of the record loop. -/
inductive AttemptsAll (deadline : Instant) (addresses : DiscoveredAddresses) :
    List RecordConfig → CycleReport → List Step → List Attempt → CycleReport → Prop where
  | done (report : CycleReport) : AttemptsAll deadline addresses [] report [] [] report
  | next {record : RecordConfig} {rest : List RecordConfig}
      {report report' final : CycleReport} {visit later : List Step}
      {outcome : Option (Except (FailureStage × CloudflareError) RecordOutcome)}
      {attempts : List Attempt} :
      self.Attempts deadline addresses record visit outcome →
      concludeVisit record report outcome = .next report' →
      AttemptsAll deadline addresses rest report' later attempts final →
      AttemptsAll deadline addresses (record :: rest) report (visit ++ later)
        (⟨record, visit.filterMap sent, outcome⟩ :: attempts) final
  | stop {record : RecordConfig} {rest : List RecordConfig} {report final : CycleReport}
      {visit : List Step}
      {outcome : Option (Except (FailureStage × CloudflareError) RecordOutcome)} :
      self.Attempts deadline addresses record visit outcome →
      concludeVisit record report outcome = .stop final →
      AttemptsAll deadline addresses (record :: rest) report visit
        [⟨record, visit.filterMap sent, outcome⟩] final

theorem visitRecords_attempts {deadline : Instant} {addresses : DiscoveredAddresses}
    {records : List RecordConfig} {report final : CycleReport} {trace : List Step}
    (hrun : Runs (self.visitRecords deadline addresses records report) trace final)
    (hundisturbed : ¬ Disturbed final) :
    ∃ attempts, self.AttemptsAll deadline addresses records report trace attempts final := by
  induction records generalizing report trace with
  | nil =>
      cases hrun
      exact ⟨[], .done _⟩
  | cons record rest ih =>
      unfold visitRecords at hrun
      obtain ⟨visit, later, flow, rfl, hvisit, hrest⟩ := (runs_bind_iff _ _ _ _).mp hrun
      rcases self.visitRecord_attempts hvisit with ⟨outcome, hattempt, hflow⟩ | ⟨_, rfl, hlate⟩
      · cases flow with
        | next report' =>
            obtain ⟨attempts, hattempts⟩ := ih hrest
            exact ⟨_, .next hattempt hflow.symm hattempts⟩
        | stop report' =>
            cases hrest
            rw [List.append_nil]
            exact ⟨_, .stop hattempt hflow.symm⟩
      · cases hrest
        exact absurd hlate hundisturbed

section

variable (hconsistent : scope.Consistent self.cloudflare.apiToken behaviour)
  {deadline deadline' : Instant} {addresses : DiscoveredAddresses} {record : RecordConfig}
  {view' : ZoneView}

omit [Externals] in
theorem next_stopRequested (scope : ZoneScope) (view : ZoneView) :
    scope.next view ⟨.act .stopRequested, false⟩ = view :=
  ZoneScope.next_quiet ⟨trivial, (by rintro ⟨⟩), rfl⟩

omit [Externals] in
theorem next_now (scope : ZoneScope) (view : ZoneView) (now : Instant) :
    scope.next view ⟨.act .now, now⟩ = view :=
  ZoneScope.next_quiet ⟨trivial, (by rintro ⟨⟩), rfl⟩

/-- Planning that meets no deadline is planning without one. -/
theorem unbounded_planning {address : IpAddr} {planning : List Step}
    {result : Except (FailureStage × CloudflareError) RecordPlan}
    (hrun : Runs (timeoutAt deadline (self.planRecord record address)) planning (some result))
    (hserved : CoherentFrom (scope.Served self.cloudflare.apiToken behaviour) scope.next view
      planning) :
    ∃ steps, Runs (self.planRecord record address) steps result ∧
      CoherentFrom (scope.Served self.cloudflare.apiToken behaviour) scope.next view steps ∧
      planning.foldl scope.next view = steps.foldl scope.next view ∧
      planning.filterMap sent = steps.filterMap sent := by
  obtain ⟨steps, hplan, hmeets⟩ := runs_timeoutAt_some hrun
  exact ⟨steps, hplan, ZoneScope.coherent_meets hmeets hserved,
    (ZoneScope.foldl_meets hmeets view).symm, ZoneScope.sent_meets hmeets⟩

include hconsistent in
/-- The cache stays sorted over an attempt. An attempt at another zone's record changes
nothing that concerns this one, and the loop goes on after it. -/
theorem Attempts.keeps {visit : List Step}
    {outcome : Option (Except (FailureStage × CloudflareError) RecordOutcome)}
    (h : self.Attempts deadline addresses record visit outcome)
    (hplain : PlainName record.zone) (hsorted : scope.Sorted view)
    (hserved : CoherentFrom (scope.Served self.cloudflare.apiToken behaviour) scope.next view
      visit) :
    scope.Sorted (visit.foldl scope.next view) ∧
      (scope.ofRecord record = false → scope.Agrees view (visit.foldl scope.next view) ∧
        ∀ report, ∃ report', concludeVisit record report outcome = .next report') := by
  cases h with
  | noAddress _ =>
      rw [List.foldl_cons, next_stopRequested]
      exact ⟨hsorted, fun _ => ⟨ZoneScope.agrees_refl view, fun report => ⟨report, rfl⟩⟩⟩
  | @planFailed address planning error _ hplanned =>
      have hlater := hserved.2
      rw [next_stopRequested] at hlater
      obtain ⟨steps, hplan, hcoherent, hfold, -⟩ := self.unbounded_planning hplanned hlater
      obtain ⟨hsided, -⟩ := self.planRecord_sided hconsistent hplain hplan hsorted hcoherent
      rw [List.foldl_cons, next_stopRequested, hfold]
      refine ⟨hsorted.foldl hsided, fun hother => ?_⟩
      rw [hother] at hsided
      refine ⟨hsorted.foldl_apart hsided, fun report => ?_⟩
      have hnone := self.foreign_refuses_nothing (self.planRecord_refusal _ _) hplan hsided
        hcoherent
      have hnone' : stageAbort (.error error : Except _ RecordOutcome) = none := hnone
      exact settle_next hnone' record report
  | @executed address planning mutation plan now outcome _ hplanned _ hexecuted =>
      have hlater := hserved.2
      rw [next_stopRequested, coherentFrom_append] at hlater
      obtain ⟨hplanning, hmutation⟩ := hlater
      obtain ⟨steps, hplan, hcoherent, hfold, -⟩ := self.unbounded_planning hplanned hplanning
      obtain ⟨hsided, hzone⟩ := self.planRecord_sided hconsistent hplain hplan hsorted hcoherent
      have hmutates := uses_runs
        (self.executeRecordPlan_sided fun zoneId => hzone plan zoneId rfl) hexecuted
      rw [List.foldl_cons, next_stopRequested, List.foldl_append, List.foldl_cons, next_now,
        hfold]
      have hbetween := hsorted.foldl hsided
      refine ⟨hbetween.foldl hmutates, fun hother => ?_⟩
      rw [hother] at hsided hmutates
      refine ⟨(hsorted.foldl_apart hsided).trans (hbetween.foldl_apart hmutates),
        fun report => ?_⟩
      have hcarried := hmutation.2
      rw [next_now, hfold] at hcarried
      have hnone := self.foreign_refuses_nothing (self.executeRecordPlan_refusal plan) hexecuted
        hmutates hcarried
      exact settle_next hnone record report

include hconsistent in
/-- Attempts at a record of the zone are one attempt where the views agree. -/
theorem attempts_agree {visit visit' : List Step}
    {outcome outcome' : Option (Except (FailureStage × CloudflareError) RecordOutcome)}
    (h : self.Attempts deadline addresses record visit outcome)
    (h' : self.Attempts deadline' addresses record visit' outcome')
    (hplain : PlainName record.zone) (hown : scope.ofRecord record = true)
    (hsorted : scope.Sorted view) (hagrees : scope.Agrees view view')
    (hserved : CoherentFrom (scope.Served self.cloudflare.apiToken behaviour) scope.next view
      visit)
    (hserved' : CoherentFrom (scope.Served self.cloudflare.apiToken behaviour) scope.next view'
      visit') :
    outcome = outcome' ∧ visit.filterMap sent = visit'.filterMap sent ∧
      scope.Agrees (visit.foldl scope.next view) (visit'.foldl scope.next view') := by
  have hplans : ∀ {address : IpAddr} {planning planning' : List Step}
      {result result' : Except (FailureStage × CloudflareError) RecordPlan},
      Runs (timeoutAt deadline (self.planRecord record address)) planning (some result) →
      Runs (timeoutAt deadline' (self.planRecord record address)) planning' (some result') →
      CoherentFrom (scope.Served self.cloudflare.apiToken behaviour) scope.next view planning →
      CoherentFrom (scope.Served self.cloudflare.apiToken behaviour) scope.next view'
        planning' →
      result = result' ∧ planning.filterMap sent = planning'.filterMap sent ∧
        scope.Agrees (planning.foldl scope.next view) (planning'.foldl scope.next view') ∧
        ∀ plan zoneId, result = .ok plan → plan.zone = some zoneId →
          scope.owns zoneId = true := by
    intro address planning planning' result result' hrun hrun' hcoherent hcoherent'
    obtain ⟨steps, hplan, hsteps, hfold, hsent⟩ := self.unbounded_planning hrun hcoherent
    obtain ⟨steps', hplan', hsteps', hfold', hsent'⟩ := self.unbounded_planning hrun' hcoherent'
    obtain ⟨hsided, hzone⟩ := self.planRecord_sided hconsistent hplain hplan hsorted hsteps
    rw [hown] at hsided hzone
    obtain ⟨rfl, hresult, hafter⟩ := runs_agree
      (ZoneScope.sided_deterministic self.cloudflare.apiToken behaviour) hplan hplan' hsided
      hagrees hsteps hsteps'
    rw [hfold, hfold', hsent, hsent']
    exact ⟨hresult, rfl, hafter, hzone⟩
  cases h with
  | noAddress haddress =>
      cases h' with
      | noAddress _ =>
          rw [List.foldl_cons, List.foldl_cons, next_stopRequested, next_stopRequested]
          exact ⟨rfl, rfl, hagrees⟩
      | planFailed haddress' _ => cases haddress.symm.trans haddress'
      | executed haddress' _ _ _ => cases haddress.symm.trans haddress'
  | planFailed haddress hplanned =>
      have hlater := hserved.2
      rw [next_stopRequested] at hlater
      cases h' with
      | noAddress haddress' => cases haddress.symm.trans haddress'
      | planFailed haddress' hplanned' =>
          cases haddress.symm.trans haddress'
          have hlater' := hserved'.2
          rw [next_stopRequested] at hlater'
          obtain ⟨hresult, hsent, hafter, -⟩ := hplans hplanned hplanned' hlater hlater'
          rw [List.foldl_cons, List.foldl_cons, next_stopRequested, next_stopRequested]
          cases hresult
          exact ⟨rfl, hsent, hafter⟩
      | executed haddress' hplanned' _ _ =>
          cases haddress.symm.trans haddress'
          have hlater' := hserved'.2
          rw [next_stopRequested, coherentFrom_append] at hlater'
          obtain ⟨hresult, -⟩ := hplans hplanned hplanned' hlater hlater'.1
          cases hresult
  | @executed address planning mutation plan now outcome haddress hplanned _ hexecuted =>
      have hlater := hserved.2
      rw [next_stopRequested, coherentFrom_append] at hlater
      obtain ⟨hplanning, hmutation⟩ := hlater
      cases h' with
      | noAddress haddress' => cases haddress.symm.trans haddress'
      | planFailed haddress' hplanned' =>
          cases haddress.symm.trans haddress'
          have hlater' := hserved'.2
          rw [next_stopRequested] at hlater'
          obtain ⟨hresult, -⟩ := hplans hplanned hplanned' hplanning hlater'
          cases hresult
      | @executed address' planning' mutation' plan' now' outcome' haddress' hplanned' _
          hexecuted' =>
          cases haddress.symm.trans haddress'
          have hlater' := hserved'.2
          rw [next_stopRequested, coherentFrom_append] at hlater'
          obtain ⟨hplanning', hmutation'⟩ := hlater'
          obtain ⟨hresult, hsent, hafter, hzone⟩ :=
            hplans hplanned hplanned' hplanning hplanning'
          cases hresult
          have hmutates := uses_runs
            (self.executeRecordPlan_sided fun zoneId => hzone plan zoneId rfl) hexecuted
          have hcarried := hmutation.2
          have hcarried' := hmutation'.2
          rw [next_now] at hcarried hcarried'
          obtain ⟨rfl, houtcome, hlast⟩ := runs_agree
            (ZoneScope.sided_deterministic self.cloudflare.apiToken behaviour) hexecuted
            hexecuted' hmutates hafter hcarried hcarried'
          refine ⟨congrArg some houtcome, ?_, ?_⟩
          · have hsplit : ∀ steps : List Step, ∀ now : Instant,
                (⟨.act .stopRequested, false⟩ :: (steps ++ ⟨.act .now, now⟩ :: mutation) :
                  List Step).filterMap sent = steps.filterMap sent ++ mutation.filterMap sent := by
              intro steps now
              rw [List.filterMap_cons_none rfl, List.filterMap_append,
                List.filterMap_cons_none rfl]
            rw [hsplit, hsplit, hsent]
          · simp only [List.foldl_cons, List.foldl_append, next_stopRequested, next_now]
            exact hlast

/-- Whether the loop goes on. -/
def goesOn : Flow CycleReport → Bool
  | .next _ => true
  | .stop _ => false

/-- Whether the loop goes on after a visit does not depend on the report so far. -/
theorem concludeVisit_flow (record : RecordConfig) (report report' : CycleReport)
    (outcome : Option (Except (FailureStage × CloudflareError) RecordOutcome)) :
    goesOn (concludeVisit record report outcome) =
      goesOn (concludeVisit record report' outcome) := by
  match outcome with
  | none => rfl
  | some (.ok .unchanged) => rfl
  | some (.ok .updated) => rfl
  | some (.ok .created) => rfl
  | some (.error (stage, error)) =>
      cases haborts : error.isAuthenticationFailure || error.isRateLimited with
      | true => simp [concludeVisit, settle, haborts, goesOn]
      | false => simp [concludeVisit, settle, haborts, goesOn]

/-- The attempts at the records of a zone. -/
def attemptsOf (scope : ZoneScope) (attempts : List Attempt) : List Attempt :=
  attempts.filter fun attempt => scope.ofRecord attempt.record

include hconsistent in
/-- Attempts at one record from views that agree are alike as far as the zone goes. -/
theorem visits_agree {visit visit' : List Step}
    {outcome outcome' : Option (Except (FailureStage × CloudflareError) RecordOutcome)}
    (h : self.Attempts deadline addresses record visit outcome)
    (h' : self.Attempts deadline' addresses record visit' outcome')
    (hplain : PlainName record.zone) (hsorted : scope.Sorted view)
    (hsorted' : scope.Sorted view') (hagrees : scope.Agrees view view')
    (hserved : CoherentFrom (scope.Served self.cloudflare.apiToken behaviour) scope.next view
      visit)
    (hserved' : CoherentFrom (scope.Served self.cloudflare.apiToken behaviour) scope.next view'
      visit') :
    (attemptsOf scope [⟨record, visit.filterMap sent, outcome⟩] =
        attemptsOf scope [⟨record, visit'.filterMap sent, outcome'⟩] ∧
      ∀ report report', goesOn (concludeVisit record report outcome) =
        goesOn (concludeVisit record report' outcome')) ∧
      scope.Sorted (visit.foldl scope.next view) ∧ scope.Sorted (visit'.foldl scope.next view') ∧
      scope.Agrees (visit.foldl scope.next view) (visit'.foldl scope.next view') := by
  obtain ⟨hlast, hforeign⟩ := h.keeps self hconsistent hplain hsorted hserved
  obtain ⟨hlast', hforeign'⟩ := h'.keeps self hconsistent hplain hsorted' hserved'
  cases hside : scope.ofRecord record with
  | true =>
      obtain ⟨rfl, hsent, hafter⟩ := self.attempts_agree hconsistent h h' hplain hside hsorted
        hagrees hserved hserved'
      rw [hsent]
      exact ⟨⟨rfl, fun report report' => concludeVisit_flow record report report' outcome⟩,
        hlast, hlast', hafter⟩
  | false =>
      obtain ⟨hapart, hgoes⟩ := hforeign hside
      obtain ⟨hapart', hgoes'⟩ := hforeign' hside
      refine ⟨⟨?_, fun report report' => ?_⟩, hlast, hlast',
        (hapart.symm.trans hagrees).trans hapart'⟩
      · simp [attemptsOf, hside]
      · obtain ⟨_, hnext⟩ := hgoes report
        obtain ⟨_, hnext'⟩ := hgoes' report'
        rw [hnext, hnext']
        rfl

include hconsistent in
/-- Two turns of the loop over the same records make the same attempts at those of the
zone. -/
theorem attemptsAll_agree {records : List RecordConfig} {report final report' final' : CycleReport}
    {trace trace' : List Step} {attempts attempts' : List Attempt}
    (h : self.AttemptsAll deadline addresses records report trace attempts final)
    (h' : self.AttemptsAll deadline' addresses records report' trace' attempts' final')
    (hplain : ∀ record ∈ records, PlainName record.zone)
    (hsorted : scope.Sorted view) (hsorted' : scope.Sorted view')
    (hagrees : scope.Agrees view view')
    (hserved : CoherentFrom (scope.Served self.cloudflare.apiToken behaviour) scope.next view
      trace)
    (hserved' : CoherentFrom (scope.Served self.cloudflare.apiToken behaviour) scope.next view'
      trace') :
    attemptsOf scope attempts = attemptsOf scope attempts' ∧
      scope.Sorted (trace.foldl scope.next view) ∧ scope.Sorted (trace'.foldl scope.next view') ∧
      scope.Agrees (trace.foldl scope.next view) (trace'.foldl scope.next view') := by
  induction h generalizing report' trace' attempts' view view' with
  | done report =>
      cases h'
      exact ⟨rfl, hsorted, hsorted', hagrees⟩
  | @next record rest report report₁ final visit later outcome attempts hattempt hflow _ ih =>
      rw [List.forall_mem_cons] at hplain
      obtain ⟨hvisit, hlater⟩ := coherentFrom_append.mp hserved
      cases h' with
      | @next _ _ _ report₁' _ visit' later' outcome' attempts' hattempt' hflow' hattempts' =>
          obtain ⟨hvisit', hlater'⟩ := coherentFrom_append.mp hserved'
          obtain ⟨⟨hsame, -⟩, hlast, hlast', hafter⟩ := self.visits_agree hconsistent hattempt
            hattempt' hplain.1 hsorted hsorted' hagrees hvisit hvisit'
          obtain ⟨hrest, hend⟩ := ih hattempts' hplain.2 hlast hlast' hafter hlater hlater'
          rw [List.foldl_append, List.foldl_append]
          refine ⟨?_, hend⟩
          have hcons : ∀ (attempt : Attempt) (others : List Attempt),
              attemptsOf scope (attempt :: others) =
                attemptsOf scope [attempt] ++ attemptsOf scope others :=
            fun attempt others => List.filter_append [attempt] others
          rw [hcons, hsame, hrest, ← hcons]
      | stop hattempt' hflow' =>
          obtain ⟨⟨-, hgoes⟩, -⟩ := self.visits_agree hconsistent hattempt hattempt' hplain.1
            hsorted hsorted' hagrees hvisit hserved'
          have hsame := hgoes report report'
          rw [hflow, hflow'] at hsame
          cases hsame
  | @stop record rest report final visit outcome hattempt hflow =>
      rw [List.forall_mem_cons] at hplain
      cases h' with
      | next hattempt' hflow' _ =>
          obtain ⟨⟨-, hgoes⟩, -⟩ := self.visits_agree hconsistent hattempt hattempt' hplain.1
            hsorted hsorted' hagrees hserved (coherentFrom_append.mp hserved').1
          have hsame := hgoes report report'
          rw [hflow, hflow'] at hsame
          cases hsame
      | stop hattempt' hflow' =>
          obtain ⟨⟨hsame, -⟩, hend⟩ := self.visits_agree hconsistent hattempt hattempt' hplain.1
            hsorted hsorted' hagrees hserved hserved'
          exact ⟨hsame, hend⟩

end

/-- The attempts of a cycle that has found its addresses. -/
inductive CycleAttempts (addresses : DiscoveredAddresses) :
    (run : self.CycleRun) → List Attempt → Prop where
  | unmanaged {run : self.CycleRun} :
      Runs (timeoutAt run.deadline self.discoverRequiredAddresses) run.trace
        (some addresses) →
      self.config.records = [] →
      CycleAttempts addresses run []
  | visited {run : self.CycleRun} {discovery visits : List Step} {cursor : Nat}
      {attempts : List Attempt} :
      Runs (timeoutAt run.deadline self.discoverRequiredAddresses) discovery
        (some addresses) →
      self.config.records ≠ [] →
      run.trace = discovery ++ ⟨.act .fetchAddCursor, cursor⟩ :: visits →
      self.AttemptsAll run.deadline addresses (rotated self.config.records cursor)
        { records := self.config.records.length, failures := addresses.discoveryFailures }
        visits attempts run.report →
      CycleAttempts addresses run attempts

variable {self}

theorem CycleAttempts.discovers {addresses : DiscoveredAddresses} {run : self.CycleRun}
    {attempts : List Attempt} (h : self.CycleAttempts addresses run attempts) :
    run.Discovers addresses := by
  cases h with
  | unmanaged hdiscovery _ => exact ⟨run.trace, [], (List.append_nil _).symm, hdiscovery⟩
  | visited hdiscovery _ htrace _ => exact ⟨_, _, htrace, hdiscovery⟩

/-- Every cycle that meets no deadline and no stop request has its attempts. -/
theorem CycleRun.attempts (run : self.CycleRun) (hundisturbed : ¬ Disturbed run.report) :
    ∃ addresses attempts, self.CycleAttempts addresses run attempts := by
  have hrun := run.runs
  unfold runCycleUntil at hrun
  obtain ⟨discovery, rest, discovered, htrace, hdiscovery, hrest⟩ :=
    (runs_bind_iff _ _ _ _).mp hrun
  cases discovered with
  | none =>
      obtain ⟨-, hreport⟩ := (runs_done_iff _ _ _).mp hrest
      rw [hreport] at hundisturbed
      exact absurd (disturbed_push _) hundisturbed
  | some addresses =>
      by_cases hrecords : self.config.records = []
      · simp only [hrecords, List.isEmpty_nil, if_true, Program.pure_eq,
          runs_done_iff] at hrest
        rw [hrest.1, List.append_nil] at htrace
        rw [← htrace] at hdiscovery
        exact ⟨addresses, [], .unmanaged hdiscovery hrecords⟩
      · have hnonempty : self.config.records.isEmpty = false := by simpa using hrecords
        simp only [hnonempty, Bool.false_eq_true, if_false] at hrest
        obtain ⟨cursor, visits, rfl, hvisits⟩ := (runs_ask_iff _ _ _ _).mp hrest
        obtain ⟨attempts, hattempts⟩ := self.visitRecords_attempts hvisits hundisturbed
        exact ⟨addresses, attempts, .visited hdiscovery hrecords htrace hattempts⟩

/-- Two cycles make the same attempts at the records of a zone, whichever way they are
cut. -/
def SameAttempts (scope : ZoneScope) (run run' : self.CycleRun) : Prop :=
  ∃ addresses, (∃ attempts, self.CycleAttempts addresses run attempts) ∧
    (∃ attempts, self.CycleAttempts addresses run' attempts) ∧
    ∀ attempts attempts', self.CycleAttempts addresses run attempts →
      self.CycleAttempts addresses run' attempts' →
      attemptsOf scope attempts = attemptsOf scope attempts'

section

variable (hconsistent : scope.Consistent self.cloudflare.apiToken behaviour)
  (hplain : ∀ record ∈ self.config.records, PlainName record.zone)
  {view' : ZoneView}

theorem foldl_discovery {deadline : Instant} {discovery : List Step}
    {addresses : DiscoveredAddresses}
    (hdiscovery : Runs (timeoutAt deadline self.discoverRequiredAddresses) discovery
      (some addresses)) (scope : ZoneScope) (view : ZoneView) :
    discovery.foldl scope.next view = view := by
  have huses := uses_runs (self.timeoutDiscovery_uses (fun _ h => h) deadline) hdiscovery
  exact ZoneScope.foldl_quiet fun step member => ZoneScope.quiet_of_discovery (huses step member)

include hconsistent hplain in
/-- One cycle each from views that agree. -/
theorem cycles_agree {run run' : self.CycleRun} {addresses : DiscoveredAddresses}
    {attempts attempts' : List Attempt} (h : self.CycleAttempts addresses run attempts)
    (h' : self.CycleAttempts addresses run' attempts')
    (hsorted : scope.Sorted view) (hsorted' : scope.Sorted view')
    (hagrees : scope.Agrees view view')
    (hserved : CoherentFrom (scope.Served self.cloudflare.apiToken behaviour) scope.next view
      run.trace)
    (hserved' : CoherentFrom (scope.Served self.cloudflare.apiToken behaviour) scope.next view'
      run'.trace) :
    attemptsOf scope attempts = attemptsOf scope attempts' ∧
      scope.Sorted (run.trace.foldl scope.next view) ∧
      scope.Sorted (run'.trace.foldl scope.next view') ∧
      scope.Agrees (run.trace.foldl scope.next view) (run'.trace.foldl scope.next view') := by
  cases h with
  | unmanaged hdiscovery hrecords =>
      cases h' with
      | unmanaged hdiscovery' _ =>
          rw [foldl_discovery hdiscovery, foldl_discovery hdiscovery']
          exact ⟨rfl, hsorted, hsorted', hagrees⟩
      | visited _ hrecords' _ _ => exact absurd hrecords hrecords'
  | @visited discovery visits cursor _ hdiscovery hrecords htrace hattempts =>
      cases h' with
      | unmanaged _ hrecords' => exact absurd hrecords' hrecords
      | @visited discovery' visits' cursor' _ hdiscovery' _ htrace' hattempts' =>
          rw [htrace, coherentFrom_append, foldl_discovery hdiscovery] at hserved
          rw [htrace', coherentFrom_append, foldl_discovery hdiscovery'] at hserved'
          obtain ⟨-, hfetch, hvisits⟩ := hserved
          obtain ⟨-, hfetch', hvisits'⟩ := hserved'
          obtain rfl : cursor = view.cursor := hfetch.cursor cursor rfl
          have hcursor : cursor' = view'.cursor := hfetch'.cursor cursor' rfl
          rw [hcursor, hagrees.cursor] at hattempts'
          rw [hcursor] at htrace' hvisits'
          rw [htrace, htrace', List.foldl_append, List.foldl_append, List.foldl_cons,
            List.foldl_cons, foldl_discovery hdiscovery, foldl_discovery hdiscovery']
          have hkept : scope.Sorted (scope.next view ⟨.act .fetchAddCursor, view.cursor⟩) :=
            hsorted
          have hkept' : scope.Sorted (scope.next view' ⟨.act .fetchAddCursor, view'.cursor⟩) :=
            hsorted'
          apply self.attemptsAll_agree hconsistent hattempts hattempts' _ hkept hkept' _
            hvisits hvisits'
          · exact fun record member => hplain record (mem_of_mem_rotated member)
          · have hnext := hagrees.next ⟨.act .fetchAddCursor, view.cursor⟩
            rwa [ZoneScope.next_op _ view'.cursor] at hnext

include hconsistent hplain in
/-- Sequences of cycles from views that agree. -/
theorem sequences_agree {runs runs' : List self.CycleRun}
    (hdiscovered : List.Forall₂ (fun run run' => ∃ addresses, run.Discovers addresses ∧
      run'.Discovers addresses) runs runs')
    (hundisturbed : ∀ run ∈ runs, ¬ Disturbed run.report)
    (hundisturbed' : ∀ run ∈ runs', ¬ Disturbed run.report)
    (hsorted : scope.Sorted view) (hsorted' : scope.Sorted view')
    (hagrees : scope.Agrees view view')
    (hserved : CoherentFrom (scope.Served self.cloudflare.apiToken behaviour) scope.next view
      (runs.flatMap CycleRun.trace))
    (hserved' : CoherentFrom (scope.Served self.cloudflare.apiToken behaviour) scope.next view'
      (runs'.flatMap CycleRun.trace)) :
    List.Forall₂ (SameAttempts scope) runs runs' ∧
      scope.Agrees ((runs.flatMap CycleRun.trace).foldl scope.next view)
        ((runs'.flatMap CycleRun.trace).foldl scope.next view') := by
  induction hdiscovered generalizing view view' with
  | nil => exact ⟨.nil, hagrees⟩
  | @cons run run' rest rest' hsame _ ih =>
      rw [List.forall_mem_cons] at hundisturbed hundisturbed'
      rw [List.flatMap_cons, coherentFrom_append] at hserved hserved'
      obtain ⟨addresses, hdiscovers, hdiscovers'⟩ := hsame
      obtain ⟨found, attempts, hattempts⟩ := run.attempts hundisturbed.1
      obtain ⟨found', attempts', hattempts'⟩ := run'.attempts hundisturbed'.1
      obtain rfl := CycleRun.discovers_unique hattempts.discovers hdiscovers
      obtain rfl := CycleRun.discovers_unique hattempts'.discovers hdiscovers'
      obtain ⟨-, hlast, hlast', hafter⟩ := cycles_agree hconsistent hplain hattempts hattempts'
        hsorted hsorted' hagrees hserved.1 hserved'.1
      obtain ⟨hrest, hend⟩ := ih hundisturbed.2 hundisturbed'.2 hlast hlast' hafter hserved.2
        hserved'.2
      rw [List.flatMap_cons, List.flatMap_cons, List.foldl_append, List.foldl_append]
      refine ⟨.cons ⟨found', ⟨attempts, hattempts⟩, ⟨attempts', hattempts'⟩, ?_⟩ hrest, hend⟩
      intro cut cut' hcut hcut'
      exact (cycles_agree hconsistent hplain hcut hcut' hsorted hsorted' hagrees hserved.1
        hserved'.1).1

end

/-- Failures are isolated between zones. Two sequences of cycles of one client, each from
its start, serve one zone alike and the others in any way that carries no id of the zone
and refuses nothing for good; they find the same addresses and meet no deadline and no
stop request. They send the same requests about the zone, in the same order, and each
pair of cycles makes the same attempts at its records, with the same outcomes. -/
theorem zone_failures_isolated (scope : ZoneScope) (behaviour : ZoneBehaviour)
    (self : Updater) (hvalid : self.config.validate = .ok ())
    (hconsistent : scope.Consistent self.cloudflare.apiToken behaviour)
    {runs runs' : List self.CycleRun} {cursor : Nat}
    (hdiscovered : List.Forall₂ (fun run run' => ∃ addresses, run.Discovers addresses ∧
      run'.Discovers addresses) runs runs')
    (hundisturbed : ∀ run ∈ runs ++ runs', ¬ Disturbed run.report)
    (hserved : CoherentFrom (scope.Served self.cloudflare.apiToken behaviour) scope.next
      (.start cursor) (runs.flatMap CycleRun.trace))
    (hserved' : CoherentFrom (scope.Served self.cloudflare.apiToken behaviour) scope.next
      (.start cursor) (runs'.flatMap CycleRun.trace)) :
    scope.requests (runs.flatMap CycleRun.trace) =
        scope.requests (runs'.flatMap CycleRun.trace) ∧
      List.Forall₂ (SameAttempts scope) runs runs' := by
  obtain ⟨hrecords, -, -⟩ := Config.validate_ok hvalid
  rw [List.forall_mem_append] at hundisturbed
  obtain ⟨hsame, hagrees⟩ := sequences_agree hconsistent
    (fun record member => (hrecords record member).plain) hdiscovered hundisturbed.1
    hundisturbed.2 (ZoneScope.sorted_start cursor) (ZoneScope.sorted_start cursor)
    (ZoneScope.agrees_refl _) hserved hserved'
  have hasked := hagrees.asked
  rw [ZoneScope.asked_foldl, ZoneScope.asked_foldl] at hasked
  exact ⟨(List.append_cancel_left hasked).symm, hsame⟩

end Updater

end

section

attribute [local instance] exampleExternals

open Updater

/-- A strategy that serves a zone by a behaviour and all others with one outcome. -/
def ZoneScope.strategy (scope : ZoneScope) (behaviour : ZoneBehaviour) (other : HttpOutcome)
    (past : List Step) (op : Op) : Ans op :=
  let view := past.foldl scope.next (.start 0)
  let reply := fun request =>
    if scope.ofRequest request then behaviour view.asked request else other
  match op with
  | .act (.cacheGet key) => view.cache key
  | .act .fetchAddCursor => view.cursor
  | .finish (.http request) => reply request
  | .finishBefore _ (.http request) => some (reply request)
  | op => creationScenario.strategy past op

theorem ZoneScope.strategy_replies {scope : ZoneScope} {behaviour : ZoneBehaviour}
    {other : HttpOutcome} {past : List Step} {op : Op} {request : Request}
    {outcome : HttpOutcome}
    (h : replied ⟨op, scope.strategy behaviour other past op⟩ = some (request, outcome)) :
    outcome = if scope.ofRequest request then
      behaviour (past.foldl scope.next (.start 0)).asked request else other := by
  cases op with
  | act action => cases h
  | finish wait =>
      cases wait with
      | http asked =>
          cases h
          rfl
      | _ => cases h
  | finishBefore deadline wait =>
      cases wait with
      | http asked =>
          cases h
          rfl
      | _ => cases h

/-- The strategy answers each operation as the zone's behaviour and the cache demand, after every
past, so that there are runs in which the zone behaves so. -/
theorem ZoneScope.strategy_served (scope : ZoneScope) (behaviour : ZoneBehaviour)
    {apiToken : String} {other : HttpOutcome}
    (hother : ∀ request, abortOf (receive apiToken request other) = none ∧
      zonesAnswered apiToken ⟨.finish (.http request), other⟩ = [])
    (past : List Step) (op : Op) :
    scope.Served apiToken behaviour (past.foldl scope.next (.start 0))
      ⟨op, scope.strategy behaviour other past op⟩ where
  cache := by
    cases op with
    | act action => cases action <;> trivial
    | _ => trivial
  cursor := by
    rintro cursor ⟨⟩
    rfl
  own := by
    intro request outcome hreplied hown
    rw [ZoneScope.strategy_replies hreplied, if_pos hown]
  other := by
    intro request outcome hreplied hforeign
    obtain rfl : outcome = other := by
      rw [ZoneScope.strategy_replies hreplied, hforeign]
      rfl
    refine ⟨(hother request).1, fun zone member => ?_⟩
    have hzones : zonesAnswered apiToken ⟨op, scope.strategy behaviour outcome past op⟩ =
        zonesAnswered apiToken ⟨.finish (.http request), outcome⟩ := by
      unfold zonesAnswered
      rw [hreplied]
      rfl
    rw [hzones, (hother request).2] at member
    cases member

/-- The example with a record of another zone before its own. -/
def twoZoneUpdater : Updater :=
  { exampleUpdater with
    config := { exampleConfig with
      records := [{ exampleRecord with zone := "example.net", name := "home.example.net" },
        exampleRecord] } }

def exampleScope : ZoneScope where
  name := "example.com"
  owns := fun zoneId => eqIgnoreAsciiCase zoneId "023e"
  caseless := by
    intro zoneId zoneId' h
    rw [Bool.eq_iff_iff]
    constructor
    · exact fun h' => eqIgnoreAsciiCase_trans (eqIgnoreAsciiCase_symm h) h'
    · exact fun h' => eqIgnoreAsciiCase_trans h h'

/-- The zone exists and has no records yet. -/
def exampleBehaviour : ZoneBehaviour := fun _ request => creationScenario.server [] request

def twoZoneCycle (other : HttpOutcome) : twoZoneUpdater.CycleRun :=
  twoZoneUpdater.executedCycle (exampleScope.strategy exampleBehaviour other) [] 1

theorem exampleBehaviour_consistent : exampleScope.Consistent "token" exampleBehaviour := by
  intro asked zoneName page perPage response zone hreceive member _
  have hshown : (receive "token" (.listZones "" 0 0)
      (delivered 200 exampleZonesBody)).toOption.map ApiResponse.result = some [exampleZone] := by
    decide +kernel
  have hsame : receive "token" (.listZones "" 0 0) (delivered 200 exampleZonesBody) =
      .ok response := hreceive
  rw [hsame] at hshown
  obtain hresult : response.result = [exampleZone] := Option.some.inj hshown
  rw [hresult] at member
  obtain rfl := List.mem_singleton.mp member
  decide +kernel

theorem refused_quiet (request : Request) :
    abortOf (receive "token" request (.failed "connection refused")) = none ∧
      zonesAnswered "token" ⟨.finish (.http request), .failed "connection refused"⟩ = [] := by
  cases request <;> exact ⟨rfl, rfl⟩

theorem absent_quiet (request : Request) :
    abortOf (receive "token" request (delivered 404 "")) = none ∧
      zonesAnswered "token" ⟨.finish (.http request), delivered 404 ""⟩ = [] := by
  cases request <;> exact ⟨rfl, rfl⟩

theorem zone_failures_isolated_outage :
    exampleScope.requests (twoZoneCycle (.failed "connection refused")).trace =
        exampleScope.requests (twoZoneCycle (delivered 404 "")).trace ∧
      List.Forall₂ (SameAttempts exampleScope) [twoZoneCycle (.failed "connection refused")]
        [twoZoneCycle (delivered 404 "")] := by
  have hserved : ∀ other : HttpOutcome,
      (∀ request, abortOf (receive "token" request other) = none ∧
        zonesAnswered "token" ⟨.finish (.http request), other⟩ = []) →
      CoherentFrom (exampleScope.Served "token" exampleBehaviour) exampleScope.next (.start 0)
        ([twoZoneCycle other].flatMap CycleRun.trace) := by
    intro other hother
    rw [List.flatMap_singleton]
    exact execute_coherent (exampleScope.strategy_served exampleBehaviour hother) [] _
  have hundisturbed : ∀ run ∈ [twoZoneCycle (.failed "connection refused")] ++
      [twoZoneCycle (delivered 404 "")], ¬ Disturbed run.report := by
    simp only [List.cons_append, List.nil_append, List.forall_mem_cons]
    unfold Disturbed
    exact ⟨by decide +kernel, by decide +kernel, fun _ member => absurd member List.not_mem_nil⟩
  have hisolated := zone_failures_isolated exampleScope exampleBehaviour twoZoneUpdater
    (by decide +kernel) exampleBehaviour_consistent
    (.cons ⟨⟨some (.ok exampleAddress), none⟩, executedCycle_discovers (by decide +kernel),
      executedCycle_discovers (by decide +kernel)⟩ .nil) hundisturbed (hserved _ refused_quiet)
      (hserved _ absent_quiet)
  simpa [twoZoneCycle] using hisolated

end

end Cirrusync
