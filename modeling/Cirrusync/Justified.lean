import Cirrusync.CycleCount
import Cirrusync.Scenario
import Cirrusync.ValidConfig
import Cirrusync.Vouching

/-!
Which mutations a cycle sends, and why. The trace of a cycle is cut into the
visits of its records; a visit sends at most one mutation, and only one that the
lookups just before it call for, to a zone that a response has vouched for.
-/

namespace Cirrusync

open Effect Text

/-- The mutation that a plan calls for. -/
def RecordPlan.request : RecordPlan → Option Request
  | .unchanged => none
  | .update zoneId recordId payload => some (.updateRecord zoneId recordId payload)
  | .create zoneId payload => some (.createRecord zoneId payload)

theorem RecordPlan.request_isMutation {plan : RecordPlan} {request : Request}
    (h : plan.request = some request) : request.isMutation = true := by
  cases plan with
  | unchanged => cases h
  | update zoneId recordId payload =>
      cases h
      rfl
  | create zoneId payload =>
      cases h
      rfl

@[simp] theorem sent_mutationSteps {α : Type} (zoneId : String) (request : Request)
    (outcome : HttpOutcome) (result : Except CloudflareError α) :
    (mutationSteps zoneId request outcome result).filterMap sent = [request] := by
  have hflag : ∀ flag, sent ⟨.act (.setMutationInFlight flag), ()⟩ = none := fun _ => rfl
  simp [mutationSteps, hflag]

/-- The mutations that a trace begins. -/
def mutationsOf (trace : List Step) : List Request :=
  (trace.filterMap sent).filter Request.isMutation

@[simp] theorem mutationsOf_nil : mutationsOf [] = [] := rfl

@[simp] theorem mutationsOf_append (first second : List Step) :
    mutationsOf (first ++ second) = mutationsOf first ++ mutationsOf second := by
  simp [mutationsOf]

theorem mutationsOf_cons (step : Step) (trace : List Step) :
    mutationsOf (step :: trace) = mutationsOf [step] ++ mutationsOf trace := by
  rw [← mutationsOf_append, List.singleton_append]

theorem mutationsOf_eq_nil {trace : List Step}
    (h : ∀ step ∈ trace, mutationsOf [step] = []) : mutationsOf trace = [] := by
  induction trace with
  | nil => rfl
  | cons step rest ih =>
      rw [mutationsOf_cons, h step List.mem_cons_self,
        ih fun other member => h other (List.mem_cons_of_mem _ member), List.append_nil]

theorem mutationsOf_lookup {step : Step} (h : LookupOp step.op) : mutationsOf [step] = [] := by
  cases hsent : sent step with
  | none => simp [mutationsOf, hsent]
  | some request =>
      have hop : step.op = .act (.begin (.http request)) := by
        unfold sent at hsent
        split at hsent
        · cases hsent
          rfl
        · cases hsent
      rw [hop] at h
      have hread : request.isMutation = false := h
      simp [mutationsOf, hsent, hread]

theorem mutationsOf_unsent {step : Step} (h : sent step = none) : mutationsOf [step] = [] := by
  simp [mutationsOf, h]

theorem sent_of_discovery {step : Step} (h : DiscoveryOp step.op) : sent step = none := by
  unfold sent
  split
  · exact h.elim
  · rfl

theorem sent_of_lock {step : Step} (h : LockOp step.op) : sent step = none := by
  unfold sent
  split
  · exact h.elim
  · rfl

section

variable [Externals]

namespace Updater

variable (self : Updater)

/-- A lookup that ended before the deadline and returned `existing`, which is the
only exact match among all the records that the responses have shown, or no
match was among them. -/
def Returned (deadline : Instant) (record : RecordConfig) (zoneId : String)
    (trace : List Step) (existing : Option DnsRecord) : Prop :=
  ∃ lookup, List.Forall₂ (MeetsDeadline deadline) trace lookup ∧
    self.finds record zoneId lookup (.ok existing) ∧
    (lookup.flatMap (recordsShown self.cloudflare.apiToken)).filter
      (DnsRecord.isExactMatch record.recordType.asStr record.name) = existing.toList

/-- The found record does not have the configured values. -/
def Differs (record : RecordConfig) (address : IpAddr) (existing : DnsRecord) : Prop :=
  parseIpAddr existing.content ≠ some address ∨ existing.ttl ≠ record.ttl ∨
    existing.proxied ≠ record.proxied

/-- Why a mutation follows the planning of a record: what has been looked up, in
which order, and with what result. -/
inductive Justifies (deadline : Instant) (history : List Step) (record : RecordConfig)
    (address : IpAddr) : List Step → Request → Prop where
  | update {zone lookup : List Step} {zoneId : String} {existing : DnsRecord} :
      (∃ step ∈ history ++ zone,
        Vouches self.cloudflare.apiToken step record.zone zoneId) →
      self.Returned deadline record zoneId lookup (some existing) →
      Differs record address existing →
      Justifies deadline history record address (zone ++ lookup)
        (.updateRecord zoneId existing.id (recordPayload record address))
  | updateAppeared {zone first lookup : List Step} {zoneId : String} {existing : DnsRecord} :
      (∃ step ∈ history ++ zone,
        Vouches self.cloudflare.apiToken step record.zone zoneId) →
      self.Returned deadline record zoneId first none →
      self.Returned deadline record zoneId lookup (some existing) →
      Differs record address existing →
      Justifies deadline history record address (zone ++ (first ++ lookup))
        (.updateRecord zoneId existing.id (recordPayload record address))
  | create {zone first second : List Step} {zoneId : String} :
      (∃ step ∈ history ++ zone,
        Vouches self.cloudflare.apiToken step record.zone zoneId) →
      self.Returned deadline record zoneId first none →
      record.createIfMissing = true →
      self.Returned deadline record zoneId second none →
      Justifies deadline history record address (zone ++ (first ++ second))
        (.createRecord zoneId (recordPayload record address))

/-- The visit of a record: it sends no mutation, or, after the planning that
justifies it, one and nothing else. -/
inductive JustifiedVisit (deadline : Instant) (addresses : DiscoveredAddresses)
    (history : List Step) (record : RecordConfig) : List Step → Prop where
  | quiet {visit : List Step} : mutationsOf visit = [] →
      JustifiedVisit deadline addresses history record visit
  | mutates {address : IpAddr} {stop : Step} {planning mutation : List Step}
      {request : Request} :
      addresses.forRecord record = .ok address →
      self.Justifies deadline (history ++ [stop]) record address planning request →
      mutationsOf (stop :: planning) = [] → mutation.filterMap sent = [request] →
      request.isMutation = true →
      JustifiedVisit deadline addresses history record (stop :: (planning ++ mutation))

omit [Externals] in
theorem forall₂_split {R : Step → Step → Prop} {trace first second : List Step}
    (h : List.Forall₂ R trace (first ++ second)) :
    ∃ before after, trace = before ++ after ∧ List.Forall₂ R before first ∧
      List.Forall₂ R after second := by
  induction first generalizing trace with
  | nil => exact ⟨[], trace, rfl, .nil, h⟩
  | cons step first ih =>
      cases h with
      | cons hstep hrest =>
          obtain ⟨before, after, rfl, hfirst, hsecond⟩ := ih hrest
          exact ⟨_ :: before, after, rfl, .cons hstep hfirst, hsecond⟩

theorem differs_of_not_upToDate {record : RecordConfig} {address : IpAddr}
    {existing : DnsRecord} (h : isUpToDate record address existing = false) :
    Differs record address existing := by
  by_contra hsame
  simp only [Differs, not_or, not_not] at hsame
  simp [isUpToDate, hsame.1, hsame.2.1, hsame.2.2] at h

theorem finds_returned {deadline : Instant} {record : RecordConfig} {zoneId : String}
    {trace lookup : List Step} {existing : Option DnsRecord}
    (hmeets : List.Forall₂ (MeetsDeadline deadline) trace lookup)
    (hfinds : self.finds record zoneId lookup (.ok existing)) :
    self.Returned deadline record zoneId trace existing := by
  refine ⟨lookup, hmeets, hfinds, ?_⟩
  obtain ⟨-, hdecides⟩ := self.cloudflare.recordPages_runs zoneId record.recordType.asStr
    record.name maxPages 1 none [] rfl hfinds
  have hverdict := hdecides (.inl ⟨existing, rfl⟩)
  rw [List.nil_append] at hverdict
  exact (recordVerdict_ok_iff _ _ _ _).mp hverdict.symm

/-- A step under the deadline tells the process what it would without one. -/
theorem next_meets {apiToken : String} {deadline : Instant} {step step' : Step}
    (h : MeetsDeadline deadline step step') (s : ZoneState) :
    s.next apiToken step = s.next apiToken step' ∧ (s.coherent step ↔ s.coherent step') := by
  rcases h with rfl | ⟨wait, answer, rfl, rfl⟩
  · exact ⟨rfl, Iff.rfl⟩
  · cases wait <;> exact ⟨rfl, Iff.rfl⟩

theorem coherent_meets {apiToken : String} {deadline : Instant} {trace trace' : List Step}
    (h : List.Forall₂ (MeetsDeadline deadline) trace trace') {s : ZoneState}
    (hcoherent : CoherentFrom ZoneState.coherent (ZoneState.next apiToken) s trace) :
    CoherentFrom ZoneState.coherent (ZoneState.next apiToken) s trace' ∧
      trace.foldl (ZoneState.next apiToken) s = trace'.foldl (ZoneState.next apiToken) s := by
  induction h generalizing s with
  | nil => exact ⟨trivial, rfl⟩
  | cons hstep _ ih =>
      obtain ⟨hnext, hsame⟩ := next_meets hstep s
      obtain ⟨hhere, hrest⟩ := hcoherent
      rw [hnext] at hrest
      obtain ⟨hlater, hfold⟩ := ih hrest
      refine ⟨⟨hsame.mp hhere, hlater⟩, ?_⟩
      rw [List.foldl_cons, hnext, hfold, List.foldl_cons]

theorem known_foldl {apiToken : String} (trace : List Step) (s : ZoneState)
    (zoneName zoneId : String) :
    (trace.foldl (ZoneState.next apiToken) s).known zoneName zoneId ↔
      s.known zoneName zoneId ∨ ∃ step ∈ trace, Vouches apiToken step zoneName zoneId := by
  induction trace generalizing s with
  | nil => simp
  | cons step rest ih =>
      rw [List.foldl_cons, ih]
      simp [ZoneState.next, or_assoc]

/-- What the process knows after a history. -/
def knowledge (history : List Step) : ZoneState :=
  history.foldl (ZoneState.next self.cloudflare.apiToken) .start

/-- A resolved zone id has been vouched for. -/
theorem resolves_vouched {deadline : Instant} {history zone zone' : List Step}
    {record : RecordConfig} {zoneId : String} (hplain : PlainName record.zone)
    (hsound : (self.knowledge history).Sound)
    (hcoherent : CoherentFrom ZoneState.coherent (ZoneState.next self.cloudflare.apiToken)
      (self.knowledge history) zone)
    (hmeets : List.Forall₂ (MeetsDeadline deadline) zone zone')
    (hresolves : self.resolves record zone' (.ok zoneId)) :
    ∃ step ∈ history ++ zone, Vouches self.cloudflare.apiToken step record.zone zoneId := by
  obtain ⟨hcoherent', hfold⟩ := coherent_meets hmeets hcoherent
  have hholds := self.cloudflare.resolveZoneId_resolves (vouchZoneRule self.cloudflare)
    hplain record.zoneId hsound
  obtain ⟨-, hknown⟩ := track_run hholds hresolves hcoherent'
  have hall : ((history ++ zone).foldl (ZoneState.next self.cloudflare.apiToken)
      .start).known record.zone zoneId := by
    rw [List.foldl_append]
    unfold knowledge at hfold
    rw [hfold]
    exact hknown zoneId rfl
  rcases (known_foldl _ _ _ _).mp hall with hstart | hvouched
  · exact hstart.elim
  · exact hvouched

theorem planExistingRecord_request {record : RecordConfig} {address : IpAddr}
    {zoneId : String} {existing : DnsRecord} {request : Request}
    (h : (planExistingRecord record address zoneId existing).request = some request) :
    Differs record address existing ∧
      request = .updateRecord zoneId existing.id (recordPayload record address) := by
  unfold planExistingRecord at h
  split at h
  · cases h
  · rename_i hdiffers
    cases h
    exact ⟨differs_of_not_upToDate (by simpa using hdiffers), rfl⟩

/-- A plan that sends a request has been justified by the steps of its planning, as far as they
were finished before the deadline: the zone by its resolution, from the cache or by a response,
and the rest by the lookup. -/
theorem plans_justifies {deadline : Instant} {history planning planning' : List Step}
    {record : RecordConfig} {address : IpAddr} {plan : RecordPlan} {request : Request}
    (hplain : PlainName record.zone) (hsound : (self.knowledge history).Sound)
    (hcoherent : CoherentFrom ZoneState.coherent (ZoneState.next self.cloudflare.apiToken)
      (self.knowledge history) planning)
    (hmeets : List.Forall₂ (MeetsDeadline deadline) planning planning')
    (hplans : self.Plans record address planning' (.ok plan))
    (hrequest : plan.request = some request) :
    self.Justifies deadline history record address planning request := by
  cases hplans with
  | found hzone hfound =>
      obtain ⟨zone, lookup, rfl, hfirst, hlookup⟩ := forall₂_split hmeets
      obtain ⟨hdiffers, rfl⟩ := planExistingRecord_request hrequest
      exact .update (self.resolves_vouched hplain hsound
        (coherentFrom_append.mp hcoherent).1 hfirst hzone)
        (self.finds_returned hlookup hfound) hdiffers
  | appeared hzone hnone hfound =>
      obtain ⟨zone, _, rfl, hresolved, hrest⟩ := forall₂_split hmeets
      obtain ⟨first, lookup, rfl, hfirst, hlookup⟩ := forall₂_split hrest
      obtain ⟨hdiffers, rfl⟩ := planExistingRecord_request hrequest
      exact .updateAppeared (self.resolves_vouched hplain hsound
        (coherentFrom_append.mp hcoherent).1 hresolved hzone)
        (self.finds_returned hfirst hnone) (self.finds_returned hlookup hfound) hdiffers
  | missing hzone hnone hcreate hagain =>
      obtain ⟨zone, _, rfl, hresolved, hrest⟩ := forall₂_split hmeets
      obtain ⟨first, second, rfl, hfirst, hsecond⟩ := forall₂_split hrest
      cases hrequest
      exact .create (self.resolves_vouched hplain hsound
        (coherentFrom_append.mp hcoherent).1 hresolved hzone)
        (self.finds_returned hfirst hnone) hcreate (self.finds_returned hsecond hagain)

/-- Executing a plan sends the mutation that it calls for. -/
theorem executes_sends {plan : RecordPlan} {trace : List Step}
    {outcome : Except (FailureStage × CloudflareError) RecordOutcome}
    (h : self.Executes plan trace outcome) : trace.filterMap sent = plan.request.toList := by
  cases h with
  | unchanged => rfl
  | update hresult => exact sent_mutationSteps _ _ _ _
  | create hresult => exact sent_mutationSteps _ _ _ _

theorem planning_sends_nothing {deadline : Instant} {record : RecordConfig}
    {address : IpAddr} {planning : List Step}
    {planned : Option (Except (FailureStage × CloudflareError) RecordPlan)}
    (hrun : Runs (timeoutAt deadline (self.planRecord record address)) planning planned) :
    mutationsOf planning = [] := by
  have huses := uses_runs (uses_timeoutAt (fun _ => LookupOp.finishBefore)
    (self.planRecord_uses record address)) hrun
  exact mutationsOf_eq_nil fun step member => mutationsOf_lookup (huses step member)

/-- A visit sends no mutation, or one that the planning before it justifies. What the cache has
told about the zone is justified as well, since it was sound before the visit and the answers that
it keeps are vouched for. -/
theorem visit_justified {deadline : Instant} {addresses : DiscoveredAddresses}
    {history visit : List Step} {record : RecordConfig} {report : CycleReport}
    {flow : Flow CycleReport} (hplain : PlainName record.zone)
    (hsound : (self.knowledge history).Sound)
    (hcoherent : CoherentFrom ZoneState.coherent (ZoneState.next self.cloudflare.apiToken)
      (self.knowledge history) visit)
    (hvisit : self.Visits deadline addresses record report visit flow) :
    self.JustifiedVisit deadline addresses history record visit := by
  cases hvisit with
  | stopped => exact .quiet rfl
  | noAddress _ => exact .quiet rfl
  | planExpired _ hplanning =>
      apply JustifiedVisit.quiet
      rw [mutationsOf_cons, self.planning_sends_nothing hplanning]
      rfl
  | planFailed _ hplanning =>
      apply JustifiedVisit.quiet
      rw [mutationsOf_cons, self.planning_sends_nothing hplanning]
      rfl
  | planLate _ hplanning _ =>
      apply JustifiedVisit.quiet
      rw [mutationsOf_cons, mutationsOf_append, self.planning_sends_nothing hplanning]
      rfl
  | @executed address planning mutation plan now outcome haddress hplanning hlate hexecutes =>
      have hsends := self.executes_sends hexecutes
      cases hrequest : plan.request with
      | none =>
          apply JustifiedVisit.quiet
          rw [hrequest] at hsends
          have hnothing : mutationsOf mutation = [] := by
            unfold mutationsOf
            rw [hsends]
            rfl
          rw [mutationsOf_cons, mutationsOf_append, mutationsOf_cons ⟨.act .now, now⟩,
            self.planning_sends_nothing hplanning, hnothing]
          rfl
      | some request =>
          obtain ⟨planning', hrun, hmeets⟩ := runs_timeoutAt_some hplanning
          have hstop : self.knowledge (history ++ [⟨.act .stopRequested, false⟩]) =
              self.knowledge history := by
            unfold knowledge
            rw [List.foldl_append, List.foldl_cons, List.foldl_nil]
            exact next_act _ (fun _ _ h => by cases h) (fun _ h => by cases h) _
          have hplanned : CoherentFrom ZoneState.coherent
              (ZoneState.next self.cloudflare.apiToken)
              (self.knowledge (history ++ [⟨.act .stopRequested, false⟩])) planning := by
            have hrest := (coherentFrom_append.mp hcoherent.2).1
            unfold knowledge
            rw [List.foldl_append]
            exact hrest
          rw [← hstop] at hsound
          refine .mutates haddress (self.plans_justifies hplain hsound hplanned hmeets
            (self.planRecord_plans hrun) hrequest) ?_ ?_ (RecordPlan.request_isMutation hrequest)
          · rw [mutationsOf_cons, self.planning_sends_nothing hplanning]
            rfl
          · rw [hrequest] at hsends
            rw [List.filterMap_cons, hsends]
            rfl

/-- The record loop as a list of visits, in the order of the records. -/
theorem visitsAll_list {deadline : Instant} {addresses : DiscoveredAddresses}
    {records : List RecordConfig} {report final : CycleReport} {trace : List Step}
    (h : self.VisitsAll deadline addresses records report trace final) :
    ∃ visits : List (RecordConfig × List Step), trace = visits.flatMap Prod.snd ∧
      visits.map Prod.fst <+: records ∧
      ∀ visit ∈ visits, ∃ report flow,
        self.Visits deadline addresses visit.1 report visit.2 flow := by
  induction h with
  | done report => exact ⟨[], rfl, List.nil_prefix, fun _ member => by cases member⟩
  | @next record rest report report' final visit later hvisit _ ih =>
      obtain ⟨visits, rfl, hprefix, hall⟩ := ih
      refine ⟨(record, visit) :: visits, rfl, ?_, fun other member => ?_⟩
      · exact (List.cons_prefix_cons).mpr ⟨rfl, hprefix⟩
      · rcases List.mem_cons.mp member with rfl | member
        · exact ⟨report, _, hvisit⟩
        · exact hall other member
  | @stop record rest report final visit hvisit =>
      refine ⟨[(record, visit)], by simp, ?_, fun other member => ?_⟩
      · exact (List.cons_prefix_cons).mpr ⟨rfl, List.nil_prefix⟩
      · obtain rfl := List.mem_singleton.mp member
        exact ⟨report, _, hvisit⟩

/-- The runs of `run_cycle`: the lock is refused, or it is held around the cycle. -/
theorem runs_runCycle {trace : List Step} {report : CycleReport}
    (hrun : Runs self.runCycle trace report) :
    ∃ setup cycle closing, trace = setup ++ (cycle ++ closing) ∧
      (∀ step ∈ setup, sent step = none) ∧ (∀ step ∈ closing, sent step = none) ∧
      (cycle = [] ∨ ∃ deadline, self.Cycles deadline cycle report) := by
  simp only [runCycle, act_eq, Program.ask_bind, Program.done_bind] at hrun
  obtain ⟨_, _, rfl, hrest⟩ := (runs_ask_iff _ _ _ _).mp hrun
  obtain ⟨acquiring, _, acquired, rfl, hacquire, hgoes⟩ := (runs_bind_iff _ _ _ _).mp hrest
  have hacquiring : ∀ step ∈ acquiring, sent step = none := fun step member =>
    sent_of_lock (uses_runs (acquire_uses self.runtimeLock) hacquire step member)
  cases acquired with
  | error error =>
      obtain ⟨rfl, -⟩ := (runs_done_iff _ _ _).mp hgoes
      refine ⟨⟨.act .newControl, ()⟩ :: acquiring, [], [], by simp, ?_, by simp, .inl rfl⟩
      intro step member
      rcases List.mem_cons.mp member with rfl | member
      · rfl
      · exact hacquiring step member
  | ok lock =>
      obtain ⟨_, _, report', rfl, hcycle, hclose⟩ := (runs_bind_iff _ _ _ _).mp hgoes
      obtain ⟨now, cycle, rfl, huntil⟩ := (runs_ask_iff _ _ _ _).mp hcycle
      obtain ⟨closing, _, _, rfl, hdrop, hend⟩ := (runs_bind_iff _ _ _ _).mp hclose
      obtain ⟨rfl, rfl⟩ := (runs_done_iff _ _ _).mp hend
      refine ⟨⟨.act .newControl, ()⟩ :: (acquiring ++ [⟨.act .now, now⟩]), cycle, closing,
        by simp, ?_, ?_,   .inr ⟨_, self.runCycleUntil_cycles huntil⟩⟩
      · intro step member
        simp only [List.mem_cons, List.mem_append, List.not_mem_nil, or_false] at member
        rcases member with rfl | member | rfl
        · rfl
        · exact hacquiring step member
        · rfl
      · intro step member
        exact sent_of_lock (uses_runs (drop_uses lock) hdrop step member)

omit [Externals] in
theorem mutationsOf_quiet {trace : List Step} (h : ∀ step ∈ trace, sent step = none) :
    mutationsOf trace = [] :=
  mutationsOf_eq_nil fun step member => mutationsOf_unsent (h step member)

theorem discovery_sends_nothing {deadline : Instant} {discovery : List Step}
    {discovered : Option DiscoveredAddresses}
    (hrun : Runs (timeoutAt deadline self.discoverRequiredAddresses) discovery discovered) :
    ∀ step ∈ discovery, sent step = none := by
  have huses := uses_runs (self.timeoutDiscovery_uses (fun _ h => h) deadline) hrun
  exact fun step member => sent_of_discovery (huses step member)

/-- The trace of a cycle, cut into the visits of its records. Each configured
record has its turn once, and between the visits and around them nothing mutates. -/
structure CycleCut (updater : Updater) (trace : List Step) where
  before : List Step
  after : List Step
  visits : List (RecordConfig × List Step)
  order : List RecordConfig
  deadline : Instant
  addresses : DiscoveredAddresses
  trace_eq : trace = before ++ (visits.flatMap Prod.snd ++ after)
  before_quiet : mutationsOf before = []
  after_quiet : mutationsOf after = []
  order_perm : order.Perm updater.config.records
  visits_prefix : visits.map Prod.fst <+: order
  discovered : visits ≠ [] → ∃ discovery, discovery <:+: before ∧
    Runs (timeoutAt deadline updater.discoverRequiredAddresses) discovery (some addresses)

namespace CycleCut

/-- A cycle that visits no record. -/
def unvisited {trace : List Step} (h : mutationsOf trace = []) : self.CycleCut trace where
  before := trace
  after := []
  visits := []
  order := self.config.records
  deadline := 0
  addresses := { ipv4 := none, ipv6 := none }
  trace_eq := by simp
  before_quiet := h
  after_quiet := rfl
  order_perm := .refl _
  visits_prefix := List.nil_prefix
  discovered := fun hvisits => absurd rfl hvisits

variable {self}

/-- What the cycle has done before the visits that follow the earlier ones. -/
def history {trace : List Step} (cut : self.CycleCut trace)
    (earlier : List (RecordConfig × List Step)) : List Step :=
  cut.before ++ earlier.flatMap Prod.snd

end CycleCut

/-- A visit within a cycle, after what the process has done before it. -/
theorem visit_in_cycle {past trace earlier visit later : List Step} {report : CycleReport}
    {record : RecordConfig} (hvalid : self.config.validate = .ok ())
    (hpast : Process self past) (hrun : Runs self.runCycle trace report)
    (hreads : CacheReads self.cloudflare.apiToken (past ++ trace))
    (htrace : trace = earlier ++ (visit ++ later)) (hrecord : record ∈ self.config.records)
    {deadline : Instant} {addresses : DiscoveredAddresses} {before : CycleReport}
    {flow : Flow CycleReport}
    (hvisit : self.Visits deadline addresses record before visit flow) :
    self.JustifiedVisit deadline addresses (past ++ earlier) record visit := by
  obtain ⟨hrecords, -, -⟩ := Config.validate_ok hvalid
  have hplain : ∀ record ∈ self.config.records, PlainName record.zone :=
    fun record member => (hrecords record member).plain
  obtain ⟨hcoherent, hcycle⟩ := coherentFrom_append.mp hreads
  rw [htrace] at hcycle
  obtain ⟨hearlier, hrest⟩ := coherentFrom_append.mp hcycle
  have hstart := process_sound self hplain hpast hcoherent
  have hreach := hrun.reaches
  rw [htrace] at hreach
  obtain ⟨rest, hreached, -⟩ := hreach.split
  have hsound := reaches_sound hreached (runCycle_vouches self hplain hstart) hstart hearlier
  have hhere : self.knowledge (past ++ earlier) =
      earlier.foldl (ZoneState.next self.cloudflare.apiToken)
        (past.foldl (ZoneState.next self.cloudflare.apiToken) .start) := by
    unfold knowledge
    rw [List.foldl_append]
  apply self.visit_justified (hrecords record hrecord).plain _ _ hvisit
  · rw [hhere]
    exact hsound
  · rw [hhere]
    exact (coherentFrom_append.mp hrest).1

/-- The visits of a cycle; the rest of it sends no mutation. -/
theorem runCycle_cut {trace : List Step} {report : CycleReport}
    (hrun : Runs self.runCycle trace report) :
    ∃ cut : self.CycleCut trace, ∀ visit ∈ cut.visits, ∃ report flow,
      self.Visits cut.deadline cut.addresses visit.1 report visit.2 flow := by
  obtain ⟨setup, cycle, closing, rfl, hsetup, hclosing, hcycle⟩ := self.runs_runCycle hrun
  have hbefore := mutationsOf_quiet hsetup
  have hafter := mutationsOf_quiet hclosing
  have hempty : (∀ step ∈ cycle, sent step = none) →
      ∃ cut : self.CycleCut (setup ++ (cycle ++ closing)), ∀ visit ∈ cut.visits,
        ∃ report flow,
          self.Visits cut.deadline cut.addresses visit.1 report visit.2 flow := by
    intro hnone
    have hquiet : mutationsOf (setup ++ (cycle ++ closing)) = [] := by
      rw [mutationsOf_append, mutationsOf_append, hbefore, mutationsOf_quiet hnone, hafter]
      rfl
    exact ⟨.unvisited self hquiet, fun _ member => by cases member⟩
  rcases hcycle with rfl | ⟨deadline, hcycle⟩
  · exact hempty fun _ member => by cases member
  · cases hcycle with
    | undiscovered hdiscovery => exact hempty (self.discovery_sends_nothing hdiscovery)
    | unmanaged hdiscovery _ => exact hempty (self.discovery_sends_nothing hdiscovery)
    | @visited discovery visiting addresses cursor report hdiscovery hrecords hvisits =>
        obtain ⟨visits, rfl, hprefix, hall⟩ := self.visitsAll_list hvisits
        have hsetup' : mutationsOf (setup ++ (discovery ++
            [⟨.act .fetchAddCursor, cursor⟩])) = [] := by
          rw [mutationsOf_append, mutationsOf_append, hbefore,
            mutationsOf_quiet (self.discovery_sends_nothing hdiscovery)]
          rfl
        exact ⟨{
          before := setup ++ (discovery ++ [⟨.act .fetchAddCursor, cursor⟩])
          after := closing
          visits := visits
          order := rotated self.config.records cursor
          deadline := deadline
          addresses := addresses
          trace_eq := by simp
          before_quiet := hsetup'
          after_quiet := hafter
          order_perm := rotated_perm _ _
          visits_prefix := hprefix
          discovered := fun _ => ⟨discovery, ⟨setup, _, List.append_assoc _ _ _⟩, hdiscovery⟩
        }, hall⟩

end Updater

/-- The mutations of a cycle are minimal and justified, whatever the server
answers. The trace of a cycle is that of the visits of its records, each
configured record being visited at most once, between parts that send no
mutation. A visit sends at most one mutation, to a zone id that a response has
vouched for: an update of the only exact match that the lookup just before it
has found, if that differs from the configuration, or a creation, if it is
allowed and the two lookups just before it have found no match. -/
theorem cycle_mutations_justified (self : Updater) (hvalid : self.config.validate = .ok ())
    {past trace : List Step} {report : CycleReport} (hpast : Process self past)
    (hrun : Runs self.runCycle trace report)
    (hreads : CacheReads self.cloudflare.apiToken (past ++ trace)) :
    ∃ cut : self.CycleCut trace, ∀ earlier visit later,
      cut.visits = earlier ++ visit :: later →
        self.JustifiedVisit cut.deadline cut.addresses (past ++ cut.history earlier)
          visit.1 visit.2 := by
  obtain ⟨cut, hvisits⟩ := self.runCycle_cut hrun
  refine ⟨cut, fun earlier visit later hsplit => ?_⟩
  have hmember : visit ∈ cut.visits := by
    rw [hsplit]
    simp
  have hrecord : visit.1 ∈ self.config.records := by
    have hvisited := cut.visits_prefix.subset (List.mem_map_of_mem hmember)
    exact cut.order_perm.subset hvisited
  have htrace : trace = cut.history earlier ++
      (visit.2 ++ (later.flatMap Prod.snd ++ cut.after)) := by
    have hcut := cut.trace_eq
    rw [hsplit] at hcut
    simpa [Updater.CycleCut.history] using hcut
  obtain ⟨_, _, hvisit⟩ := hvisits visit hmember
  exact self.visit_in_cycle hvalid hpast hrun hreads htrace hrecord hvisit

end

section

attribute [local instance] exampleExternals

/-- The cycle that creates the example record, with a cache of its own. -/
def cachingScenario : Scenario :=
  { creationScenario with
    cached := fun past => (past.foldl (ZoneState.next "token") .start).cache }

theorem cachingScenario_coherent (past : List Step) (op : Op) :
    (past.foldl (ZoneState.next "token") .start).coherent
      ⟨op, cachingScenario.strategy past op⟩ := by
  cases op with
  | act action => cases action <;> first | rfl | trivial
  | finish wait => trivial
  | finishBefore deadline wait => trivial

theorem cycle_mutations_justified_creation :
    ∃ cut : exampleUpdater.CycleCut (cachingScenario.trace exampleUpdater.runCycle),
      ∀ earlier visit later, cut.visits = earlier ++ visit :: later →
        exampleUpdater.JustifiedVisit cut.deadline cut.addresses (cut.history earlier)
          visit.1 visit.2 := by
  have hreads : CacheReads "token" ([] ++ cachingScenario.trace exampleUpdater.runCycle) := by
    rw [List.nil_append]
    exact cachingScenario.coherent cachingScenario_coherent exampleUpdater.runCycle
  exact cycle_mutations_justified exampleUpdater exampleConfig_valid .start
    (cachingScenario.runs exampleUpdater.runCycle) hreads

end

end Cirrusync
