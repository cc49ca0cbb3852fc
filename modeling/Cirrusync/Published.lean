import Cirrusync.Footprint
import Cirrusync.Scenario

/-!
Only public addresses of the right family are published. The family and the
filter are established where a provider's response is read, and every payload
that a cycle or a check builds is the payload of one configured record for an
address that discovery found for the record's family.
-/

namespace Cirrusync

open Effect

/-- The record payload that a step sends, if it sends one. -/
def publishes : Step → Option RecordPayload
  | ⟨.act (.begin (.http (.updateRecord _ _ payload))), _⟩ => some payload
  | ⟨.act (.begin (.http (.createRecord _ payload))), _⟩ => some payload
  | _ => none

section

variable [Externals]

/-- A payload that publishes `address` for one configured record. -/
structure Published (config : Config) (payload : RecordPayload) (record : RecordConfig)
    (address : IpAddr) : Prop where
  configured : record ∈ config.records
  isPublic : isPublicAddress address = true
  family : record.recordType.family.contains address = true
  payload_eq : payload = recordPayload record address

theorem parseProviderResponse_ok {response : String} {family : AddressFamily}
    {address : IpAddr} (h : parseProviderResponse response family = .ok address) :
    family.contains address = true ∧ isPublicAddress address = true := by
  simp only [parseProviderResponse, except_bind_ok, ensure_ok, exists_const] at h
  obtain ⟨-, -, candidate, -, hfamily, hpublic, hsame⟩ := h
  cases hsame
  exact ⟨hfamily, hpublic⟩

theorem readProvider_ok {outcome : HttpOutcome} {family : AddressFamily}
    {address : IpAddr} (h : readProvider outcome family = .ok address) :
    family.contains address = true ∧ isPublicAddress address = true := by
  cases outcome with
  | failed source => cases h
  | answered response =>
      simp only [readProvider, except_bind_ok, ensure_ok, exists_const] at h
      obtain ⟨-, -, bytes, -, h⟩ := h
      split at h
      · cases h
      · exact parseProviderResponse_ok h

/-- Whatever the providers answer and in whatever order they fail, the address
that discovery returns is public and of the family it was asked for. -/
theorem discoverFrom_ok {client : PublicIpClient} {family : AddressFamily}
    {started : Instant} {providers : List String} {failures : List ProviderFailure}
    {trace : List Step} {address : IpAddr}
    (hrun : Runs (client.discoverFrom family started providers failures) trace
      (.ok address)) :
    family.contains address = true ∧ isPublicAddress address = true := by
  induction providers generalizing failures trace with
  | nil => cases hrun
  | cons provider rest ih =>
      simp only [PublicIpClient.discoverFrom, act_eq, await_eq, Program.ask_bind,
        Program.done_bind, runs_ask_iff] at hrun
      obtain ⟨now, _, -, hrun⟩ := hrun
      split at hrun
      · cases hrun
      split at hrun
      · cases hrun
      obtain ⟨-, _, -, hrun⟩ := (runs_ask_iff _ _ _ _).mp hrun
      obtain ⟨outcome, _, -, hrun⟩ := (runs_ask_iff _ _ _ _).mp hrun
      cases hattempt : attemptResult family outcome with
      | error error =>
          simp only [hattempt] at hrun
          exact ih hrun
      | ok found =>
          simp only [hattempt] at hrun
          cases hrun
          cases outcome with
          | none => cases hattempt
          | some outcome => exact readProvider_ok hattempt

theorem discover_ok {client : PublicIpClient} {family : AddressFamily}
    {providers : List String} {trace : List Step} {address : IpAddr}
    (hrun : Runs (client.discover family providers) trace (.ok address)) :
    family.contains address = true ∧ isPublicAddress address = true := by
  unfold PublicIpClient.discover at hrun
  split at hrun
  · cases hrun
  · obtain ⟨started, _, -, hrest⟩ := (runs_ask_iff _ _ _ _).mp hrun
    exact discoverFrom_ok hrest

/-- What one cycle or check knows of the addresses: a family is looked for if
and only if a record needs it, and a found address may be published. -/
structure Discovered (config : Config) (addresses : DiscoveredAddresses) : Prop where
  isSome_iff : ∀ family, (addresses.discovered family).isSome =
    config.records.any (fun record => record.recordType.family == family)
  found_ok : ∀ family address, addresses.discovered family = some (.ok address) →
    family.contains address = true ∧ isPublicAddress address = true

namespace Updater

variable (self : Updater)

theorem discoverFamily_runs {family : AddressFamily} {trace : List Step}
    {result : Option (Except String IpAddr)}
    (hrun : Runs (self.discoverFamily family) trace result) :
    result.isSome =
        self.config.records.any (fun record => record.recordType.family == family) ∧
      ∀ address, result = some (.ok address) →
        family.contains address = true ∧ isPublicAddress address = true := by
  unfold discoverFamily at hrun
  split at hrun
  · rename_i hneeded
    obtain ⟨_, _, found, -, hdiscover, hrest⟩ := (runs_bind_iff _ _ _ _).mp hrun
    cases hrest
    refine ⟨hneeded.symm, fun address hfound => ?_⟩
    cases found with
    | error error => cases hfound
    | ok value =>
        cases hfound
        exact discover_ok hdiscover
  · rename_i hneeded
    cases hrun
    refine ⟨?_, fun address hfound => nomatch hfound⟩
    simpa using hneeded

theorem discoverRequiredAddresses_runs {trace : List Step}
    {addresses : DiscoveredAddresses}
    (hrun : Runs self.discoverRequiredAddresses trace addresses) :
    Discovered self.config addresses := by
  unfold discoverRequiredAddresses at hrun
  obtain ⟨_, _, ⟨ipv4, ipv6⟩, -, hjoin, hrest⟩ := (runs_bind_iff _ _ _ _).mp hrun
  cases hrest
  obtain ⟨⟨_, hipv4⟩, _, hipv6⟩ := runs_join hjoin
  have h4 := self.discoverFamily_runs hipv4
  have h6 := self.discoverFamily_runs hipv6
  constructor
  · intro family
    cases family with
    | ipv4 => exact h4.1
    | ipv6 => exact h6.1
  · intro family address hfound
    cases family with
    | ipv4 => exact h4.2 address hfound
    | ipv6 => exact h6.2 address hfound

theorem timeoutDiscovery_runs {deadline : Instant} {trace : List Step}
    {addresses : DiscoveredAddresses}
    (hrun : Runs (timeoutAt deadline self.discoverRequiredAddresses) trace
      (some addresses)) :
    Discovered self.config addresses := by
  obtain ⟨trace', hrun', -⟩ := runs_timeoutAt_some hrun
  exact self.discoverRequiredAddresses_runs hrun'

end Updater

theorem forRecord_ok {config : Config} {addresses : DiscoveredAddresses}
    (hdiscovered : Discovered config addresses) {record : RecordConfig} {address : IpAddr}
    (hmember : record ∈ config.records) (h : addresses.forRecord record = .ok address) :
    Published config (recordPayload record address) record address := by
  unfold DiscoveredAddresses.forRecord at h
  split at h
  · rename_i found hfound
    cases h
    obtain ⟨hfamily, hpublic⟩ := hdiscovered.found_ok _ _ hfound
    exact ⟨hmember, hpublic, hfamily, rfl⟩
  · cases h
  · cases h

/-- The operations of a program that publishes only what `Published` allows. -/
def PublishOp (config : Config) : Op → Prop
  | .act (.begin (.http (.updateRecord _ _ payload))) =>
      ∃ record address, Published config payload record address
  | .act (.begin (.http (.createRecord _ payload))) =>
      ∃ record address, Published config payload record address
  | _ => True

theorem PublishOp.of_discovery {config : Config} {op : Op} (h : DiscoveryOp op) :
    PublishOp config op := by
  unfold PublishOp
  split
  · exact h.elim
  · exact h.elim
  · trivial

theorem PublishOp.of_lookup {config : Config} {op : Op} (h : LookupOp op) :
    PublishOp config op := by
  unfold PublishOp
  split
  · cases h
  · cases h
  · trivial

theorem PublishOp.of_lock {config : Config} {op : Op} (h : LockOp op) :
    PublishOp config op := by
  unfold PublishOp
  split
  · exact h.elim
  · exact h.elim
  · trivial

/-- Operations other than the probe of a check, the one mutation that publishes nothing. -/
def ProbelessOp : Op → Prop
  | .act (.begin (.http (.probeRecord _ _ _))) => False
  | _ => True

omit [Externals] in
theorem ProbelessOp.of_discovery {op : Op} (h : DiscoveryOp op) : ProbelessOp op := by
  unfold ProbelessOp
  split
  · exact h.elim
  · trivial

omit [Externals] in
theorem ProbelessOp.of_lookup {op : Op} (h : LookupOp op) : ProbelessOp op := by
  unfold ProbelessOp
  split
  · cases h
  · trivial

omit [Externals] in
theorem ProbelessOp.of_lock {op : Op} (h : LockOp op) : ProbelessOp op := by
  unfold ProbelessOp
  split
  · exact h.elim
  · trivial

omit [Externals] in
theorem ProbelessOp.publishes {step : Step} (h : ProbelessOp step.op) {request : Request}
    (hsent : sent step = some request) (hmutation : request.isMutation = true) :
    (publishes step).isSome = true := by
  unfold sent at hsent
  split at hsent
  · rename_i asked answer
    obtain rfl : asked = request := Option.some.inj hsent
    cases asked with
    | updateRecord zoneId recordId payload => rfl
    | createRecord zoneId payload => rfl
    | probeRecord zoneId recordId payload => exact h.elim
    | _ => cases hmutation
  · cases hsent

theorem PublishOp.of_publishes {config : Config} {step : Step} (h : PublishOp config step.op)
    {payload : RecordPayload} (hpublishes : publishes step = some payload) :
    ∃ record address, Published config payload record address := by
  unfold publishes at hpublishes
  split at hpublishes
  · cases hpublishes
    exact h
  · cases hpublishes
    exact h
  · cases hpublishes

/-- Operations that a cycle may use: those of discovery, of the lookups and of
the loop itself, and those of executing a plan for a configured record. -/
structure Updater.CycleFootprint (updater : Updater) (allowed : Op → Prop) : Prop where
  discovery : ∀ op, DiscoveryOp op → allowed op
  lookup : ∀ op, LookupOp op → allowed op
  stopRequested : allowed (.act .stopRequested)
  fetchAddCursor : allowed (.act .fetchAddCursor)
  execute : ∀ {record address trace plan},
    Published updater.config (recordPayload record address) record address →
    updater.Plans record address trace (.ok plan) →
    Uses allowed (updater.executeRecordPlan plan)

namespace Updater

variable (self : Updater)

/-- The plan for a record publishes the payload of that record, if anything. -/
theorem plans_payload {record : RecordConfig} {address : IpAddr} {trace : List Step}
    {plan : RecordPlan} (hplans : self.Plans record address trace (.ok plan)) :
    plan = .unchanged ∨
      (∃ zoneId recordId, plan = .update zoneId recordId (recordPayload record address)) ∨
      ∃ zoneId, plan = .create zoneId (recordPayload record address) := by
  cases hplans with
  | found _ _ =>
      unfold planExistingRecord
      split
      · exact .inl rfl
      · exact .inr (.inl ⟨_, _, rfl⟩)
  | appeared _ _ _ =>
      unfold planExistingRecord
      split
      · exact .inl rfl
      · exact .inr (.inl ⟨_, _, rfl⟩)
  | missing _ _ _ _ => exact .inr (.inr ⟨_, rfl⟩)

/-- A plan is executed by one mutation with the payload of its record. -/
theorem executeRecordPlan_uses {allowed : Op → Prop} {record : RecordConfig}
    {address : IpAddr} {trace : List Step} {plan : RecordPlan}
    (hplans : self.Plans record address trace (.ok plan))
    (hflag : ∀ flag, allowed (.act (.setMutationInFlight flag)))
    (hevict : ∀ zoneId, allowed (.act (.cacheEvict zoneId)))
    (hupdate : ∀ zoneId recordId,
      allowed (.act (.begin (.http
        (.updateRecord zoneId recordId (recordPayload record address))))) ∧
      allowed (.finish (.http
        (.updateRecord zoneId recordId (recordPayload record address)))))
    (hcreate : ∀ zoneId,
      allowed (.act (.begin (.http
        (.createRecord zoneId (recordPayload record address))))) ∧
      allowed (.finish (.http (.createRecord zoneId (recordPayload record address))))) :
    Uses allowed (self.executeRecordPlan plan) := by
  rcases self.plans_payload hplans with rfl | ⟨zoneId, recordId, rfl⟩ | ⟨zoneId, rfl⟩
  · trivial
  · apply uses_bind (uses_guarded hflag (self.cloudflare.updateRecord_uses
      (hupdate zoneId recordId).1 (hupdate zoneId recordId).2 (hevict zoneId)))
    intro result
    cases result <;> trivial
  · apply uses_bind (uses_guarded hflag (self.cloudflare.createRecord_uses
      (hcreate zoneId).1 (hcreate zoneId).2 (hevict zoneId)))
    intro result
    cases result <;> trivial

section

variable {allowed : Op → Prop}

/-- The visit of a configured record uses only operations of the footprint of a cycle, with the
payload that the record and a discovered address make. -/
theorem visitRecord_uses (hallowed : self.CycleFootprint allowed) {deadline : Instant}
    {addresses : DiscoveredAddresses} (hdiscovered : Discovered self.config addresses)
    {record : RecordConfig} (hmember : record ∈ self.config.records)
    (report : CycleReport) :
    Uses allowed (self.visitRecord deadline addresses record report) := by
  simp only [visitRecord, act_eq, Program.ask_bind, Program.done_bind, uses_ask]
  refine ⟨hallowed.stopRequested, fun stopRequested => ?_⟩
  cases stopRequested with
  | true => trivial
  | false =>
      simp only [Bool.false_eq_true, if_false]
      cases haddress : addresses.forRecord record with
      | error message => trivial
      | ok address =>
          simp only
          apply uses_bind_of_runs (uses_mono (uses_timeoutAt
            (fun _ => LookupOp.finishBefore) (self.planRecord_uses record address))
            hallowed.lookup)
          intro planned trace hplanned
          match planned with
          | none => trivial
          | some (.error error) => trivial
          | some (.ok plan) =>
              obtain ⟨trace', hrun, -⟩ := runs_timeoutAt_some hplanned
              have hpublished := forRecord_ok hdiscovered hmember haddress
              refine ⟨hallowed.discovery _ trivial, fun now => ?_⟩
              simp only [Program.pure_eq]
              split
              · trivial
              · exact uses_bind (hallowed.execute hpublished (self.planRecord_plans hrun))
                  fun _ => trivial

theorem visitRecords_uses (hallowed : self.CycleFootprint allowed) {deadline : Instant}
    {addresses : DiscoveredAddresses} (hdiscovered : Discovered self.config addresses)
    {records : List RecordConfig}
    (hmember : ∀ record ∈ records, record ∈ self.config.records) (report : CycleReport) :
    Uses allowed (self.visitRecords deadline addresses records report) := by
  induction records generalizing report with
  | nil => trivial
  | cons record rest ih =>
      apply uses_bind (self.visitRecord_uses hallowed hdiscovered
        (hmember record List.mem_cons_self) report)
      intro flow
      cases flow with
      | next report' => exact ih (fun r hr => hmember r (List.mem_cons_of_mem _ hr)) report'
      | stop report' => trivial

omit [Externals] in
theorem mem_of_mem_rotated {records : List RecordConfig} {cursor : Nat}
    {record : RecordConfig} (h : record ∈ rotated records cursor) : record ∈ records := by
  unfold rotated at h
  obtain ⟨offset, -, hget⟩ := List.mem_filterMap.mp h
  exact List.mem_of_getElem? hget

theorem timeoutDiscovery_uses (hdiscovery : ∀ op, DiscoveryOp op → allowed op)
    (deadline : Instant) :
    Uses allowed (timeoutAt deadline self.discoverRequiredAddresses) :=
  uses_mono (uses_timeoutAt (fun _ => DiscoveryOp.finishBefore)
    self.discoverRequiredAddresses_uses) hdiscovery

theorem runCycleUntil_uses (hallowed : self.CycleFootprint allowed) (deadline : Instant) :
    Uses allowed (self.runCycleUntil deadline) := by
  apply uses_bind_of_runs (self.timeoutDiscovery_uses hallowed.discovery deadline)
  intro discovered trace hdiscovery
  cases discovered with
  | none => trivial
  | some addresses =>
      have hdiscovered := self.timeoutDiscovery_runs hdiscovery
      simp only [Program.pure_eq, act_eq, Program.ask_bind, Program.done_bind]
      split
      · trivial
      · refine ⟨hallowed.fetchAddCursor, fun cursor => ?_⟩
        exact self.visitRecords_uses hallowed hdiscovered
          (fun _ => mem_of_mem_rotated) _

theorem runCycleLocked_uses (hallowed : self.CycleFootprint allowed) :
    Uses allowed self.runCycleLocked :=
  ⟨hallowed.discovery _ trivial, fun _ => self.runCycleUntil_uses hallowed _⟩

end

theorem publishFootprint : self.CycleFootprint (PublishOp self.config) where
  discovery := fun _ => .of_discovery
  lookup := fun _ => .of_lookup
  stopRequested := trivial
  fetchAddCursor := trivial
  execute := fun {record address _ _} hpublished hplans =>
    self.executeRecordPlan_uses hplans (fun _ => trivial) (fun _ => trivial)
      (fun _ _ => ⟨⟨record, address, hpublished⟩, trivial⟩)
      (fun _ => ⟨⟨record, address, hpublished⟩, trivial⟩)

theorem probelessFootprint : self.CycleFootprint ProbelessOp where
  discovery := fun _ => .of_discovery
  lookup := fun _ => .of_lookup
  stopRequested := trivial
  fetchAddCursor := trivial
  execute := fun _ hplans => self.executeRecordPlan_uses hplans (fun _ => trivial)
    (fun _ => trivial) (fun _ _ => ⟨trivial, trivial⟩) (fun _ => ⟨trivial, trivial⟩)

/-- A cycle with its lock uses what its parts use. -/
theorem runCycle_uses {allowed : Op → Prop} (hfootprint : self.CycleFootprint allowed)
    (hcursor : allowed (.act .newControl)) (hlock : ∀ op, LockOp op → allowed op) :
    Uses allowed self.runCycle := by
  refine ⟨hcursor, fun _ => ?_⟩
  apply uses_bind (uses_mono (acquire_uses self.runtimeLock) hlock)
  intro acquired
  cases acquired with
  | error error => trivial
  | ok lock =>
      apply uses_bind (self.runCycleLocked_uses hfootprint)
      · intro report
        exact uses_bind (uses_mono (drop_uses lock) hlock) fun _ => trivial

theorem runCycle_publishes : Uses (PublishOp self.config) self.runCycle :=
  self.runCycle_uses self.publishFootprint trivial fun _ => .of_lock

theorem runCycle_probeless : Uses ProbelessOp self.runCycle :=
  self.runCycle_uses self.probelessFootprint trivial fun _ => .of_lock

theorem handleExistingCheckRecord_publishes (record : RecordConfig) (zoneId : String)
    (existing : DnsRecord) (options : CheckOptions) (state : CheckState) :
    Uses (PublishOp self.config)
      (self.handleExistingCheckRecord record zoneId existing options state) := by
  unfold handleExistingCheckRecord
  simp only
  split
  · trivial
  · apply uses_bind (self.mutationCanFinishBefore_uses trivial _)
    intro fits
    split
    · trivial
    · unfold probeEditPermission
      rw [Program.bind_assoc]
      apply uses_bind (uses_guarded (fun _ => trivial)
        (self.cloudflare.probeRecordEdit_uses (fun _ => trivial) (fun _ => trivial) trivial))
      intro result
      cases result <;> trivial

/-- What a check does about a missing record publishes only the payload that the record and a
discovered address make; a probe of a record that has appeared publishes nothing. -/
theorem handleMissingCheckRecord_publishes {record : RecordConfig} (zoneId : String)
    {addresses : DiscoveredAddresses} (hdiscovered : Discovered self.config addresses)
    (hmember : record ∈ self.config.records) (options : CheckOptions)
    (state : CheckState) :
    Uses (PublishOp self.config)
      (self.handleMissingCheckRecord record zoneId addresses options state) := by
  unfold handleMissingCheckRecord
  split
  · trivial
  split
  · trivial
  cases haddress : addresses.forRecord record with
  | error message => trivial
  | ok address =>
      have hpublished := forRecord_ok hdiscovered hmember haddress
      apply uses_bind (self.mutationCanFinishBefore_uses trivial _)
      intro fits
      split
      · trivial
      · apply uses_bind (uses_timeoutAt (fun _ _ => trivial)
          (uses_mono (self.cloudflare.findRecord_uses _ _ _) fun _ => .of_lookup))
        intro found
        match found with
        | none => trivial
        | some (.error error) => trivial
        | some (.ok (some existing)) =>
            exact self.handleExistingCheckRecord_publishes record zoneId existing _ _
        | some (.ok none) =>
            apply uses_bind (self.mutationCanFinishBefore_uses trivial _)
            intro fits
            split
            · trivial
            · apply uses_bind (uses_guarded (fun _ => trivial)
                (self.cloudflare.createRecord_uses ⟨record, address, hpublished⟩
                  trivial trivial))
              intro result
              cases result <;> trivial

theorem checkRecord_publishes {addresses : DiscoveredAddresses}
    (hdiscovered : Discovered self.config addresses) (options : CheckOptions)
    {record : RecordConfig} (hmember : record ∈ self.config.records)
    (state : CheckState) :
    Uses (PublishOp self.config) (self.checkRecord addresses options record state) := by
  apply uses_bind (self.inspectCheckRecord_uses (fun _ => .of_lookup) _ _ _)
  rintro ⟨inspected, proofs⟩
  match inspected with
  | .error .deadline => trivial
  | .error (.cloudflare stage error) => trivial
  | .ok (zoneId, some existing) =>
      exact self.handleExistingCheckRecord_publishes record zoneId existing _ _
  | .ok (zoneId, none) =>
      exact self.handleMissingCheckRecord_publishes zoneId hdiscovered hmember _ _

theorem checkRecords_publishes {addresses : DiscoveredAddresses}
    (hdiscovered : Discovered self.config addresses) (options : CheckOptions)
    {records : List RecordConfig}
    (hmember : ∀ record ∈ records, record ∈ self.config.records) (state : CheckState) :
    Uses (PublishOp self.config)
      (self.checkRecords addresses options records state) := by
  induction records generalizing state with
  | nil => trivial
  | cons record rest ih =>
      apply uses_bind (self.checkRecord_publishes hdiscovered options
        (hmember record List.mem_cons_self) state)
      intro flow
      cases flow with
      | next state' => exact ih (fun r hr => hmember r (List.mem_cons_of_mem _ hr)) state'
      | stop state' => trivial

theorem checkAddressesAndRecords_publishes (allowCreate allowEditProbe : Bool)
    (deadline : Instant) (proofs : ZoneProofs) (report : CheckReport) :
    Uses (PublishOp self.config) (self.checkAddressesAndRecords allowCreate allowEditProbe
      deadline proofs report) := by
  apply uses_bind_of_runs (self.timeoutDiscovery_uses (fun _ => .of_discovery) deadline)
  intro discovered trace hdiscovery
  cases discovered with
  | none => trivial
  | some addresses =>
      have hdiscovered := self.timeoutDiscovery_runs hdiscovery
      simp only [act_eq, Program.ask_bind, Program.done_bind, uses_ask]
      refine ⟨trivial, fun _ => ?_⟩
      exact uses_bind (self.checkRecords_publishes hdiscovered _ (fun _ h => h) _)
        fun _ => trivial

theorem checkUntil_publishes (allowCreate allowEditProbe : Bool) (deadline : Instant) :
    Uses (PublishOp self.config)
      (self.checkUntil allowCreate allowEditProbe deadline) := by
  apply uses_bind (uses_timeoutAt (fun _ _ => trivial)
    (uses_mono self.cloudflare.verifyToken_uses fun _ => .of_lookup))
  intro verified
  match verified with
  | none => trivial
  | some (.ok ()) => exact self.checkAddressesAndRecords_publishes _ _ _ _ _
  | some (.error error) =>
      simp only
      split
      · trivial
      · exact self.checkAddressesAndRecords_publishes _ _ _ _ _

theorem check_publishes (allowCreate allowEditProbe : Bool) :
    Uses (PublishOp self.config) (self.check allowCreate allowEditProbe) := by
  unfold check
  split
  · apply uses_bind (uses_mono (acquire_uses self.runtimeLock) fun _ => .of_lock)
    intro acquired
    cases acquired with
    | error error => trivial
    | ok lock =>
        refine ⟨trivial, fun now => ?_⟩
        apply uses_bind (self.checkUntil_publishes _ _ _)
        intro report
        exact uses_bind (uses_mono (drop_uses lock) fun _ => .of_lock) fun _ => trivial
  · exact ⟨trivial, fun now => self.checkUntil_publishes _ _ _⟩

end Updater

/-- The record type of a payload and the family of its address go together. -/
theorem Published.family_of_type {config : Config} {payload : RecordPayload}
    {record : RecordConfig} {address : IpAddr}
    (h : Published config payload record address) :
    (payload.recordType = "A" → ∃ value, address = .v4 value) ∧
      (payload.recordType = "AAAA" → ∃ value, address = .v6 value) := by
  have hfamily := h.family
  have htype : payload.recordType = record.recordType.asStr := by
    rw [h.payload_eq]
    rfl
  rw [htype]
  cases hrecord : record.recordType with
  | a =>
      rw [hrecord] at hfamily
      cases address with
      | v4 value => exact ⟨fun _ => ⟨value, rfl⟩, fun h => absurd h (by decide)⟩
      | v6 value => cases hfamily
  | aaaa =>
      rw [hrecord] at hfamily
      cases address with
      | v4 value => cases hfamily
      | v6 value => exact ⟨fun h => absurd h (by decide), fun _ => ⟨value, rfl⟩⟩

/-- Only public addresses of the right family are ever published: whatever the
providers and the API answer, each payload sent in a cycle or a check, finished
or not, has the type, name, TTL and proxy flag of one configured record and as
its content the text of a public address of that type's family. In a cycle each
mutation sends such a payload; a check may also probe. -/
theorem published_addresses_public (self : Updater) (allowCreate allowEditProbe : Bool)
    {trace : List Step}
    (hreach : (∃ rest, Reaches self.runCycle trace rest) ∨
      ∃ rest, Reaches (self.check allowCreate allowEditProbe) trace rest) :
    (∀ step ∈ trace, ∀ payload, publishes step = some payload →
      ∃ record ∈ self.config.records, ∃ address,
        payload.content = formatIpAddr address ∧ isPublicAddress address = true ∧
        (payload.recordType = "A" → ∃ value, address = .v4 value) ∧
        (payload.recordType = "AAAA" → ∃ value, address = .v6 value) ∧
        payload.recordType = record.recordType.asStr ∧ payload.name = record.name ∧
        payload.ttl = record.ttl ∧ payload.proxied = record.proxied) ∧
    ((∃ rest, Reaches self.runCycle trace rest) → ∀ step ∈ trace, ∀ request,
      sent step = some request → request.isMutation = true →
      (publishes step).isSome = true) := by
  refine ⟨fun step hstep payload hpayload => ?_, ?_⟩
  · have hop : PublishOp self.config step.op := by
      rcases hreach with ⟨rest, hreach⟩ | ⟨rest, hreach⟩
      · exact uses_reaches self.runCycle_publishes hreach step hstep
      · exact uses_reaches (self.check_publishes allowCreate allowEditProbe) hreach step hstep
    obtain ⟨record, address, hpublished⟩ := hop.of_publishes hpayload
    have hfamily := hpublished.family_of_type
    refine ⟨record, hpublished.configured, address, ?_, hpublished.isPublic, hfamily.1,
      hfamily.2, ?_⟩
    · rw [hpublished.payload_eq]
      rfl
    · rw [hpublished.payload_eq]
      exact ⟨rfl, rfl, rfl, rfl⟩
  · rintro ⟨rest, hcycle⟩ step hstep request hsent hmutation
    have hop : ProbelessOp step.op := uses_reaches self.runCycle_probeless hcycle step hstep
    exact hop.publishes hsent hmutation

end

section

attribute [local instance] exampleExternals

/-- The cycle that creates the example record sends its payload. -/
theorem published_addresses_public_creation :
    ∃ record ∈ exampleConfig.records, ∃ address,
      (recordPayload exampleRecord exampleAddress).content = formatIpAddr address ∧
      isPublicAddress address = true ∧
      ((recordPayload exampleRecord exampleAddress).recordType = "A" →
        ∃ value, address = .v4 value) := by
  have hsent : (creationScenario.trace exampleUpdater.runCycle).filterMap publishes =
      [recordPayload exampleRecord exampleAddress] := by decide +kernel
  have hmember : recordPayload exampleRecord exampleAddress ∈
      (creationScenario.trace exampleUpdater.runCycle).filterMap publishes := by
    rw [hsent]
    exact List.mem_singleton_self _
  obtain ⟨step, hstep, hpayload⟩ := List.mem_filterMap.mp hmember
  have hreach := (creationScenario.runs exampleUpdater.runCycle).reaches
  obtain ⟨hpublished, -⟩ :=
    published_addresses_public exampleUpdater false false (.inl ⟨_, hreach⟩)
  obtain ⟨record, hrecord, address, hcontent, hpublic, hipv4, -⟩ :=
    hpublished step hstep _ hpayload
  exact ⟨record, hrecord, address, hcontent, hpublic, hipv4⟩

end

end Cirrusync
