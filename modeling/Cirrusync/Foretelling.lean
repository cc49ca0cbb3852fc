import Cirrusync.CheckConvergence
import Cirrusync.Idempotence

/-!
A check and the cycles after it. What a check counts on a faithful API is what a cycle
then does: it makes the records that the check has called creatable, brings those that
exist up to date, and fails on the records on which the check has failed.
-/

namespace Cirrusync

open Effect Text Sequence Service

section

variable [Externals] {X : Type}

omit [Externals] in
theorem countP_split {α : Type} {p q r : α → Bool} {l : List α}
    (h : ∀ a ∈ l, p a = (q a || r a) ∧ (q a && r a) = false) :
    l.countP p = l.countP q + l.countP r := by
  induction l with
  | nil => rfl
  | cons a rest ih =>
      obtain ⟨hsplit, hdisjoint⟩ := h a List.mem_cons_self
      rw [List.countP_cons, List.countP_cons, List.countP_cons,
        ih fun b member => h b (List.mem_cons_of_mem _ member), hsplit]
      cases hq : q a <;> cases hr : r a
      · simp
      · simp [Nat.add_assoc]
      · simp [Nat.add_right_comm]
      · simp [hq, hr] at hdisjoint

namespace ZoneProofs

/-- These zones are resolved, to proved ids, and no others are resolved. -/
structure Covers (zones : List ConfiguredZone) (proofs : ZoneProofs) : Prop where
  keys : (proofs.resolved.map Prod.fst).Nodup
  resolved_iff : ∀ zone, zone ∈ proofs.resolved.map Prod.fst ↔ zone ∈ zones
  proven : ∀ entry ∈ proofs.resolved, entry.2 ∈ proofs.provenIds

omit [Externals] in
theorem covers_start (config : Config) : Covers [] (forConfig config) where
  keys := List.nodup_nil
  resolved_iff := fun _ => Iff.rfl
  proven := fun _ member => absurd member List.not_mem_nil

omit [Externals] in
/-- Proofs that cover some zones cover the zone of one more record when its id has been noted and
marked as proven. -/
theorem Covers.account {zones : List ConfiguredZone} {proofs : ZoneProofs}
    (h : Covers zones proofs) (record : RecordConfig) (zoneId : String) :
    Covers (zones ++ [ConfiguredZone.forRecord record]) (proofs.account record zoneId true) := by
  have hresolved : (proofs.account record zoneId true).resolved =
      proofs.resolved.filter (fun entry => entry.1 != ConfiguredZone.forRecord record) ++
        [(ConfiguredZone.forRecord record, zoneId)] := rfl
  have hproven : (proofs.account record zoneId true).provenIds =
      proofs.provenIds.insert zoneId := rfl
  refine ⟨?_, fun zone => ?_, fun entry member => ?_⟩
  · rw [hresolved, List.map_append, List.nodup_append]
    refine ⟨(List.filter_sublist.map Prod.fst).nodup h.keys, List.nodup_singleton _, ?_⟩
    rintro key member other hother rfl
    obtain ⟨entry, hentry, rfl⟩ := List.mem_map.mp member
    have hne := (List.mem_filter.mp hentry).2
    rw [List.mem_singleton.mp hother] at hne
    simp at hne
  · rw [hresolved, List.map_append, List.mem_append, List.mem_append, ← h.resolved_iff zone]
    by_cases hzone : zone = ConfiguredZone.forRecord record
    · simp [hzone]
    · simp only [List.map_cons, List.map_nil, List.mem_singleton, hzone, or_false, List.mem_map,
        List.mem_filter, bne_iff_ne]
      constructor
      · rintro ⟨entry, ⟨hentry, -⟩, rfl⟩
        exact ⟨entry, hentry, rfl⟩
      · rintro ⟨entry, hentry, rfl⟩
        exact ⟨entry, ⟨hentry, hzone⟩, rfl⟩
  · rw [hproven, List.mem_insert_iff]
    rw [hresolved] at member
    rcases List.mem_append.mp member with member | member
    · exact .inr (h.proven entry (List.mem_filter.mp member).1)
    · rw [List.mem_singleton.mp member]
      exact .inl rfl

omit [Externals] in
/-- Where each record proves its zone, the zones of all records are proved. -/
theorem Accounted.covers {proves : RecordConfig → Bool} {start proofs : ZoneProofs}
    {records : List RecordConfig} (h : start.Accounted proves records proofs)
    (hstart : Covers [] start) (hproves : ∀ record ∈ records, proves record = true) :
    Covers (records.map ConfiguredZone.forRecord) proofs := by
  induction h with
  | start => exact hstart
  | record record zoneId _ ih =>
      rw [hproves record (List.mem_append_right _ (List.mem_singleton_self _)), List.map_append]
      exact (ih fun other member => hproves other (List.mem_append_left _ member)).account
        record zoneId

omit [Externals] in
theorem Accounted.expected_eq {proves : RecordConfig → Bool} {start proofs : ZoneProofs}
    {records : List RecordConfig} (h : start.Accounted proves records proofs) :
    proofs.expected = start.expected := by
  induction h with
  | start => rfl
  | @record _ proofs' record zoneId _ ih =>
      rw [← ih]
      unfold account
      cases proves record <;> rfl

omit [Externals] in
theorem Covers.complete {records : List RecordConfig} {proofs : ZoneProofs}
    (h : Covers (records.map ConfiguredZone.forRecord) proofs)
    (hexpected : proofs.expected = (records.map ConfiguredZone.forRecord).dedup) :
    proofs.isComplete = true ∧ proofs.unverifiedTargets = [] := by
  have hmember : ∀ zone, zone ∈ proofs.expected ↔ zone ∈ proofs.resolved.map Prod.fst := by
    intro zone
    rw [hexpected, List.mem_dedup, h.resolved_iff]
  have hlength : proofs.resolved.length = proofs.expected.length := by
    rw [← List.length_map Prod.fst]
    refine (length_eq_iff_subset h.keys ?_ fun zone member => (hmember zone).mpr member).mpr
      fun zone member => (hmember zone).mp member
    rw [hexpected]
    exact List.nodup_dedup _
  constructor
  · unfold isComplete
    rw [hlength, beq_self_eq_true, Bool.true_and, List.all_eq_true]
    intro zoneId member
    obtain ⟨entry, hentry, rfl⟩ := List.mem_map.mp member
    exact List.contains_iff_mem.mpr (h.proven entry hentry)
  · unfold unverifiedTargets
    rw [List.map_eq_nil_iff, foldl_collectTargets_nil]
    refine ⟨rfl, fun zone member => ?_⟩
    obtain ⟨⟨key, zoneId⟩, hentry, rfl⟩ := List.mem_map.mp ((hmember zone).mp member)
    exact ⟨zoneId, lookup_of_mem h.keys hentry, h.proven _ hentry⟩

end ZoneProofs

section

variable {store : Store X} {addresses : DiscoveredAddresses} {records : List RecordConfig}
  {allowCreate : Bool}

/-- What a report says of a check that found this store. -/
structure CheckReported (allowCreate : Bool) (store : Store X) (records : List RecordConfig)
    (report : CheckReport) : Prop where
  records_eq : report.records = records.length
  authenticated : report.authenticated = true
  existing_eq : report.existing = records.countP fun record => (store.stored record).isSome
  created_eq : report.created = records.countP fun record =>
    (store.stored record).isNone && requested allowCreate record
  creatable_eq : report.creatable = records.countP fun record =>
    (store.stored record).isNone && (!allowCreate && record.createIfMissing)
  failures_eq : ∃ unproven, report.failures =
    (records.filter fun record => !store.manages record).map absentFailure ++ unproven ∧
      ∀ failure ∈ unproven, failure.stage = .editPermission

omit [Externals] in
/-- The counters of a check once all records are in its report. -/
theorem checkAccount_foldl (allowCreate : Bool) (store : Store X) (records : List RecordConfig)
    (report : CheckReport) :
    let final := records.foldl (CheckReport.account allowCreate store) report
    final.records = report.records ∧ final.authenticated = report.authenticated ∧
      final.existing =
        report.existing + records.countP (fun record => (store.stored record).isSome) ∧
      final.created = report.created + records.countP (fun record =>
        (store.stored record).isNone && requested allowCreate record) ∧
      final.creatable = report.creatable + records.countP (fun record =>
        (store.stored record).isNone && (!allowCreate && record.createIfMissing)) ∧
      final.failures = report.failures ++
        (records.filter fun record => !store.manages record).map absentFailure := by
  induction records generalizing report with
  | nil => simp
  | cons record rest ih =>
      obtain ⟨hrecords, hauthenticated, hexisting, hcreated, hcreatable, hfailures⟩ :=
        ih (report.account allowCreate store record)
      simp only [List.foldl_cons]
      rw [hrecords, hauthenticated, hexisting, hcreated, hcreatable, hfailures]
      simp only [List.countP_cons, List.filter_cons, Store.manages, requested,
        CheckReport.account]
      cases hstored : store.stored record with
      | some entry => simp [Nat.add_assoc, Nat.add_comm]
      | none =>
          cases hcreate : record.createIfMissing <;> cases allowCreate <;>
            simp [CheckReport.push, Nat.add_assoc, Nat.add_comm]

theorem outcome_cases (store : Store X) {record : RecordConfig} {address : IpAddr}
    (haddress : addresses.forRecord record = .ok address) :
    (∃ entry, store.stored record = some entry ∧
        (store.outcome addresses record = some .unchanged ∨
          store.outcome addresses record = some .updated)) ∨
      store.stored record = none ∧ store.outcome addresses record =
        if record.createIfMissing then some .created else none := by
  unfold Store.outcome
  rw [haddress]
  cases hstored : store.stored record with
  | none => exact .inr ⟨rfl, rfl⟩
  | some entry =>
      refine .inl ⟨entry, rfl, ?_⟩
      by_cases hcurrent : isUpToDate record address entry.record = true <;> simp [hcurrent]

/-- How a cycle counts, by what is stored. -/
theorem countP_outcome (store : Store X) (haddressed : Addressed records addresses) :
    records.countP (fun record => (store.stored record).isSome) =
        records.countP (fun record => store.outcome addresses record == some .updated) +
          records.countP (fun record => store.outcome addresses record == some .unchanged) ∧
      records.countP (fun record => store.outcome addresses record == some .created) =
        records.countP fun record => (store.stored record).isNone && record.createIfMissing := by
  constructor
  · refine countP_split fun record member => ?_
    obtain ⟨address, haddress, -⟩ := haddressed record member
    rcases outcome_cases store haddress with
      ⟨entry, hstored, houtcome | houtcome⟩ | ⟨hstored, houtcome⟩
    · simp [hstored, houtcome]
    · simp [hstored, houtcome]
    · cases hcreate : record.createIfMissing <;> simp [hstored, houtcome, hcreate]
  · refine List.countP_congr fun record member => ?_
    obtain ⟨address, haddress, -⟩ := haddressed record member
    rcases outcome_cases store haddress with
      ⟨entry, hstored, houtcome | houtcome⟩ | ⟨hstored, houtcome⟩
    · simp [hstored, houtcome]
    · simp [hstored, houtcome]
    · cases hcreate : record.createIfMissing <;> simp [hstored, houtcome, hcreate]

end

/-- A call of `check` that gets the lock if it needs it, in its parts. -/
structure Updater.LockedCheck (updater : Updater) (allowCreate allowEditProbe : Bool) where
  acquisition : List Step
  guard : RuntimeLockGuard
  started : Instant
  checking : List Step
  report : CheckReport
  release : List Step
  locks : if allowCreate || allowEditProbe then
    Runs updater.runtimeLock.acquire acquisition (.ok guard) ∧ Runs guard.drop release ()
    else acquisition = [] ∧ release = []
  runs_checking : Runs (updater.checkUntil allowCreate allowEditProbe (started + checkTimeout))
    checking report

namespace Updater

variable {self : Updater} {allowCreate allowEditProbe : Bool}

def LockedCheck.trace (call : self.LockedCheck allowCreate allowEditProbe) : List Step :=
  call.acquisition ++ ⟨.act .now, call.started⟩ :: (call.checking ++ call.release)

theorem LockedCheck.runs (call : self.LockedCheck allowCreate allowEditProbe) :
    Runs (self.check allowCreate allowEditProbe) call.trace call.report := by
  have hlocks := call.locks
  unfold check LockedCheck.trace
  split
  · rename_i hflags
    rw [if_pos hflags] at hlocks
    obtain ⟨hacquires, hreleases⟩ := hlocks
    refine (runs_bind_iff _ _ _ _).mpr ⟨call.acquisition, _, .ok call.guard, rfl, hacquires, ?_⟩
    simp only [act_eq, Program.ask_bind, Program.done_bind]
    refine (runs_ask_iff _ _ _ _).mpr ⟨call.started, _, rfl, (runs_bind_iff _ _ _ _).mpr
      ⟨call.checking, _, call.report, rfl, call.runs_checking, (runs_bind_iff _ _ _ _).mpr
        ⟨call.release, [], (), by simp, hreleases, .done _⟩⟩⟩
  · rename_i hflags
    rw [if_neg hflags] at hlocks
    obtain ⟨hacquisition, hrelease⟩ := hlocks
    rw [hacquisition, hrelease, List.nil_append, List.append_nil]
    simp only [act_eq, Program.ask_bind, Program.done_bind]
    exact (runs_ask_iff _ _ _ _).mpr ⟨call.started, _, rfl, call.runs_checking⟩

/-- A call of `check` gets its lock, or fails for want of it. -/
theorem check_locked {trace : List Step} {report : CheckReport}
    (hrun : Runs (self.check allowCreate allowEditProbe) trace report) :
    (∃ call : self.LockedCheck allowCreate allowEditProbe,
        call.trace = trace ∧ call.report = report) ∨
      ∃ error, report = CheckReport.push { records := self.config.records.length }
        (coordinationFailure error) := by
  unfold check at hrun
  split at hrun
  · rename_i hflags
    obtain ⟨acquisition, _, acquired, rfl, hacquire, hgoes⟩ := (runs_bind_iff _ _ _ _).mp hrun
    cases acquired with
    | error error =>
        cases hgoes
        exact .inr ⟨error, rfl⟩
    | ok guard =>
        simp only [act_eq, Program.ask_bind, Program.done_bind] at hgoes
        obtain ⟨started, _, rfl, hbody⟩ := (runs_ask_iff _ _ _ _).mp hgoes
        obtain ⟨checking, _, report', rfl, hchecking, hclose⟩ := (runs_bind_iff _ _ _ _).mp hbody
        obtain ⟨release, _, ⟨⟩, rfl, hdrop, hend⟩ := (runs_bind_iff _ _ _ _).mp hclose
        obtain ⟨rfl, rfl⟩ := (runs_done_iff _ _ _).mp hend
        refine .inl ⟨{
          acquisition := acquisition
          guard := guard
          started := started
          checking := checking
          report := report
          release := release
          locks := by rw [if_pos hflags]; exact ⟨hacquire, hdrop⟩
          runs_checking := hchecking
        }, ?_, rfl⟩
        simp [LockedCheck.trace]
  · rename_i hflags
    simp only [act_eq, Program.ask_bind, Program.done_bind] at hrun
    obtain ⟨started, checking, rfl, hchecking⟩ := (runs_ask_iff _ _ _ _).mp hrun
    refine .inl ⟨{
      acquisition := []
      guard := ⟨[]⟩
      started := started
      checking := checking
      report := report
      release := []
      locks := by rw [if_neg hflags]; exact ⟨rfl, rfl⟩
      runs_checking := hchecking
    }, ?_, rfl⟩
    simp [LockedCheck.trace]

end Updater

/-- The discovery of a check finds the addresses. -/
def Updater.LockedCheck.Discovers {self : Updater} {allowCreate allowEditProbe : Bool}
    (call : self.LockedCheck allowCreate allowEditProbe) (addresses : DiscoveredAddresses) : Prop :=
  ∃ verification discovery rest verified, call.checking = verification ++ (discovery ++ rest) ∧
    Runs (timeoutAt (call.started + checkTimeout) self.cloudflare.verifyToken) verification
      verified ∧
    Runs (timeoutAt (call.started + checkTimeout) self.discoverRequiredAddresses) discovery
      (some addresses)

/-- A call of `check` on a faithful API that has time for its last mutation, and whose
discovery finds the addresses. -/
structure Updater.FaithfulCheck (updater : Updater) (allowCreate allowEditProbe : Bool)
    (server : ApiServer X) (addresses : DiscoveredAddresses) (s : Service X) extends
    updater.LockedCheck allowCreate allowEditProbe where
  limit : Instant
  early : limit + (updater.cloudflare.requestTimeout + mutationStartMargin) ≤
    started + checkTimeout
  served : s.Serves server updater.cloudflare.apiToken limit toLockedCheck.trace
  found : toLockedCheck.Discovers addresses

namespace Updater

variable {self : Updater} {allowCreate allowEditProbe : Bool} {server : ApiServer X}
  {addresses : DiscoveredAddresses} {s : Service X}

/-- The service after a check. -/
def FaithfulCheck.after
    (call : self.FaithfulCheck allowCreate allowEditProbe server addresses s) : Service X :=
  s.after server self.cloudflare.apiToken call.trace

/-- The lock around a check is of no concern to the API. -/
theorem FaithfulCheck.around
    (call : self.FaithfulCheck allowCreate allowEditProbe server addresses s) :
    s.Serves server self.cloudflare.apiToken call.limit call.checking ∧
      call.after = s.after server self.cloudflare.apiToken call.checking := by
  have hlocks := call.locks
  have hready : s.after server self.cloudflare.apiToken call.acquisition = s ∧
      ∀ s' : Service X, s'.Serves server self.cloudflare.apiToken call.limit call.release →
        s'.after server self.cloudflare.apiToken call.release = s' := by
    have hacquisition := (coherentFrom_append.mp call.served).1
    split at hlocks
    · obtain ⟨hacquires, hreleases⟩ := hlocks
      exact ⟨locking_unchanged (acquire_uses self.runtimeLock) hacquires hacquisition,
        fun s' hserves => locking_unchanged (drop_uses call.guard) hreleases hserves⟩
    · obtain ⟨hacquisition, hrelease⟩ := hlocks
      rw [hacquisition, hrelease]
      exact ⟨rfl, fun _ _ => rfl⟩
  obtain ⟨hacquired, hreleased⟩ := hready
  have hrest := (coherentFrom_append.mp call.served).2
  unfold Service.after at hacquired
  rw [hacquired] at hrest
  obtain ⟨-, hbody⟩ := hrest
  have hstarted : s.next server self.cloudflare.apiToken ⟨.act .now, call.started⟩ = s :=
    next_steady rfl rfl
  rw [hstarted] at hbody
  obtain ⟨hchecking, hrelease⟩ := coherentFrom_append.mp hbody
  refine ⟨hchecking, ?_⟩
  unfold FaithfulCheck.after Service.after LockedCheck.trace
  rw [List.foldl_append, hacquired, List.foldl_cons, hstarted, List.foldl_append]
  exact hreleased _ hrelease

/-- The loop of a check, which finds the service as the check found it. -/
theorem FaithfulCheck.records_served
    (call : self.FaithfulCheck allowCreate allowEditProbe server addresses s)
    (haddressed : Addressed self.config.records addresses) :
    ∃ before records state, call.checking = before ++ records ∧
      s.after server self.cloudflare.apiToken before = s ∧
      s.Serves server self.cloudflare.apiToken call.limit records ∧
      Runs (self.checkRecords addresses
        ⟨allowCreate, allowEditProbe, call.started + checkTimeout⟩ self.config.records
        { proofs := ZoneProofs.forConfig self.config
          report := { self.initialCheckReport with authenticated := true } }) records state ∧
      call.report = finalizeCheckReport state.report state.proofs allowEditProbe := by
  obtain ⟨verification, discovery, rest, verified, hsplit, hverifies, hfound⟩ := call.found
  obtain ⟨hserves, -⟩ := call.around
  rw [hsplit] at hserves
  obtain ⟨hverification, hlater⟩ := coherentFrom_append.mp hserves
  have hverify : Holds (contract server self.cloudflare.apiToken call.limit False) _
      (timeoutAt (call.started + checkTimeout) self.cloudflare.verifyToken) s :=
    holds_met self.cloudflare.verifyToken_active
  obtain ⟨_, hverified, hsame, rfl⟩ := track_run hverify hverifies hverification
  rw [hsame] at hlater
  obtain ⟨hdiscovery, hrest⟩ := coherentFrom_append.mp hlater
  have hdiscover : Holds (contract server self.cloudflare.apiToken call.limit False)
      (fun _ s' => s' = s)
      (timeoutAt (call.started + checkTimeout) self.discoverRequiredAddresses) s :=
    self.discovery_unchanged
  have hkept := track_run hdiscover hfound hdiscovery
  rw [hkept] at hrest
  have hrun := call.runs_checking
  unfold checkUntil at hrun
  obtain ⟨first, _, _, hfirstSplit, hfirst, hgoes⟩ := (runs_bind_iff _ _ _ _).mp hrun
  obtain ⟨rfl, hvalue, rfl⟩ := runs_unique hverifies hfirst (hsplit.symm.trans hfirstSplit)
  rw [← hvalue, hverified] at hgoes
  unfold checkAddressesAndRecords at hgoes
  obtain ⟨second, _, _, hsecondSplit, hsecond, hloop⟩ := (runs_bind_iff _ _ _ _).mp hgoes
  obtain ⟨rfl, rfl, rfl⟩ := runs_unique hfound hsecond hsecondSplit
  have hclean := discoveryFailures_eq_nil (self.timeoutDiscovery_runs hfound) haddressed
  simp only [act_eq, Program.ask_bind, Program.done_bind, hclean, List.append_nil] at hloop
  obtain ⟨⟨⟩, _, hcontrol, hbody⟩ := (runs_ask_iff _ _ _ _).mp hloop
  obtain ⟨records, _, state, rfl, hrecords, hend⟩ := (runs_bind_iff _ _ _ _).mp hbody
  obtain ⟨rfl, hreport⟩ := (runs_done_iff _ _ _).mp hend
  rw [List.append_nil] at hcontrol
  refine ⟨verification ++ (discovery ++ [⟨.act .newControl, ()⟩]), records, state, ?_, ?_, ?_,
    hrecords, hreport⟩
  · rw [hsplit, hcontrol]
    simp
  · unfold Service.after
    rw [List.foldl_append, hsame, List.foldl_append, hkept]
    change s.next server self.cloudflare.apiToken ⟨.act .newControl, ()⟩ = s
    exact next_steady rfl rfl
  · rw [hcontrol] at hrest
    have hready : s.next server self.cloudflare.apiToken ⟨.act .newControl, ()⟩ = s :=
      next_steady rfl rfl
    have hbody := hrest.2
    rw [hready] at hbody
    exact hbody

end Updater

omit [Externals] in
theorem foldl_push_eq (failureOf : String → CycleFailure) (targets : List String)
    (report : CheckReport) :
    targets.foldl (fun report target => report.push (failureOf target)) report =
      { report with failures := report.failures ++ targets.map failureOf } := by
  induction targets generalizing report with
  | nil => simp
  | cons target rest ih =>
      rw [List.foldl_cons, ih]
      simp [CheckReport.push]

omit [Externals] in
theorem finalizeCheckReport_eq (report : CheckReport) (proofs : ZoneProofs)
    (editProbeRequested : Bool) : ∃ message,
    finalizeCheckReport report proofs editProbeRequested =
      { summarizeCheckProofs report proofs with
        failures := report.failures ++
          proofs.unverifiedTargets.map (permanentFailure · .editPermission message) } :=
  ⟨_, foldl_push_eq _ _ _⟩

namespace Updater

variable {self : Updater} {allowCreate allowEditProbe : Bool} {server : ApiServer X}
  {addresses : DiscoveredAddresses} {s : Service X}

/-- What a check on a faithful API reports, and leaves behind. -/
theorem FaithfulCheck.converges (hdistinct : DistinctRecords self.config.records)
    (hs : s.Sound) (hresolvable : Resolvable self.config.records s.store)
    (haddressed : Addressed self.config.records addresses)
    (check : self.FaithfulCheck allowCreate allowEditProbe server addresses s) :
    CheckReported allowCreate s.store self.config.records check.report ∧
      ((∀ record ∈ self.config.records, s.store.proves allowCreate allowEditProbe record = true) →
        check.report.isSuccess = true) ∧
      Converged (fun _ entry => entry) (StoredRecord.MadeFor addresses)
        (self.config.records.filter (requested allowCreate)) s.store check.after.store ∧
      check.after.Sound := by
  obtain ⟨before, records, state, hchecking, hbefore, hserves, hrun, hreport⟩ :=
    check.records_served haddressed
  have hloop : Holds (contract server self.cloudflare.apiToken check.limit True) _ _ s :=
    self.checkRecords_all allowCreate allowEditProbe check.early (fun _ => trivial) hdistinct
      hresolvable haddressed hs
      { proofs := ZoneProofs.forConfig self.config
        report := { self.initialCheckReport with authenticated := true } }
  obtain ⟨hconverged, hsound, hfinal, haccounted⟩ := track_run hloop hrun hserves
  obtain ⟨-, hafter⟩ := check.around
  have hlast : check.after = records.foldl (next server self.cloudflare.apiToken) s := by
    unfold Service.after at hbefore hafter
    rw [hafter, hchecking, List.foldl_append, hbefore]
  obtain ⟨hrecords, hauthenticated, hexisting, hcreated, hcreatable, hfailures⟩ :=
    checkAccount_foldl allowCreate s.store self.config.records
      { self.initialCheckReport with authenticated := true }
  rw [← hfinal] at hrecords hauthenticated hexisting hcreated hcreatable hfailures
  obtain ⟨message, hfinalized⟩ :=
    finalizeCheckReport_eq state.report state.proofs allowEditProbe
  rw [hfinalized] at hreport
  rw [hlast]
  refine ⟨?_, fun hproves => ?_, hconverged, hsound⟩
  · rw [hreport]
    refine ⟨hrecords, hauthenticated, hexisting.trans (Nat.zero_add _),
      hcreated.trans (Nat.zero_add _), hcreatable.trans (Nat.zero_add _),
      state.proofs.unverifiedTargets.map (permanentFailure · .editPermission message),
      congrArg (· ++ _) hfailures, ?_⟩
    intro failure member
    obtain ⟨target, -, rfl⟩ := List.mem_map.mp member
    rfl
  · obtain ⟨hcomplete, hverified⟩ := (haccounted.covers (ZoneProofs.covers_start self.config)
      hproves).complete haccounted.expected_eq
    have hmanaged : self.config.records.filter (fun record => !s.store.manages record) = [] := by
      rw [List.filter_eq_nil_iff]
      intro record member
      have hprove := hproves record member
      unfold Store.proves requested at hprove
      unfold Store.manages
      cases hstored : s.store.stored record with
      | some entry => simp
      | none =>
          rw [hstored] at hprove
          simp only [Option.isSome_none, Bool.false_eq_true, if_false, Bool.and_eq_true] at hprove
          simp [hprove.2]
    rw [hmanaged] at hfailures
    rw [hreport, hverified]
    unfold CheckReport.isSuccess summarizeCheckProofs
    simp only [List.map_nil, List.append_nil]
    rw [hauthenticated, hcomplete, hfailures]
    rfl

end Updater

/-- What identifies a failure, its text apart. -/
def CycleFailure.summary (failure : CycleFailure) :
    String × FailureStage × FailureKind × Option Nat :=
  (failure.target, failure.stage, failure.kind, failure.retryAfter)

/-- A check foretells the cycles after it. Every run of `check` fails for want of its lock or is
a locked check. On a faithful API whose zones are all active, with one of them for each
configured record and at most one stored record for it, a check with any flags that has time
for its last mutation reports how many records exist, how many are missing and may be made,
and which are missing for good; it makes the missing ones if it is told to and leaves every
record that was stored as it is, also when it probes it; and it succeeds if each record proves
its zone. Any later cycle, whatever addresses it finds, makes exactly the records that the
check has called creatable, leaves or updates those that exist or were made by the check, and
fails on those on which the check has failed. -/
theorem check_foretells_cycle (self : Updater) (hvalid : self.config.validate = .ok ())
    {server : ApiServer X} {addresses : DiscoveredAddresses} {s : Service X} (hs : s.Sound)
    (hresolvable : Resolvable self.config.records s.store)
    (haddressed : Addressed self.config.records addresses) {allowCreate allowEditProbe : Bool}
    (check : self.FaithfulCheck allowCreate allowEditProbe server addresses s) :
    (Runs (self.check allowCreate allowEditProbe) check.trace check.report ∧
      ∀ trace report, Runs (self.check allowCreate allowEditProbe) trace report →
        (∃ locked : self.LockedCheck allowCreate allowEditProbe,
            locked.trace = trace ∧ locked.report = report) ∨
          ∃ error, report = CheckReport.push { records := self.config.records.length }
            (coordinationFailure error)) ∧
      CheckReported allowCreate s.store self.config.records check.report ∧
      ((∀ record ∈ self.config.records, s.store.proves allowCreate allowEditProbe record = true) →
        check.report.isSuccess = true) ∧
      Converged (fun _ entry => entry) (StoredRecord.MadeFor addresses)
        (self.config.records.filter (requested allowCreate)) s.store check.after.store ∧
      check.after.Sound ∧
      ∀ (server' : ApiServer X) (addresses' : DiscoveredAddresses) (s' : Service X)
        (call : self.FaithfulCall server' addresses' s'),
        Addressed self.config.records addresses' → s'.store = check.after.store → s'.Sound →
          call.cycle.report.created = check.report.creatable ∧
          call.cycle.report.updated + call.cycle.report.unchanged =
            check.report.existing + check.report.created ∧
          (call.cycle.report.failures.map CycleFailure.summary).Perm
            ((check.report.failures.filter fun failure =>
              failure.stage == .recordLookup).map CycleFailure.summary) := by
  have hdistinct := distinctRecords_of_validate hvalid
  obtain ⟨-, -, hnonempty⟩ := Config.validate_ok hvalid
  obtain ⟨hreport, hsuccess, hconverged, hsound⟩ :=
    check.converges hdistinct hs hresolvable haddressed
  refine ⟨⟨check.runs, fun _ _ => Updater.check_locked⟩, hreport, hsuccess, hconverged, hsound, ?_⟩
  intro server' addresses' s' call haddressed' hsame hs'
  have hlawful : Lawful StoredRecord.isOf (fun _ entry => entry)
    (StoredRecord.MadeFor addresses) (E := StoredRecord X) := keeps_lawful addresses
  have hresolvable' := hconverged.resolvable hdistinct hlawful hresolvable List.filter_sublist
  have hstored : ∀ record ∈ self.config.records, (check.after.store.stored record).isSome =
      ((s.store.stored record).isSome || requested allowCreate record) := by
    intro record member
    cases hrequested : requested allowCreate record with
    | false =>
        rw [hconverged.stored_other hdistinct hlawful hresolvable List.filter_sublist member
          fun hmember => by simp [hrequested] at hmember, Bool.or_false]
    | true =>
        obtain ⟨entry, hentry, -⟩ := hconverged.stored_chosen hdistinct hlawful hresolvable
          List.filter_sublist member (List.mem_filter.mpr ⟨member, hrequested⟩)
        rw [hentry, Bool.or_true]
        rfl
  rw [← hsame] at hresolvable' hstored
  obtain ⟨hserves, -, -⟩ := call.around
  obtain ⟨hcycle, -, -⟩ := Updater.CycleRun.converges self hdistinct hnonempty hs' hresolvable'
    haddressed' call.found hserves
  obtain ⟨hexisting, hmissing⟩ := countP_outcome s'.store haddressed'
  refine ⟨?_, ?_, ?_⟩
  · calc call.cycle.report.created = _ := hcycle.counter_eq .created
      _ = _ := hmissing
      _ = _ := List.countP_congr fun record member => by
        rw [← Option.not_isSome, hstored record member]
        unfold requested
        cases (s.store.stored record) <;> cases allowCreate <;> cases record.createIfMissing <;>
          simp
      _ = check.report.creatable := hreport.creatable_eq.symm
  · calc call.cycle.report.updated + call.cycle.report.unchanged
        = _ := congrArg₂ (· + ·) (hcycle.counter_eq .updated) (hcycle.counter_eq .unchanged)
      _ = _ := hexisting.symm
      _ = _ := countP_split (q := fun record => (s.store.stored record).isSome)
        (r := fun record => (s.store.stored record).isNone && requested allowCreate record)
        fun record member => by
          rw [hstored record member]
          cases s.store.stored record <;> simp
      _ = check.report.existing + check.report.created := by
        rw [hreport.existing_eq, hreport.created_eq]
  · obtain ⟨unproven, hfailures, hstage⟩ := hreport.failures_eq
    have hunproven : unproven.filter (fun failure => failure.stage == .recordLookup) = [] := by
      rw [List.filter_eq_nil_iff]
      intro failure member
      rw [hstage failure member]
      decide
    have hlookups : ((self.config.records.filter fun record =>
        !s.store.manages record).map absentFailure).filter
          (fun failure => failure.stage == .recordLookup) =
        (self.config.records.filter fun record => !s.store.manages record).map absentFailure := by
      rw [List.filter_eq_self]
      intro failure member
      obtain ⟨record, -, rfl⟩ := List.mem_map.mp member
      rfl
    have hmanages : ∀ record ∈ self.config.records,
        (!s'.store.manages record) = !s.store.manages record := by
      intro record member
      unfold Store.manages
      rw [hstored record member]
      unfold requested
      cases s.store.stored record <;> cases allowCreate <;> cases record.createIfMissing <;> rfl
    rw [hfailures, List.filter_append, hunproven, hlookups, List.append_nil, List.map_map]
    refine (hcycle.failures_perm.map CycleFailure.summary).trans (.of_eq ?_)
    rw [List.filter_congr hmanages, List.map_map]
    rfl

/-- A check whose token is active begins with its verification and its discovery. -/
theorem execute_checkUntil (self : Updater) (respond : Strategy Ans)
    (allowCreate allowEditProbe : Bool) (deadline : Instant)
    (hverified : (execute respond [] (timeoutAt deadline self.cloudflare.verifyToken)).2 =
      some (.ok ())) :
    ∃ rest, (execute respond [] (self.checkUntil allowCreate allowEditProbe deadline)).1 =
      (execute respond [] (timeoutAt deadline self.cloudflare.verifyToken)).1 ++
        ((execute respond
          (execute respond [] (timeoutAt deadline self.cloudflare.verifyToken)).1
          (timeoutAt deadline self.discoverRequiredAddresses)).1 ++ rest) := by
  unfold Updater.checkUntil
  rw [execute_bind, hverified, List.nil_append]
  unfold Updater.checkAddressesAndRecords
  rw [execute_bind]
  exact ⟨_, rfl⟩

end

section

attribute [local instance] exampleExternals

/-- A zone without the record, and an active token: the check creates the record. -/
def checkedScenario : Scenario where
  server := fun past request =>
    match request with
    | .verifyToken _ => delivered 200 exampleVerificationBody
    | request => creationScenario.server past request
  provider := creationScenario.provider
  cached := fun past => (past.foldl (ZoneState.next "token") .start).cache

def exampleCheck : exampleUpdater.LockedCheck true true where
  acquisition := checkedScenario.trace exampleUpdater.runtimeLock.acquire
  guard := ⟨exampleLockPaths⟩
  started := 0
  checking := checkedScenario.trace (exampleUpdater.checkUntil true true (0 + checkTimeout))
  report := checkedScenario.result (exampleUpdater.checkUntil true true (0 + checkTimeout))
  release := checkedScenario.trace (RuntimeLockGuard.drop ⟨exampleLockPaths⟩)
  locks := ⟨checkedScenario.runs exampleUpdater.runtimeLock.acquire, checkedScenario.runs _⟩
  runs_checking := checkedScenario.runs _

theorem exampleCheck_discovers : exampleCheck.Discovers ⟨some (.ok exampleAddress), none⟩ := by
  have hactive : (execute checkedScenario.strategy [] (timeoutAt (0 + checkTimeout)
      exampleUpdater.cloudflare.verifyToken)).2.map Except.toOption = some (some ()) := by
    decide +kernel
  obtain ⟨verified, hverified, hok⟩ := Option.map_eq_some_iff.mp hactive
  have hfound : (execute checkedScenario.strategy
      (execute checkedScenario.strategy [] (timeoutAt (0 + checkTimeout)
        exampleUpdater.cloudflare.verifyToken)).1 (timeoutAt (0 + checkTimeout)
          exampleUpdater.discoverRequiredAddresses)).2 =
          some ⟨some (.ok exampleAddress), none⟩ := by
    decide +kernel
  cases verified with
  | error error => cases hok
  | ok value =>
      obtain ⟨rest, htrace⟩ := execute_checkUntil exampleUpdater checkedScenario.strategy true
        true (0 + checkTimeout) hverified
      refine ⟨_, _, rest, _, htrace, execute_runs _ _ _, ?_⟩
      rw [← hfound]
      exact execute_runs _ _ _

def exampleFaithfulCheck :
    exampleUpdater.FaithfulCheck true true ⟨false, fun _ => ()⟩
      ⟨some (.ok exampleAddress), none⟩ exampleService where
  toLockedCheck := exampleCheck
  limit := seconds 284
  early := by decide
  served := by decide +kernel
  found := exampleCheck_discovers

/-- The check makes the record, and the cycles after it have none to make. -/
theorem check_foretells_cycle_creation :
    exampleFaithfulCheck.report.isSuccess = true ∧ exampleFaithfulCheck.report.created = 1 ∧
      ∀ (server : ApiServer Unit) (s : Service Unit)
        (call : exampleUpdater.FaithfulCall server ⟨some (.ok exampleAddress), none⟩ s),
        s.store = exampleFaithfulCheck.after.store → s.Sound →
          call.cycle.report.created = 0 ∧
            call.cycle.report.updated + call.cycle.report.unchanged = 1 := by
  have hproves : ∀ record ∈ exampleConfig.records,
      exampleService.store.proves true true record = true := by
    simp only [exampleConfig, List.forall_mem_singleton]
    rfl
  obtain ⟨-, hreport, hsuccess, -, -, hcycle⟩ := check_foretells_cycle exampleUpdater
    exampleConfig_valid exampleService_sound exampleService_resolvable exampleConfig_addressed
    exampleFaithfulCheck
  have hcreated : exampleFaithfulCheck.report.created = 1 := hreport.created_eq
  have hcreatable : exampleFaithfulCheck.report.creatable = 0 := hreport.creatable_eq
  have hexisting : exampleFaithfulCheck.report.existing = 0 := hreport.existing_eq
  refine ⟨hsuccess hproves, hcreated, fun server s call hsame hs => ?_⟩
  obtain ⟨hnone, hrest, -⟩ := hcycle server _ s call exampleConfig_addressed hsame hs
  rw [hcreatable] at hnone
  rw [hexisting, hcreated] at hrest
  exact ⟨hnone, hrest⟩

end

end Cirrusync
