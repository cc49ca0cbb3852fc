import Cirrusync.Convergence
import Cirrusync.FaithfulRuns
import Cirrusync.Justified

/-!
A cycle on a faithful API converges. A visit of a record is one step of the
reconciliation, or none if the record is up to date; the loop takes all steps, from
whatever record it starts, and a second cycle finds nothing to do.
-/

namespace Cirrusync

open Effect Text Sequence Service

variable [Externals] {X : Type} {server : ApiServer X} {deadline : Instant} {mutates : Prop}

namespace Service

omit [Externals] in
/-- Whatever is cached stays sound while the zones stay. -/
theorem Sound.of_zones {s s' : Service X} (h : s.Sound)
    (hzones : s'.store.zones = s.store.zones) (hcache : s'.cache = s.cache) : s'.Sound := by
  intro key zoneId hcached
  rw [hcache] at hcached
  have hnames : s'.store.Names = s.store.Names := by
    funext zoneName id
    unfold Store.Names
    rw [hzones]
  rw [hnames]
  exact h key zoneId hcached

/-- Where mutations are not permitted, none is sent. -/
theorem mutationsOf_readOnly {α : Type} {apiToken : String} {s : Service X} {p : M α}
    {post : α → Service X → Prop}
    (h : Holds (contract server apiToken deadline False) post p s) {trace : List Step} {value : α}
    (hrun : Runs p trace value) (hserves : s.Serves server apiToken deadline trace) :
    mutationsOf trace = [] := by
  apply mutationsOf_eq_nil
  intro step member
  obtain ⟨earlier, later, rfl⟩ := List.append_of_mem member
  have hpermits := track_permits h hrun.reaches hserves
  cases hsent : sent step with
  | none => exact mutationsOf_unsent hsent
  | some request =>
      have hop : step.op = .act (.begin (.http request)) := by
        unfold sent at hsent
        split at hsent
        · cases hsent
          rfl
        · cases hsent
      have hread : request.isMutation = false := by
        rw [← Bool.not_eq_true]
        exact fun hmutation => hpermits request hop hmutation
      simp [mutationsOf, hsent, hread]

end Service

/-- The failure of a record that is missing and may not be made. -/
def missingFailure (record : RecordConfig) : CycleFailure :=
  cloudflareFailure record.name .recordLookup
    (.recordNotFound record.recordType.asStr record.name)

namespace CycleReport

/-- The report after what became of one more record. -/
def account (report : CycleReport) (record : RecordConfig) : Option RecordOutcome → CycleReport
  | some outcome => report.handle outcome
  | none => report.push (missingFailure record)

def accountAll (report : CycleReport) (outcomes : RecordConfig → Option RecordOutcome)
    (records : List RecordConfig) : CycleReport :=
  records.foldl (fun report record => report.account record (outcomes record)) report

/-- What the report says once all records are in it. -/
theorem accountAll_eq (outcomes : RecordConfig → Option RecordOutcome)
    (records : List RecordConfig) (report : CycleReport) :
    (report.accountAll outcomes records).records = report.records ∧
      (report.accountAll outcomes records).interrupted = report.interrupted ∧
      (∀ outcome, (report.accountAll outcomes records).counter outcome =
        report.counter outcome + records.countP fun record => outcomes record == some outcome) ∧
      (report.accountAll outcomes records).failures = report.failures ++
        (records.filter fun record => (outcomes record).isNone).map missingFailure := by
  unfold accountAll
  induction records generalizing report with
  | nil => simp
  | cons record rest ih =>
      obtain ⟨hrecords, hinterrupted, hcounter, hfailures⟩ :=
        ih (report.account record (outcomes record))
      rw [List.foldl_cons]
      cases houtcome : outcomes record with
      | none =>
          rw [houtcome] at hrecords hinterrupted hcounter hfailures
          refine ⟨hrecords, hinterrupted, fun outcome => ?_, ?_⟩
          · rw [hcounter outcome, List.countP_cons, houtcome]
            cases outcome <;> rfl
          · rw [hfailures, List.filter_cons, houtcome]
            simp [account, push]
      | some outcome =>
          rw [houtcome] at hrecords hinterrupted hcounter hfailures
          refine ⟨?_, ?_, fun other => ?_, ?_⟩
          · rw [hrecords]
            cases outcome <;> rfl
          · rw [hinterrupted]
            cases outcome <;> rfl
          · rw [hcounter other, List.countP_cons, houtcome]
            cases outcome <;> cases other <;> simp [account, handle, counter] <;> omega
          · rw [hfailures, List.filter_cons, houtcome]
            cases outcome <;> simp [account, handle]

end CycleReport

section

variable {addresses : DiscoveredAddresses} {origin : Store X} {record : RecordConfig}

/-- What a store has for the records can be read and, unless all it makes of them is to
leave them, changed. -/
def Permitted (mutates : Prop) (addresses : DiscoveredAddresses) (store : Store X)
    (records : List RecordConfig) : Prop :=
  mutates ∨ ∀ record ∈ records, ∀ outcome, store.outcome addresses record = some outcome →
    outcome = .unchanged

theorem Permitted.mono {records records' : List RecordConfig}
    (h : Permitted mutates addresses origin records)
    (hsub : ∀ record ∈ records', record ∈ records) :
    Permitted mutates addresses origin records' :=
  h.imp_right fun hquiet record member => hquiet record (hsub record member)

theorem Permitted.changes {outcome : RecordOutcome}
    (h : Permitted mutates addresses origin [record])
    (houtcome : origin.outcome addresses record = some outcome) (hchange : outcome ≠ .unchanged) :
    mutates :=
  h.resolve_right fun hquiet =>
    hchange (hquiet record (List.mem_singleton_self _) outcome houtcome)

/-- What a report says of a cycle that found this store. -/
structure CycleReported (addresses : DiscoveredAddresses) (store : Store X)
    (records : List RecordConfig) (report : CycleReport) : Prop where
  records_eq : report.records = records.length
  uninterrupted : report.interrupted = false
  counter_eq : ∀ outcome, report.counter outcome =
    records.countP fun record => store.outcome addresses record == some outcome
  failures_perm : report.failures.Perm
    ((records.filter fun record => !store.manages record).map missingFailure)

theorem reported_rotated {records : List RecordConfig} (haddressed : Addressed records addresses)
    (cursor : Nat) : CycleReported addresses origin records
      (CycleReport.accountAll { records := records.length } (origin.outcome addresses)
        (Updater.rotated records cursor)) := by
  have hperm := Updater.rotated_perm records cursor
  obtain ⟨hrecords, hinterrupted, hcounter, hfailures⟩ := CycleReport.accountAll_eq
    (origin.outcome addresses) (Updater.rotated records cursor) { records := records.length }
  refine ⟨hrecords, hinterrupted, fun outcome => ?_, ?_⟩
  · rw [hcounter outcome, hperm.countP_eq]
    cases outcome <;> exact Nat.zero_add _
  · rw [hfailures, List.nil_append]
    have hmissing : ∀ record ∈ Updater.rotated records cursor,
        (origin.outcome addresses record).isNone = !origin.manages record := by
      intro record member
      obtain ⟨address, haddress, -⟩ := haddressed record (hperm.mem_iff.mp member)
      unfold Store.outcome Store.manages
      rw [haddress]
      cases origin.stored record with
      | some entry => by_cases h : isUpToDate record address entry.record = true <;> simp [h]
      | none => cases record.createIfMissing <;> rfl
    rw [List.filter_congr hmissing]
    exact (hperm.filter _).map _

/-- A cycle succeeds if no record is missing that may not be made. -/
theorem CycleReported.isSuccess_iff {records : List RecordConfig} {report : CycleReport}
    (h : CycleReported addresses origin records report) :
    report.isSuccess = true ↔ ∀ record ∈ records, origin.manages record = true := by
  rw [CycleReport.isSuccess_iff]
  unfold CycleReport.flawed
  rw [h.uninterrupted, ne_eq, ← List.length_eq_zero_iff, h.failures_perm.length_eq,
    List.length_map, List.length_eq_zero_iff, List.filter_eq_nil_iff]
  simp

end

namespace Updater

variable (self : Updater) {s : Service X}

/-- The plan for a record, by what is stored. -/
def planFor (record : RecordConfig) (address : IpAddr) (zoneId : String) :
    Option (StoredRecord X) → Except (FailureStage × CloudflareError) RecordPlan
  | some entry => .ok (planExistingRecord record address zoneId entry.record)
  | none =>
      if record.createIfMissing then .ok (.create zoneId (recordPayload record address))
      else .error (.recordLookup, .recordNotFound record.recordType.asStr record.name)

/-- On a faithful API a record is planned from what the store has for it: its zone is resolved,
its lookup finds the stored record or none, and the plan is that of `planFor`. Planning itself
changes nothing in the store. -/
theorem planRecord_plans_stored {record : RecordConfig} {address : IpAddr}
    (hvalid : ValidRecord record) (hresolvable : Resolvable [record] s.store) (hs : s.Sound) :
    Holds (contract server self.cloudflare.apiToken deadline mutates)
      (fun result s' => s'.store = s.store ∧ s'.Sound ∧ ∃ zoneId,
        s.store.hosts zoneId record = true ∧
          result = planFor record address zoneId (s.store.stored record))
      (self.planRecord record address) s := by
  have hrecord := List.mem_singleton_self record
  obtain ⟨zone, hhome⟩ := hresolvable.home record hrecord
  unfold planRecord
  apply holds_bind
  refine holds_mono (self.cloudflare.resolveZoneId_home hvalid.plain hresolvable.active hhome
    hs) ?_
  rintro resolved s' ⟨hstore, hs', zoneId, rfl, hhosts⟩
  have hmatching := hresolvable.matching_eq hrecord hhosts
  have hlisting : s'.store.listing zoneId record.recordType.asStr record.name =
      (s.store.stored record).toList.map StoredRecord.record := by
    unfold Store.listing
    rw [hstore, hmatching]
  have hone : (s'.store.listing zoneId record.recordType.asStr record.name).length ≤ 1 := by
    rw [hlisting, List.length_map]
    exact Option.length_toList_le
  apply holds_bind
  refine holds_mono (self.cloudflare.findRecord_found hone) ?_
  rintro found s'' ⟨rfl, rfl⟩
  rw [hlisting]
  cases hstored : s.store.stored record with
  | some entry => exact holds_return ⟨hstore, hs', zoneId, hhosts, rfl⟩
  | none =>
      rw [hstored] at hlisting
      cases hcreate : record.createIfMissing with
      | false =>
          refine holds_return ⟨hstore, hs', zoneId, hhosts, ?_⟩
          simp [planFor, hcreate]
      | true =>
          apply holds_bind
          refine holds_mono (self.cloudflare.findRecord_found hone) ?_
          rintro again t ⟨rfl, rfl⟩
          rw [hlisting]
          refine holds_return ⟨hstore, hs', zoneId, hhosts, ?_⟩
          simp [planFor, hcreate]

/-- A time limit that is met changes nothing. -/
theorem holds_met {α : Type} {apiToken : String} {limit : Instant} {p : M α}
    {post : α → Service X → Prop}
    (h : Holds (contract server apiToken deadline mutates) post p s) :
    Holds (contract server apiToken deadline mutates)
      (fun result s' => ∃ value, result = some value ∧ post value s')
      (timeoutAt limit p) s := by
  have hwait : ∀ (s : Service X) wait, permits mutates s (.finish wait) →
      permits mutates s (.finishBefore limit wait) ∧
      (∀ answer s', (contract server apiToken deadline mutates).advances s
        (.finishBefore limit wait) (some answer) s' →
        (contract server apiToken deadline mutates).advances s (.finish wait) answer s') ∧
      ∀ s' s'', (contract server apiToken deadline mutates).advances s
        (.finishBefore limit wait) none s' →
        (contract server apiToken deadline mutates).interferes s' s'' → False := by
    intro s wait _
    refine ⟨permits_of_quiet (fun _ h => by cases h), ?_, ?_⟩
    · rintro answer s' ⟨hanswer, rfl⟩
      cases wait <;> exact ⟨hanswer, rfl⟩
    · rintro s' s'' ⟨hanswer, rfl⟩ _
      cases wait <;> cases hanswer
  refine holds_mono (@holds_timeoutAt _ _ _ _ _ (fun _ => False) _ _ hwait h) ?_
  intro result s' hresult
  cases result with
  | none => exact hresult.elim
  | some value => exact ⟨value, rfl, hresult⟩

/-- The flag around a mutation changes nothing of the service. -/
theorem holds_guarded {α : Type} {apiToken : String} {mutation : M α}
    {post : α → Service X → Prop}
    (h : Holds (contract server apiToken deadline mutates) post mutation s) :
    Holds (contract server apiToken deadline mutates) post (guarded mutation) s := by
  simp only [guarded, act_eq, Program.ask_bind, Program.done_bind, Program.pure_eq]
  refine holds_steady (permits_of_quiet (fun _ h => by cases h)) (fun _ => rfl) (fun _ => rfl)
    fun _ _ => ?_
  apply holds_bind
  refine holds_mono h fun result s' hresult => ?_
  exact holds_steady (permits_of_quiet (fun _ h => by cases h)) (fun _ => rfl) (fun _ => rfl)
    fun _ _ => holds_return hresult

variable {addresses : DiscoveredAddresses} {origin : Store X} {done : List RecordConfig}
  {record : RecordConfig} {address : IpAddr} {zoneId : String}

section

variable (hdistinct : DistinctRecords (done ++ [record]))
  (haddress : addresses.forRecord record = .ok address)
  (hresolvable : Resolvable [record] origin) (hhosts : origin.hosts zoneId record = true)
  (hpermitted : Permitted mutates addresses origin [record])
  (hconverged : Converged (StoredRecord.settle addresses) (StoredRecord.MadeFor addresses) done
    origin s.store) (hs : s.Sound)

include hdistinct haddress hresolvable hhosts hpermitted hconverged hs

/-- The plan for a record, carried out, is the step of the record. -/
theorem executeRecordPlan_converges {plan : RecordPlan}
    (hplan : planFor record address zoneId (origin.stored record) = .ok plan) :
    Holds (contract server self.cloudflare.apiToken deadline mutates)
      (fun result s' => ∃ outcome, result = .ok outcome ∧
        origin.outcome addresses record = some outcome ∧
        Converged (StoredRecord.settle addresses) (StoredRecord.MadeFor addresses)
          (done ++ [record]) origin s'.store ∧ s'.Sound)
      (self.executeRecordPlan plan) s := by
  have hlawful : Lawful StoredRecord.isOf (StoredRecord.settle addresses)
    (StoredRecord.MadeFor addresses) (E := StoredRecord X) := settle_lawful addresses
  have hunseen := hconverged.unseen hdistinct hhosts hlawful
  rw [hresolvable.matching_eq (List.mem_singleton_self _) hhosts] at hunseen
  cases hstored : origin.stored record with
  | none =>
      rw [hstored] at hplan hunseen
      cases hcreate : record.createIfMissing with
      | false => simp [planFor, hcreate] at hplan
      | true =>
          have houtcome : origin.outcome addresses record = some .created := by
            simp [Store.outcome, haddress, hstored, hcreate]
          have hmutates := hpermitted.changes houtcome (by decide)
          obtain rfl : .create zoneId (recordPayload record address) = plan := by
            simpa [planFor, hcreate] using hplan
          unfold executeRecordPlan
          apply holds_bind
          refine holds_mono (holds_guarded (self.cloudflare.createRecord_adds hmutates)) ?_
          rintro result s' ⟨⟨created, rfl⟩, hcache, id, unmanaged, hfresh, hstore⟩
          refine holds_return ⟨.created, rfl, houtcome, ?_, hs.of_zones ?_ hcache⟩
          · rw [hstore]
            exact hconverged.add hdistinct hhosts hlawful hunseen ⟨address, haddress, rfl⟩ hfresh
          · rw [hstore]
            rfl
  | some entry =>
      rw [hstored] at hplan hunseen
      obtain rfl : planExistingRecord record address zoneId entry.record = plan := by
        simpa [planFor] using hplan
      unfold planExistingRecord
      by_cases hcurrent : isUpToDate record address entry.record = true
      · rw [if_pos hcurrent]
        have hsettled : StoredRecord.settle addresses record entry = entry := by
          simp [StoredRecord.settle, haddress, hcurrent]
        exact holds_return ⟨.unchanged, rfl, by simp [Store.outcome, haddress, hstored, hcurrent],
          hconverged.skip hdistinct hhosts hlawful hunseen hsettled, hs⟩
      · rw [if_neg hcurrent]
        have houtcome : origin.outcome addresses record = some .updated := by
          simp [Store.outcome, haddress, hstored, hcurrent]
        have hmutates := hpermitted.changes houtcome (by decide)
        have hstale : StoredRecord.settle addresses record entry =
            entry.merge (recordPayload record address).edit := by
          simp [StoredRecord.settle, haddress, hcurrent]
        unfold executeRecordPlan
        apply holds_bind
        refine holds_mono (holds_guarded (self.cloudflare.updateRecord_patches hmutates)) ?_
        rintro result s' ⟨⟨updated, rfl⟩, hstore, hcache⟩
        refine holds_return ⟨.updated, rfl, houtcome, ?_, hs.of_zones ?_ hcache⟩
        · rw [hstore]
          exact hconverged.patch hdistinct hhosts hlawful hunseen hstale
        · rw [hstore]
          rfl

end

omit [Externals] in
/-- What the visits so far have not changed. -/
theorem resolvable_next {settle : RecordConfig → StoredRecord X → StoredRecord X}
    {makes : RecordConfig → StoredRecord X → Prop}
    (hlawful : Lawful StoredRecord.isOf settle makes)
    (hdistinct : DistinctRecords (done ++ [record])) (hresolvable : Resolvable [record] origin)
    (hconverged : Converged settle makes done origin s.store) :
    Resolvable [record] s.store ∧ s.store.stored record = origin.stored record := by
  have hunseen : ∀ zoneId, origin.hosts zoneId record = true →
      s.store.matching zoneId record.recordType.asStr record.name =
        origin.matching zoneId record.recordType.asStr record.name :=
    fun zoneId hhosts => hconverged.unseen hdistinct hhosts hlawful
  refine ⟨⟨?_, ?_, ?_⟩, ?_⟩
  · rw [hconverged.zones]
    exact hresolvable.active
  · intro other member
    rw [Store.home_of_zones hconverged.zones]
    exact hresolvable.home other member
  · intro other member zoneId hhosts
    obtain rfl := List.mem_singleton.mp member
    rw [Store.hosts_of_zones hconverged.zones] at hhosts
    rw [hunseen zoneId hhosts]
    exact hresolvable.single other member zoneId hhosts
  · obtain ⟨zone, hhome⟩ := hresolvable.home record (List.mem_singleton_self _)
    have hhosts : origin.hosts zone.id record = true :=
      Store.hosts_iff.mpr ⟨zone, hhome, eqIgnoreAsciiCase_refl _⟩
    rw [Store.stored_eq hhosts, ← hunseen zone.id hhosts, Store.stored_eq]
    rw [Store.hosts_of_zones hconverged.zones]
    exact hhosts

/-- A visit takes the step of its record, if there is one. -/
theorem visitRecord_converges (hdistinct : DistinctRecords (done ++ [record]))
    (hresolvable : Resolvable [record] origin)
    (haddress : addresses.forRecord record = .ok address)
    (hpermitted : Permitted mutates addresses origin [record])
    (hconverged : Converged (StoredRecord.settle addresses) (StoredRecord.MadeFor addresses) done
      origin s.store) (hs : s.Sound) (report : CycleReport) :
    Holds (contract server self.cloudflare.apiToken deadline mutates)
      (fun flow s' => flow = .next (report.account record (origin.outcome addresses record)) ∧
        Converged (StoredRecord.settle addresses) (StoredRecord.MadeFor addresses)
          (done ++ [record].filter origin.manages) origin s'.store ∧ s'.Sound)
      (self.visitRecord deadline addresses record report) s := by
  have hvalid : ValidRecord record :=
    hdistinct.valid record (List.mem_append_right _ (List.mem_singleton_self _))
  obtain ⟨hresolvable', hstored⟩ :=
    resolvable_next (settle_lawful addresses) hdistinct hresolvable hconverged
  simp only [visitRecord, act_eq, Program.ask_bind, Program.done_bind, haddress]
  refine holds_steady (permits_of_quiet (fun _ h => by cases h)) (fun _ => rfl) (fun _ => rfl)
    fun stopRequested hgoing => ?_
  have hstop : stopRequested = false := by
    simpa [answers] using hgoing
  subst hstop
  simp only [Bool.false_eq_true, if_false]
  apply holds_bind
  refine holds_mono (holds_met (self.planRecord_plans_stored hvalid hresolvable' hs)) ?_
  rintro planned s' ⟨plan, rfl, hstore, hs', zoneId, hhosts, rfl⟩
  rw [Store.hosts_of_zones hconverged.zones] at hhosts
  rw [hstored]
  cases hplan : planFor record address zoneId (origin.stored record) with
  | error failure =>
      have hunmanaged : origin.manages record = false ∧
          origin.outcome addresses record = none ∧
          failure = (.recordLookup, .recordNotFound record.recordType.asStr record.name) := by
        cases hentry : origin.stored record with
        | some entry => simp [planFor, hentry] at hplan
        | none =>
            cases hcreate : record.createIfMissing with
            | true => simp [planFor, hentry, hcreate] at hplan
            | false =>
                simp only [planFor, hentry, hcreate, Bool.false_eq_true, if_false] at hplan
                cases hplan
                simp [Store.manages, Store.outcome, haddress, hentry, hcreate]
      obtain ⟨hmanages, houtcome, rfl⟩ := hunmanaged
      refine holds_return ⟨?_, ?_, hs'⟩
      · rw [houtcome]
        rfl
      · rw [hstore, List.filter_singleton, hmanages]
        simpa using hconverged
  | ok plan =>
      refine holds_steady (permits_of_quiet (fun _ h => by cases h)) (fun _ => rfl)
        (fun _ => rfl) fun now hnow => ?_
      have hearly : now < deadline := of_decide_eq_true hnow
      rw [if_neg (Nat.not_le.mpr hearly)]
      apply holds_bind
      refine holds_mono (self.executeRecordPlan_converges hdistinct haddress hresolvable hhosts
        hpermitted (by rw [hstore]; exact hconverged) hs' hplan) ?_
      rintro result t ⟨outcome, rfl, houtcome, hstep, ht⟩
      refine holds_return ⟨?_, ?_, ht⟩
      · rw [houtcome]
        cases outcome <;> rfl
      · have hmanages : origin.manages record = true := by
          unfold Store.manages
          cases hentry : origin.stored record with
          | some entry => rfl
          | none =>
              cases hcreate : record.createIfMissing with
              | true => rfl
              | false => simp [planFor, hentry, hcreate] at hplan
        rw [List.filter_singleton, hmanages]
        exact hstep

/-- The loop takes the steps of all records. The induction is on the records to come. -/
theorem visitRecords_converges {todo : List RecordConfig}
    (hdistinct : DistinctRecords (done ++ todo)) (hresolvable : Resolvable todo origin)
    (haddressed : Addressed todo addresses)
    (hpermitted : Permitted mutates addresses origin todo)
    (hconverged : Converged (StoredRecord.settle addresses) (StoredRecord.MadeFor addresses) done
      origin s.store) (hs : s.Sound) (report : CycleReport) :
    Holds (contract server self.cloudflare.apiToken deadline mutates)
      (fun final s' => final = report.accountAll (origin.outcome addresses) todo ∧
        Converged (StoredRecord.settle addresses) (StoredRecord.MadeFor addresses)
          (done ++ todo.filter origin.manages) origin s'.store ∧ s'.Sound)
      (self.visitRecords deadline addresses todo report) s := by
  induction todo generalizing done report s with
  | nil =>
      rw [List.filter_nil, List.append_nil]
      exact holds_return ⟨rfl, hconverged, hs⟩
  | cons record rest ih =>
      have hsplit : done ++ record :: rest = (done ++ [record]) ++ rest := by simp
      have hone : ∀ other ∈ [record], other ∈ record :: rest := by
        intro other member
        rw [List.mem_singleton.mp member]
        exact List.mem_cons_self
      have hrest : ∀ other ∈ rest, other ∈ record :: rest := fun _ => List.mem_cons_of_mem _
      rw [hsplit] at hdistinct
      obtain ⟨address, haddress, -⟩ := haddressed record List.mem_cons_self
      unfold visitRecords
      apply holds_bind
      refine holds_mono (self.visitRecord_converges
        (hdistinct.sublist (List.sublist_append_left _ _)) (hresolvable.mono hone) haddress
        (hpermitted.mono hone) hconverged hs report) ?_
      rintro flow s' ⟨rfl, hstep, hs'⟩
      have hdistinct' : DistinctRecords ((done ++ [record].filter origin.manages) ++ rest) :=
        hdistinct.sublist ((List.filter_sublist.append_left done).append_right rest)
      refine holds_mono (ih hdistinct' (hresolvable.mono hrest)
        (fun other member => haddressed other (hrest other member)) (hpermitted.mono hrest)
        hstep hs' _) ?_
      rintro final t ⟨rfl, hfinal, ht⟩
      refine ⟨rfl, ?_, ht⟩
      rw [List.append_assoc, ← List.filter_append] at hfinal
      exact hfinal

omit [Externals] in
theorem discoveryFailure_eq_nil {target : String} {found : Option (Except String IpAddr)}
    (h : ∀ message, found ≠ some (.error message)) :
    DiscoveredAddresses.discoveryFailure target found = [] := by
  unfold DiscoveredAddresses.discoveryFailure
  split
  · rename_i message
    exact absurd rfl (h message)
  · rfl

/-- Where every record has its address, no family was looked for in vain. -/
theorem discoveryFailures_eq_nil {config : Config} (hdiscovered : Discovered config addresses)
    (haddressed : Addressed config.records addresses) : addresses.discoveryFailures = [] := by
  have hfamily : ∀ family message, addresses.discovered family ≠ some (.error message) := by
    intro family message hfound
    have hneeded := hdiscovered.isSome_iff family
    rw [hfound, Option.isSome_some, eq_comm, List.any_eq_true] at hneeded
    obtain ⟨record, member, hrecord⟩ := hneeded
    obtain ⟨address, haddress, -⟩ := haddressed record member
    unfold DiscoveredAddresses.forRecord at haddress
    rw [eq_of_beq hrecord, hfound] at haddress
    cases haddress
  exact List.append_eq_nil_iff.mpr
    ⟨discoveryFailure_eq_nil (hfamily .ipv4), discoveryFailure_eq_nil (hfamily .ipv6)⟩

theorem discovery_unchanged {limit : Instant} :
    Holds (contract server self.cloudflare.apiToken deadline mutates) (fun _ s' => s' = s)
      (timeoutAt limit self.discoverRequiredAddresses) s := by
  refine holds_unchanged (self.timeoutDiscovery_uses (fun _ h => h) limit) fun op hop => ?_
  refine ⟨?_, fun answer => ⟨?_, fun cache => ?_⟩⟩
  · rintro request rfl
    exact hop.elim
  · unfold DiscoveryOp at hop
    split at hop <;> first | rfl | exact hop.elim
  · unfold DiscoveryOp at hop
    split at hop <;> first | rfl | exact hop.elim

/-- The visits of a cycle, which find the service as the cycle found it. -/
theorem CycleRun.visits_served {run : self.CycleRun} (hnonempty : self.config.records ≠ [])
    (haddressed : Addressed self.config.records addresses) (hfound : run.Discovers addresses)
    (hserves : s.Serves server self.cloudflare.apiToken run.deadline run.trace) :
    ∃ before visits cursor, run.trace = before ++ visits ∧
      (∀ step ∈ before, sent step = none) ∧
      s.after server self.cloudflare.apiToken before = s ∧
      s.Serves server self.cloudflare.apiToken run.deadline visits ∧
      Runs (self.visitRecords run.deadline addresses (rotated self.config.records cursor)
        { records := self.config.records.length }) visits run.report := by
  obtain ⟨discovery, rest, htrace, hdiscovery⟩ := hfound
  have hrun := run.runs
  unfold runCycleUntil at hrun
  obtain ⟨first, _, found, hsplit, hfirst, hrest⟩ := (runs_bind_iff _ _ _ _).mp hrun
  obtain ⟨rfl, rfl, rfl⟩ := runs_unique hdiscovery hfirst (htrace.symm.trans hsplit)
  have hempty : self.config.records.isEmpty = false := by
    simpa using hnonempty
  have hclean := discoveryFailures_eq_nil (self.timeoutDiscovery_runs hdiscovery) haddressed
  simp only [hempty, Bool.false_eq_true, if_false, hclean] at hrest
  obtain ⟨cursor, visits, rfl, hvisits⟩ := (runs_ask_iff _ _ _ _).mp hrest
  rw [htrace] at hserves
  obtain ⟨hdiscovered, hlater⟩ := coherentFrom_append.mp hserves
  have hquiet : Holds (contract server self.cloudflare.apiToken run.deadline False)
      (fun _ s' => s' = s) (timeoutAt run.deadline self.discoverRequiredAddresses) s :=
    self.discovery_unchanged
  have hsame : s.after server self.cloudflare.apiToken discovery = s :=
    track_run hquiet hdiscovery hdiscovered
  refine ⟨discovery ++ [⟨.act .fetchAddCursor, cursor⟩], visits, cursor, by simp [htrace], ?_, ?_,
    ?_, hvisits⟩
  · intro step member
    rcases List.mem_append.mp member with member | member
    · exact self.discovery_sends_nothing hdiscovery step member
    · rw [List.mem_singleton.mp member]
      rfl
  · unfold Service.after at hsame ⊢
    rw [List.foldl_append, hsame]
    change s.next server self.cloudflare.apiToken ⟨.act .fetchAddCursor, cursor⟩ = s
    exact next_steady rfl rfl
  · have hcursor := hlater.2
    unfold Service.after at hsame
    rw [hsame] at hcursor
    exact hcursor

section

variable {run : self.CycleRun} (hdistinct : DistinctRecords self.config.records)
  (hnonempty : self.config.records ≠ []) (hs : s.Sound)
  (hresolvable : Resolvable self.config.records s.store)
  (haddressed : Addressed self.config.records addresses) (hfound : run.Discovers addresses)
  (hserves : s.Serves server self.cloudflare.apiToken run.deadline run.trace)

include hdistinct hnonempty hs hresolvable haddressed hfound hserves

/-- What a cycle leaves behind, from wherever it starts. -/
theorem CycleRun.converges :
    CycleReported addresses s.store self.config.records run.report ∧
      Converged (StoredRecord.settle addresses) (StoredRecord.MadeFor addresses)
        (self.config.records.filter s.store.manages) s.store
        (s.after server self.cloudflare.apiToken run.trace).store ∧
      (s.after server self.cloudflare.apiToken run.trace).Sound := by
  obtain ⟨before, visits, cursor, htrace, -, hbefore, hvisits, hrun⟩ :=
    CycleRun.visits_served self hnonempty haddressed hfound hserves
  have hperm := rotated_perm self.config.records cursor
  have hloop : Holds (contract server self.cloudflare.apiToken run.deadline True) _ _ s :=
    self.visitRecords_converges (hdistinct.perm hperm)
      (hresolvable.mono fun record member => hperm.mem_iff.mp member)
      (fun record member => haddressed record (hperm.mem_iff.mp member)) (.inl trivial)
      (.start s.store) hs { records := self.config.records.length }
  obtain ⟨hreport, hconverged, hsound⟩ := track_run hloop hrun hvisits
  have hafter : s.after server self.cloudflare.apiToken run.trace =
      visits.foldl (next server self.cloudflare.apiToken) s := by
    unfold Service.after at hbefore ⊢
    rw [htrace, List.foldl_append, hbefore]
  rw [hafter, hreport]
  exact ⟨reported_rotated haddressed cursor,
    hconverged.perm ((hdistinct.perm hperm).sublist List.filter_sublist) (hperm.filter _),
    hsound⟩

/-- A cycle that has nothing to change sends no mutation. -/
theorem CycleRun.idle
    (hpermitted : Permitted False addresses s.store self.config.records) :
    mutationsOf run.trace = [] := by
  obtain ⟨before, visits, cursor, htrace, hquiet, -, hvisits, hrun⟩ :=
    CycleRun.visits_served self hnonempty haddressed hfound hserves
  have hperm := rotated_perm self.config.records cursor
  have hloop : Holds (contract server self.cloudflare.apiToken run.deadline False) _ _ s :=
    self.visitRecords_converges (hdistinct.perm hperm)
      (hresolvable.mono fun record member => hperm.mem_iff.mp member)
      (fun record member => haddressed record (hperm.mem_iff.mp member))
      (hpermitted.mono fun record member => hperm.mem_iff.mp member)
      (.start s.store) hs { records := self.config.records.length }
  rw [htrace, mutationsOf_append, mutationsOf_quiet hquiet, List.nil_append]
  exact mutationsOf_readOnly hloop hrun hvisits

end

end Updater

end Cirrusync
