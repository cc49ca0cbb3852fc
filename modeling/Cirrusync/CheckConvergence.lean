import Cirrusync.CycleConvergence
import Cirrusync.ProbeRace
import Cirrusync.RootCause

/-!
A check on a faithful API. It counts what is stored and what may be made, and makes it
if it is told to; a probe leaves its record as it is. Where every zone has a record to
probe or to make, all zones are proved.
-/

namespace Cirrusync

open Effect Text Sequence Service

variable [Externals] {X : Type} {server : ApiServer X} {limit : Instant} {mutates : Prop}

namespace CloudflareClient

variable (self : CloudflareClient) {s : Service X}

/-- The token is active. -/
theorem verifyToken_active :
    Holds (contract server self.apiToken limit mutates)
      (fun result s' => s' = s ∧ result = .ok ()) self.verifyToken s := by
  unfold verifyToken
  apply holds_bind
  refine holds_mono (self.send_received fun h => by cases h) ?_
  intro result s' hreceived
  obtain ⟨rfl, response, rfl, hshows⟩ := self.received_read hreceived rfl
  have hactive : eqIgnoreAsciiCase response.result.status "active" = true := hshows
  simp only [hactive, if_true]
  exact holds_return ⟨rfl, rfl⟩

/-- A probe of a stored record leaves the store as it is. -/
theorem probeRecordEdit_keeps {zoneId : String} {entry : StoredRecord X} (hallowed : mutates)
    (hentry : entry ∈ s.store.recordsOf zoneId) :
    Holds (contract server self.apiToken limit mutates)
      (fun result s' => (∃ probed, result = .ok probed) ∧ s'.store = s.store ∧
        s'.cache = s.cache)
      (self.probeRecordEdit zoneId entry.record) s := by
  unfold probeRecordEdit
  apply holds_bind
  refine holds_mono (self.sendInZone_received fun _ => hallowed) ?_
  rintro result s' ⟨outcome, response, rfl, -, -, hstore, hcache⟩
  refine holds_return ⟨⟨response.result, rfl⟩, hstore.trans ?_, hcache⟩
  have hkeeps : s.store.Keeps zoneId entry.record := by
    intro other member hid
    obtain rfl := Store.eq_of_same_id member hentry hid
    exact ⟨rfl, rfl, rfl⟩
  exact hkeeps.probe

end CloudflareClient

/-- The failure of a record that is missing and may not be made. -/
def absentFailure (record : RecordConfig) : CycleFailure :=
  permanentFailure record.name .recordLookup "record does not exist and creation is disabled"

/-- The records that a check makes where they are missing. -/
def requested (allowCreate : Bool) (record : RecordConfig) : Bool :=
  allowCreate && record.createIfMissing

/-- The report after a check of one more record. -/
def CheckReport.account (allowCreate : Bool) (store : Store X) (report : CheckReport)
    (record : RecordConfig) : CheckReport :=
  if (store.stored record).isSome then { report with existing := report.existing + 1 }
  else if !record.createIfMissing then report.push (absentFailure record)
  else if allowCreate then { report with created := report.created + 1 }
  else { report with creatable := report.creatable + 1 }

/-- A record whose check proves its zone. -/
def Store.proves (allowCreate allowEditProbe : Bool) (store : Store X) (record : RecordConfig) :
    Bool :=
  if (store.stored record).isSome then allowEditProbe else requested allowCreate record

/-- The proofs after a check of one more record. -/
def ZoneProofs.account (proofs : ZoneProofs) (record : RecordConfig) (zoneId : String)
    (proved : Bool) : ZoneProofs :=
  let resolved := proofs.markResolved record zoneId
  if proved then resolved.markProven zoneId else resolved

theorem keeps_lawful (addresses : DiscoveredAddresses) :
    Lawful StoredRecord.isOf (fun _ entry => entry) (StoredRecord.MadeFor addresses)
      (E := StoredRecord X) where
  settle_targets := fun _ _ _ _ => rfl
  makes_targets := (settle_lawful addresses).makes_targets

namespace Updater

variable (self : Updater) {s : Service X} {record : RecordConfig}

theorem inspectCheckRecord_finds {deadline : Instant} {proofs : ZoneProofs}
    (hvalid : ValidRecord record) (hresolvable : Resolvable [record] s.store) (hs : s.Sound) :
    Holds (contract server self.cloudflare.apiToken limit mutates)
      (fun result s' => s'.store = s.store ∧ s'.Sound ∧ ∃ zoneId,
        s.store.hosts zoneId record = true ∧
          result = (.ok (zoneId, (s.store.stored record).map StoredRecord.record),
            proofs.markResolved record zoneId))
      (self.inspectCheckRecord record deadline proofs) s := by
  have hrecord := List.mem_singleton_self record
  obtain ⟨zone, hhome⟩ := hresolvable.home record hrecord
  unfold inspectCheckRecord
  apply holds_bind
  refine holds_mono (holds_met (self.cloudflare.resolveZoneId_home hvalid.plain
    hresolvable.active hhome hs)) ?_
  rintro resolved s' ⟨_, rfl, hstore, hs', zoneId, rfl, hhosts⟩
  have hlisting : s'.store.listing zoneId record.recordType.asStr record.name =
      (s.store.stored record).toList.map StoredRecord.record := by
    unfold Store.listing
    rw [hstore, hresolvable.matching_eq hrecord hhosts]
  have hone : (s'.store.listing zoneId record.recordType.asStr record.name).length ≤ 1 := by
    rw [hlisting, List.length_map]
    exact Option.length_toList_le
  apply holds_bind
  refine holds_mono (holds_met (self.cloudflare.findRecord_found hone)) ?_
  rintro found s'' ⟨_, rfl, rfl, rfl⟩
  rw [hlisting]
  refine holds_return ⟨hstore, hs', zoneId, hhosts, ?_⟩
  cases s.store.stored record <;> rfl

variable {deadline : Instant} (hearly :
  limit + (self.cloudflare.requestTimeout + mutationStartMargin) ≤ deadline)

include hearly

omit [Externals] in
theorem hasBudget_early {now : Instant} (h : now < limit) : self.HasBudget deadline now := by
  have hlimit : limit ≤ deadline := Nat.le_trans (Nat.le_add_right limit _) hearly
  refine ⟨Nat.le_trans (Nat.le_of_lt h) hlimit, Nat.le_sub_of_add_le ?_⟩
  calc self.cloudflare.requestTimeout + mutationStartMargin + now
      ≤ self.cloudflare.requestTimeout + mutationStartMargin + limit :=
        Nat.add_le_add_left (Nat.le_of_lt h) _
    _ = limit + (self.cloudflare.requestTimeout + mutationStartMargin) := Nat.add_comm _ _
    _ ≤ deadline := hearly

theorem mutationCanFinishBefore_fits :
    Holds (contract server self.cloudflare.apiToken limit mutates)
      (fun fits s' => fits = true ∧ s' = s) (self.mutationCanFinishBefore deadline) s := by
  simp only [mutationCanFinishBefore, act_eq, Program.ask_bind, Program.done_bind,
    Program.pure_eq]
  refine holds_steady (permits_of_quiet (fun _ h => by cases h)) (fun _ => rfl) (fun _ => rfl)
    fun now hnow => holds_return ⟨?_, rfl⟩
  obtain ⟨hbefore, hbudget⟩ := hasBudget_early self hearly (of_decide_eq_true hnow)
  simp [hbefore, hbudget]

variable {addresses : DiscoveredAddresses} {origin : Store X} {done : List RecordConfig}
  {allowCreate allowEditProbe : Bool} {state : CheckState} {zoneId : String}

/-- A stored record is counted, and probed if that is allowed and its zone has no proof. -/
theorem handleExistingCheckRecord_counts {entry : StoredRecord X}
    (hallowed : allowEditProbe = true → mutates)
    (hentry : entry ∈ s.store.recordsOf zoneId) (hs : s.Sound) :
    Holds (contract server self.cloudflare.apiToken limit mutates)
      (fun flow s' => s'.store = s.store ∧ s'.Sound ∧ flow = .next
        { proofs := if allowEditProbe then state.proofs.markProven zoneId else state.proofs
          report := { state.report with existing := state.report.existing + 1 } })
      (self.handleExistingCheckRecord record zoneId entry.record
        ⟨allowCreate, allowEditProbe, deadline⟩ state) s := by
  unfold handleExistingCheckRecord
  cases hprobe : allowEditProbe with
  | false => exact holds_return ⟨rfl, hs, rfl⟩
  | true =>
      cases hneeds : state.proofs.needsProof zoneId with
      | false =>
          have hproven : zoneId ∈ state.proofs.provenIds := by
            simpa [ZoneProofs.needsProof] using hneeds
          simp only [Bool.not_true, Bool.false_or, hneeds, Bool.not_false, if_true]
          refine holds_return ⟨rfl, hs, ?_⟩
          simp [ZoneProofs.markProven, List.insert_of_mem hproven]
      | true =>
          simp only [Bool.not_true, Bool.false_or, hneeds, Bool.false_eq_true, if_false]
          apply holds_bind
          refine holds_mono (self.mutationCanFinishBefore_fits hearly) ?_
          rintro fits s' ⟨rfl, rfl⟩
          simp only [Bool.not_true, Bool.false_eq_true, if_false]
          apply holds_bind
          unfold probeEditPermission
          apply holds_bind
          refine holds_mono (holds_guarded
            (self.cloudflare.probeRecordEdit_keeps (hallowed hprobe) hentry)) ?_
          rintro result t ⟨⟨probed, rfl⟩, hstore, hcache⟩
          exact holds_return (holds_return
            ⟨hstore, hs.of_zones (by rw [hstore]) hcache, rfl⟩)

section

variable (hdistinct : DistinctRecords (done ++ [record]))
  (hresolvable : Resolvable [record] origin) (hhosts : origin.hosts zoneId record = true)
  (hallowed : (allowCreate || allowEditProbe) = true → mutates)
  (haddressed : Addressed [record] addresses)
  (hconverged : Converged (fun _ entry => entry) (StoredRecord.MadeFor addresses) done origin
    s.store) (hs : s.Sound)

include hdistinct hresolvable hhosts hallowed haddressed hconverged hs

/-- A missing record is a failure, is counted, or is made. -/
theorem handleMissingCheckRecord_makes (hmissing : origin.stored record = none) :
    Holds (contract server self.cloudflare.apiToken limit mutates)
      (fun flow s' => Converged (fun _ entry => entry) (StoredRecord.MadeFor addresses)
          (done ++ [record].filter (requested allowCreate)) origin s'.store ∧ s'.Sound ∧
        flow = .next
          { proofs :=
              if requested allowCreate record then state.proofs.markProven zoneId
              else state.proofs
            report := state.report.account allowCreate origin record })
      (self.handleMissingCheckRecord record zoneId addresses
        ⟨allowCreate, allowEditProbe, deadline⟩ state) s := by
  have hunseen := hconverged.unseen hdistinct hhosts (keeps_lawful addresses)
  rw [hresolvable.matching_eq (List.mem_singleton_self _) hhosts, hmissing] at hunseen
  obtain ⟨address, haddress, -⟩ := haddressed record (List.mem_singleton_self _)
  unfold handleMissingCheckRecord
  cases hcreate : record.createIfMissing with
  | false =>
      refine holds_return ⟨?_, hs, ?_⟩
      · simpa [requested, hcreate] using hconverged
      · simp [CheckReport.account, requested, hmissing, hcreate, CheckState.push, absentFailure]
  | true =>
      cases hmakes : allowCreate with
      | false =>
          refine holds_return ⟨?_, hs, ?_⟩
          · simpa [requested] using hconverged
          · simp [CheckReport.account, requested, hmissing, hcreate]
      | true =>
          rw [hmakes] at hallowed
          have hlisting : s.store.listing zoneId (recordPayload record address).recordType
              (recordPayload record address).name = [] := by
            unfold Store.listing
            exact List.map_eq_nil_iff.mpr hunseen
          have hfew : (s.store.listing zoneId (recordPayload record address).recordType
              (recordPayload record address).name).length ≤ 1 := by
            rw [hlisting]
            exact Nat.zero_le 1
          simp only [Bool.not_true, Bool.false_eq_true, if_false, haddress]
          apply holds_bind
          refine holds_mono (self.mutationCanFinishBefore_fits hearly) ?_
          rintro fits s' ⟨rfl, rfl⟩
          simp only [Bool.not_true, Bool.false_eq_true, if_false]
          apply holds_bind
          refine holds_mono (holds_met (self.cloudflare.findRecord_found hfew)) ?_
          rintro found s'' ⟨_, rfl, rfl, rfl⟩
          rw [hlisting]
          simp only [List.head?_nil]
          apply holds_bind
          refine holds_mono (self.mutationCanFinishBefore_fits hearly) ?_
          rintro fits t ⟨rfl, rfl⟩
          simp only [Bool.not_true, Bool.false_eq_true, if_false]
          unfold createCheckRecord
          apply holds_bind
          refine holds_mono (holds_guarded (self.cloudflare.createRecord_adds (hallowed rfl))) ?_
          rintro result t' ⟨⟨created, rfl⟩, hcache, id, unmanaged, hfresh, hstore⟩
          refine holds_return ⟨?_, hs.of_zones ?_ hcache, ?_⟩
          · rw [hstore, List.filter_singleton]
            simp only [requested, hcreate, Bool.and_self, cond_true]
            exact hconverged.add hdistinct hhosts (keeps_lawful addresses) hunseen
              ⟨address, haddress, rfl⟩ hfresh
          · rw [hstore]
            rfl
          · simp [CheckReport.account, requested, hmissing, hcreate]

omit hhosts in
/-- A check takes the step of its record, if there is one. -/
theorem checkRecord_converges :
    Holds (contract server self.cloudflare.apiToken limit mutates)
      (fun flow s' => Converged (fun _ entry => entry) (StoredRecord.MadeFor addresses)
          (done ++ [record].filter (requested allowCreate)) origin s'.store ∧ s'.Sound ∧
        ∃ zoneId, flow = .next
          { proofs := state.proofs.account record zoneId
              (origin.proves allowCreate allowEditProbe record)
            report := state.report.account allowCreate origin record })
      (self.checkRecord addresses ⟨allowCreate, allowEditProbe, deadline⟩ record state) s := by
  have hvalid : ValidRecord record :=
    hdistinct.valid record (List.mem_append_right _ (List.mem_singleton_self _))
  obtain ⟨hresolvable', hstored⟩ :=
    resolvable_next (keeps_lawful addresses) hdistinct hresolvable hconverged
  unfold checkRecord
  apply holds_bind
  refine holds_mono (self.inspectCheckRecord_finds hvalid hresolvable' hs) ?_
  rintro inspected s' ⟨hstore, hs', zoneId, hhosts, rfl⟩
  rw [Store.hosts_of_zones hconverged.zones] at hhosts
  rw [← hstore] at hconverged
  cases hentry : s.store.stored record with
  | some entry =>
      rw [hstored] at hentry
      have hunseen := hconverged.unseen hdistinct hhosts (keeps_lawful addresses)
      rw [hresolvable.matching_eq (List.mem_singleton_self _) hhosts, hentry] at hunseen
      have hmember : entry ∈ s'.store.matching zoneId record.recordType.asStr record.name := by
        rw [hunseen]
        exact List.mem_singleton_self _
      refine holds_mono (self.handleExistingCheckRecord_counts hearly
        (fun hprobe => hallowed (by simp [hprobe])) (List.mem_filter.mp hmember).1 hs') ?_
      rintro flow t ⟨hkept, ht, rfl⟩
      refine ⟨?_, ht, zoneId, ?_⟩
      · rw [hkept]
        cases hrequested : requested allowCreate record with
        | false =>
            rw [List.filter_singleton, hrequested]
            simpa using hconverged
        | true =>
            rw [List.filter_singleton, hrequested]
            exact hconverged.skip hdistinct hhosts (keeps_lawful addresses) hunseen rfl
      · simp [ZoneProofs.account, Store.proves, CheckReport.account, hentry]
  | none =>
      rw [hstored] at hentry
      refine holds_mono (self.handleMissingCheckRecord_makes hearly hdistinct hresolvable hhosts
        hallowed haddressed hconverged hs' hentry) ?_
      rintro flow t ⟨hstep, ht, rfl⟩
      refine ⟨hstep, ht, zoneId, ?_⟩
      simp [ZoneProofs.account, Store.proves, hentry]

end

end Updater

/-- The proofs after a check of the records, whose zones were resolved to some ids. -/
inductive ZoneProofs.Accounted (proves : RecordConfig → Bool) (proofs : ZoneProofs) :
    List RecordConfig → ZoneProofs → Prop where
  | start : Accounted proves proofs [] proofs
  | record {checked : List RecordConfig} {proofs' : ZoneProofs} (record : RecordConfig)
      (zoneId : String) : Accounted proves proofs checked proofs' →
      Accounted proves proofs (checked ++ [record])
        (proofs'.account record zoneId (proves record))

namespace Updater

variable (self : Updater) {s : Service X} {deadline : Instant} {addresses : DiscoveredAddresses}
  {origin : Store X} {allowCreate allowEditProbe : Bool}

/-- The loop takes the steps of all records. The induction is on the records to come. -/
theorem checkRecords_converges
    (hearly : limit + (self.cloudflare.requestTimeout + mutationStartMargin) ≤ deadline)
    (hallowed : (allowCreate || allowEditProbe) = true → mutates)
    {checked todo done : List RecordConfig} {start : ZoneProofs} {state : CheckState}
    (hdistinct : DistinctRecords (done ++ todo)) (hresolvable : Resolvable todo origin)
    (haddressed : Addressed todo addresses)
    (hconverged : Converged (fun _ entry => entry) (StoredRecord.MadeFor addresses) done origin
      s.store) (hs : s.Sound)
    (hproofs : start.Accounted (origin.proves allowCreate allowEditProbe) checked state.proofs) :
    Holds (contract server self.cloudflare.apiToken limit mutates)
      (fun final s' => Converged (fun _ entry => entry) (StoredRecord.MadeFor addresses)
          (done ++ todo.filter (requested allowCreate)) origin s'.store ∧ s'.Sound ∧
        final.report = todo.foldl (CheckReport.account allowCreate origin) state.report ∧
        start.Accounted (origin.proves allowCreate allowEditProbe) (checked ++ todo) final.proofs)
      (self.checkRecords addresses ⟨allowCreate, allowEditProbe, deadline⟩ todo state) s := by
  induction todo generalizing checked done state s with
  | nil =>
      rw [List.filter_nil, List.append_nil, List.append_nil]
      exact holds_return ⟨hconverged, hs, rfl, hproofs⟩
  | cons record rest ih =>
      have hsplit : done ++ record :: rest = (done ++ [record]) ++ rest := by simp
      have hone : ∀ other ∈ [record], other ∈ record :: rest := by
        intro other member
        rw [List.mem_singleton.mp member]
        exact List.mem_cons_self
      have hrest : ∀ other ∈ rest, other ∈ record :: rest := fun _ => List.mem_cons_of_mem _
      rw [hsplit] at hdistinct
      unfold checkRecords
      apply holds_bind
      refine holds_mono (self.checkRecord_converges hearly
        (hdistinct.sublist (List.sublist_append_left _ _)) (hresolvable.mono hone) hallowed
        (fun other member => haddressed other (hone other member)) hconverged hs) ?_
      rintro flow s' ⟨hstep, hs', zoneId, rfl⟩
      have hdistinct' : DistinctRecords
          ((done ++ [record].filter (requested allowCreate)) ++ rest) :=
        hdistinct.sublist ((List.filter_sublist.append_left done).append_right rest)
      refine holds_mono (ih hdistinct' (hresolvable.mono hrest)
        (fun other member => haddressed other (hrest other member)) hstep hs'
        (hproofs.record record zoneId)) ?_
      rintro final t ⟨hfinal, ht, hreport, haccounted⟩
      refine ⟨?_, ht, hreport, ?_⟩
      · rw [List.append_assoc, ← List.filter_append] at hfinal
        exact hfinal
      · rw [List.append_assoc] at haccounted
        exact haccounted

/-- The loop from the start, over all records. -/
theorem checkRecords_all (allowCreate allowEditProbe : Bool)
    (hearly : limit + (self.cloudflare.requestTimeout + mutationStartMargin) ≤ deadline)
    (hallowed : (allowCreate || allowEditProbe) = true → mutates) {records : List RecordConfig}
    (hdistinct : DistinctRecords records) (hresolvable : Resolvable records s.store)
    (haddressed : Addressed records addresses) (hs : s.Sound) (state : CheckState) :
    Holds (contract server self.cloudflare.apiToken limit mutates)
      (fun final s' => Converged (fun _ entry => entry) (StoredRecord.MadeFor addresses)
          (records.filter (requested allowCreate)) s.store s'.store ∧ s'.Sound ∧
        final.report = records.foldl (CheckReport.account allowCreate s.store) state.report ∧
        state.proofs.Accounted (s.store.proves allowCreate allowEditProbe) records final.proofs)
      (self.checkRecords addresses ⟨allowCreate, allowEditProbe, deadline⟩ records state) s := by
  have hall : DistinctRecords ([] ++ records) := hdistinct
  exact self.checkRecords_converges hearly hallowed hall hresolvable haddressed (.start s.store)
    hs .start

end Updater

end Cirrusync
