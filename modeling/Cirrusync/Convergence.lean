import Cirrusync.FaithfulApi
import Cirrusync.Sequence.Reconcile
import Cirrusync.StoreAgreement

/-!
What a cycle is for: the store reconciled with the configuration. In each zone the
stored records that configured ones select are settled in place, the missing ones are
added, and all others stay. A PATCH and a POST are one step of this each, and the
order of the steps does not matter.
-/

namespace Cirrusync

open Effect Text Sequence

variable [Externals] {X : Type}

namespace StoredRecord

omit [Externals] in
/-- The configured record selects this one. -/
def isOf (entry : StoredRecord X) (record : RecordConfig) : Bool :=
  entry.isMatch record.recordType.asStr record.name

/-- An up-to-date record is left alone; another takes the fields of the PATCH. -/
def settle (addresses : DiscoveredAddresses) (record : RecordConfig) (entry : StoredRecord X) :
    StoredRecord X :=
  match addresses.forRecord record with
  | .ok address =>
      if isUpToDate record address entry.record then entry
      else entry.merge (recordPayload record address).edit
  | .error _ => entry

/-- The POST of a configured record adds this one, under an id of the API's choice. -/
def MadeFor (addresses : DiscoveredAddresses) (record : RecordConfig) (entry : StoredRecord X) :
    Prop :=
  ∃ address, addresses.forRecord record = .ok address ∧
    entry.record = (recordPayload record address).record entry.record.id

end StoredRecord

/-- The store as the records, each in its zone, want it: what is stored for them is
settled, and what is missing is made. -/
structure Converged (settle : RecordConfig → StoredRecord X → StoredRecord X)
    (makes : RecordConfig → StoredRecord X → Prop) (records : List RecordConfig)
    (origin final : Store X) : Prop where
  zones : final.zones = origin.zones
  reconciled : ∀ zoneId, Reconciled StoredRecord.isOf settle makes
    (records.filter (origin.hosts zoneId)) (origin.recordsOf zoneId) (final.recordsOf zoneId)

/-- The records of a valid configuration. -/
structure DistinctRecords (records : List RecordConfig) : Prop where
  valid : ∀ record ∈ records, ValidRecord record
  keys : ∀ record ∈ records, ∀ record' ∈ records, record.key = record'.key → record = record'
  nodup : records.Nodup

omit [Externals] in
theorem DistinctRecords.perm {records records' : List RecordConfig}
    (h : DistinctRecords records) (hperm : records'.Perm records) : DistinctRecords records' where
  valid := fun record member => h.valid record (hperm.mem_iff.mp member)
  keys := fun record member record' member' =>
    h.keys record (hperm.mem_iff.mp member) record' (hperm.mem_iff.mp member')
  nodup := hperm.nodup_iff.mpr h.nodup

omit [Externals] in
theorem DistinctRecords.sublist {records records' : List RecordConfig}
    (h : DistinctRecords records) (hsub : records'.Sublist records) :
    DistinctRecords records' where
  valid := fun record member => h.valid record (hsub.subset member)
  keys := fun record member record' member' =>
    h.keys record (hsub.subset member) record' (hsub.subset member')
  nodup := h.nodup.sublist hsub

theorem distinctRecords_of_validate {config : Config} (hvalid : config.validate = .ok ()) :
    DistinctRecords config.records := by
  obtain ⟨hrecords, hkeys, -⟩ := Config.validate_ok hvalid
  refine ⟨hrecords, fun record member record' member' hkey => ?_, ?_⟩
  · by_contra hne
    have hsymm : Std.Symm fun first second : RecordConfig => first.key ≠ second.key :=
      ⟨fun _ _ h => h.symm⟩
    exact hkeys.forall member member' hne hkey
  · exact hkeys.imp fun hdiffer hsame => hdiffer (congrArg _ hsame)

section

omit [Externals]

theorem StoredRecord.isOf_iff {entry : StoredRecord X} {record : RecordConfig} :
    entry.isOf record = true ↔
      SameKey entry.record.recordType entry.record.name record.recordType.asStr record.name :=
  DnsRecord.isExactMatch_iff _ _ _

/-- Records of one zone that select one stored record are one. -/
theorem DistinctRecords.exclusive {records : List RecordConfig} (h : DistinctRecords records)
    (store : Store X) (zoneId : String) :
    Exclusive StoredRecord.isOf (records.filter (store.hosts zoneId)) (E := StoredRecord X) := by
  intro record hrecord record' hrecord' entry hkey hkey'
  obtain ⟨member, hhosts⟩ := List.mem_filter.mp hrecord
  obtain ⟨member', hhosts'⟩ := List.mem_filter.mp hrecord'
  obtain ⟨zone, hhome, hid⟩ := Store.hosts_iff.mp hhosts
  obtain ⟨zone', hhome', hid'⟩ := Store.hosts_iff.mp hhosts'
  obtain ⟨hzone, hname, -⟩ := Store.mem_of_home hhome
  obtain ⟨hzone', hname', -⟩ := Store.mem_of_home hhome'
  have hzones : eqIgnoreAsciiCase record.zone record'.zone = true :=
    Store.names_unique ⟨zone, hzone, hname, hid⟩ ⟨zone', hzone', hname', hid'⟩
  have hsame := (StoredRecord.isOf_iff.mp hkey).symm.trans (StoredRecord.isOf_iff.mp hkey')
  have hvalid := h.valid record member
  have hvalid' := h.valid record' member'
  apply h.keys record member record' member'
  unfold RecordConfig.key
  rw [eq_of_lower hvalid.zone_lower hvalid'.zone_lower hzones,
    eq_of_lower hvalid.name_lower hvalid'.name_lower hsame.2,
    RecordType.asStr_injective hsame.1]

end

theorem settle_lawful (addresses : DiscoveredAddresses) :
    Lawful StoredRecord.isOf (StoredRecord.settle addresses)
      (StoredRecord.MadeFor addresses) (E := StoredRecord X) where
  settle_targets := by
    intro record entry other hkey
    unfold StoredRecord.settle
    cases addresses.forRecord record with
    | error message => rfl
    | ok address =>
        simp only
        split
        · rfl
        · exact isExactMatch_congr (StoredRecord.isOf_iff.mp hkey).symm _ _
  makes_targets := by
    rintro record entry ⟨address, -, heq⟩
    rw [StoredRecord.isOf_iff, heq]
    exact ⟨eqIgnoreAsciiCase_refl _, eqIgnoreAsciiCase_refl _⟩

namespace Converged

omit [Externals]

variable {settle : RecordConfig → StoredRecord X → StoredRecord X}
  {makes : RecordConfig → StoredRecord X → Prop} {origin current : Store X}

theorem start (origin : Store X) : Converged settle makes [] origin origin :=
  ⟨rfl, fun _ => reconciled_nil _⟩

theorem perm {records records' : List RecordConfig} (hdistinct : DistinctRecords records)
    (h : Converged settle makes records origin current) (hperm : records.Perm records') :
    Converged settle makes records' origin current :=
  ⟨h.zones, fun zoneId => (h.reconciled zoneId).perm (hdistinct.exclusive origin zoneId)
    (hperm.filter _)⟩

section

variable {done : List RecordConfig} {record : RecordConfig} {zoneId : String}
  (hdistinct : DistinctRecords (done ++ [record]))
  (hhosts : origin.hosts zoneId record = true)

include hdistinct hhosts

omit hhosts in
theorem hosted_append {other : String} (h : origin.hosts other record = true) :
    (done ++ [record]).filter (origin.hosts other) =
        done.filter (origin.hosts other) ++ [record] ∧
      record ∉ done.filter (origin.hosts other) ∧
      Exclusive StoredRecord.isOf (done.filter (origin.hosts other) ++ [record])
        (E := StoredRecord X) := by
  have hfilter : (done ++ [record]).filter (origin.hosts other) =
      done.filter (origin.hosts other) ++ [record] := by
    rw [List.filter_append, List.filter_singleton, h]
    rfl
  refine ⟨hfilter, fun member => ?_, ?_⟩
  · have hdisjoint := (List.nodup_append.mp hdistinct.nodup).2.2
    exact hdisjoint record (List.mem_filter.mp member).1 record (List.mem_singleton_self _) rfl
  · rw [← hfilter]
    exact hdistinct.exclusive origin other

/-- A record that is new finds in its zone what was there. -/
theorem unseen (hlawful : Lawful StoredRecord.isOf settle makes)
    (h : Converged settle makes done origin current) :
    current.matching zoneId record.recordType.asStr record.name =
      origin.matching zoneId record.recordType.asStr record.name := by
  obtain ⟨-, hnew, hexclusive⟩ := hosted_append hdistinct hhosts
  exact (h.reconciled zoneId).unseen hlawful hexclusive hnew

/-- A step in the zone of the record, which leaves the other zones as they are. -/
theorem step (h : Converged settle makes done origin current) {next : Store X}
    (hzones : next.zones = current.zones)
    (hother : ∀ other, ¬ eqIgnoreAsciiCase other zoneId = true →
      next.recordsOf other = current.recordsOf other)
    (hhere : ∀ other, origin.hosts other record = true → eqIgnoreAsciiCase other zoneId = true →
      Reconciled StoredRecord.isOf settle makes (done.filter (origin.hosts other) ++ [record])
        (origin.recordsOf other) (next.recordsOf other)) :
    Converged settle makes (done ++ [record]) origin next := by
  refine ⟨hzones.trans h.zones, fun other => ?_⟩
  by_cases hosted : origin.hosts other record = true
  · have hsame := Store.hosts_same hosted hhosts
    rw [(hosted_append hdistinct hosted).1]
    exact hhere other hosted hsame
  · have hdiffer : ¬ eqIgnoreAsciiCase other zoneId = true := by
      intro hsame
      exact hosted ((Store.hosts_congr hsame).trans hhosts)
    rw [hother other hdiffer, List.filter_append, List.filter_singleton]
    simp only [hosted, cond_false, List.append_nil]
    exact h.reconciled other

section

variable {entry : StoredRecord X} (hlawful : Lawful StoredRecord.isOf settle makes)
  (h : Converged settle makes done origin current)

include hlawful h

/-- What the record finds now it would have found at first. -/
theorem there (hmatching : current.matching zoneId record.recordType.asStr record.name = [entry])
    {other : String} (hsame : eqIgnoreAsciiCase other zoneId = true) :
    (∃ old ∈ origin.recordsOf other, old.isOf record = true) ∧
      (current.recordsOf other).filter (StoredRecord.isOf · record) = [entry] := by
  have hfound := h.unseen hdistinct hhosts hlawful
  rw [hmatching] at hfound
  have hold : entry ∈ origin.matching zoneId record.recordType.asStr record.name := by
    rw [← hfound]
    exact List.mem_singleton_self _
  obtain ⟨hentry, hkey⟩ := List.mem_filter.mp hold
  rw [Store.recordsOf_congr hsame, Store.recordsOf_congr hsame]
  exact ⟨⟨entry, hentry, hkey⟩, hmatching⟩

/-- The step of a record that is as it should be: nothing. -/
theorem skip (hmatching : current.matching zoneId record.recordType.asStr record.name = [entry])
    (hcurrent : settle record entry = entry) :
    Converged settle makes (done ++ [record]) origin current := by
  refine h.step hdistinct hhosts rfl (fun _ _ => rfl) fun other hosted hsame => ?_
  obtain ⟨-, hnew, hexclusive⟩ := hosted_append hdistinct hosted
  obtain ⟨hthere, hfilter⟩ := there hdistinct hhosts hlawful h hmatching hsame
  have hupdated := (h.reconciled other).update hlawful hexclusive hnew hthere
  have hsettled : (current.recordsOf other).map (touch StoredRecord.isOf settle record) =
      current.recordsOf other := by
    calc (current.recordsOf other).map (touch StoredRecord.isOf settle record)
        = (current.recordsOf other).map id := by
          apply List.map_congr_left
          intro found member
          unfold touch
          by_cases hkey : found.isOf record = true
          · have hsole : found ∈ (current.recordsOf other).filter
                (StoredRecord.isOf · record) := List.mem_filter.mpr ⟨member, hkey⟩
            rw [hfilter, List.mem_singleton] at hsole
            subst hsole
            rw [if_pos hkey, hcurrent]
            rfl
          · rw [if_neg hkey]
            rfl
      _ = current.recordsOf other := List.map_id _
  rwa [hsettled] at hupdated

/-- The step of a record that is stored otherwise: its PATCH. -/
theorem patch (hmatching : current.matching zoneId record.recordType.asStr record.name = [entry])
    {edit : RecordEdit} (hstale : settle record entry = entry.merge edit) :
    Converged settle makes (done ++ [record]) origin
      (current.patch zoneId entry.record.id edit) := by
  refine h.step hdistinct hhosts rfl (fun other hdiffer => ?_) fun other hosted hsame => ?_
  · rw [Store.recordsOf_patch, if_neg hdiffer]
  obtain ⟨-, hnew, hexclusive⟩ := hosted_append hdistinct hosted
  obtain ⟨hthere, hfilter⟩ := there hdistinct hhosts hlawful h hmatching hsame
  have hupdated := (h.reconciled other).update hlawful hexclusive hnew hthere
  have hpatched : (current.patch zoneId entry.record.id edit).recordsOf other =
      (current.recordsOf other).map (touch StoredRecord.isOf settle record) := by
    rw [Store.recordsOf_patch, if_pos hsame, ← Store.recordsOf_congr hsame]
    unfold editRecords
    apply List.map_congr_left
    intro found member
    have hsole : found.isOf record = true → found = entry := by
      intro hkey
      have hmem : found ∈ (current.recordsOf other).filter (StoredRecord.isOf · record) :=
        List.mem_filter.mpr ⟨member, hkey⟩
      rw [hfilter] at hmem
      exact List.mem_singleton.mp hmem
    have hentry : entry ∈ (current.recordsOf other).filter (StoredRecord.isOf · record) := by
      rw [hfilter]
      exact List.mem_singleton_self _
    obtain ⟨hstored, hkey⟩ := List.mem_filter.mp hentry
    unfold touch
    by_cases hid : found.record.id = entry.record.id
    · obtain rfl := Store.eq_of_same_id member hstored hid
      rw [if_pos rfl, if_pos hkey, hstale]
    · rw [if_neg hid, if_neg]
      intro hkey'
      exact hid (congrArg (fun found : StoredRecord X => found.record.id) (hsole hkey'))
  rwa [hpatched]

/-- The step of a record that is missing: its POST. -/
theorem add (hmatching : current.matching zoneId record.recordType.asStr record.name = [])
    (hmakes : makes record entry)
    (hfresh : ∀ found ∈ current.recordsOf zoneId, found.record.id ≠ entry.record.id) :
    Converged settle makes (done ++ [record]) origin (current.add zoneId entry hfresh) := by
  refine h.step hdistinct hhosts rfl (fun other hdiffer => ?_) fun other hosted hsame => ?_
  · rw [Store.recordsOf_add, if_neg hdiffer]
  obtain ⟨-, hnew, hexclusive⟩ := hosted_append hdistinct hosted
  rw [Store.recordsOf_add, if_pos hsame, ← Store.recordsOf_congr hsame]
  have hnone := h.unseen hdistinct hhosts hlawful
  rw [hmatching] at hnone
  refine (h.reconciled other).create hlawful hexclusive hnew (fun old member => ?_) hmakes
  rw [Store.recordsOf_congr hsame] at member
  rw [← Bool.not_eq_true]
  exact List.filter_eq_nil_iff.mp hnone.symm old member

end

end

end Converged

/-- The store has the record as it is configured, with the address that was found. -/
def Synchronized (addresses : DiscoveredAddresses) (store : Store X) (record : RecordConfig) :
    Prop :=
  ∃ address, addresses.forRecord record = .ok address ∧
    ∀ zoneId, store.hosts zoneId record = true → ∃ entry,
      store.matching zoneId record.recordType.asStr record.name = [entry] ∧
        isUpToDate record address entry.record = true

namespace Store

variable {store : Store X} {record : RecordConfig}

/-- The stored record of a configured one. -/
def stored (store : Store X) (record : RecordConfig) : Option (StoredRecord X) :=
  (store.home record).bind fun zone =>
    (store.matching zone.id record.recordType.asStr record.name).head?

/-- A record that is stored, or may be made. -/
def manages (store : Store X) (record : RecordConfig) : Bool :=
  (store.stored record).isSome || record.createIfMissing

/-- What a cycle makes of a record. One that is missing and may not be made is a failure. -/
def outcome (addresses : DiscoveredAddresses) (store : Store X) (record : RecordConfig) :
    Option RecordOutcome :=
  match addresses.forRecord record, store.stored record with
  | .error _, _ => none
  | .ok address, some entry =>
      if isUpToDate record address entry.record then some .unchanged else some .updated
  | .ok _, none => if record.createIfMissing then some .created else none

omit [Externals] in
theorem stored_eq {zoneId : String} (hhosts : store.hosts zoneId record = true) :
    store.stored record =
      (store.matching zoneId record.recordType.asStr record.name).head? := by
  obtain ⟨zone, hhome, hid⟩ := hosts_iff.mp hhosts
  unfold stored matching
  rw [hhome, Option.bind_some, recordsOf_congr hid]

omit [Externals] in
theorem manages_of_stored {store' : Store X} (h : store'.stored record = store.stored record) :
    store'.manages record = store.manages record := by
  unfold manages
  rw [h]

end Store

/-- A store in which a configuration finds its records: all zones are active, each record has
one of them, and there is at most one stored record for it. -/
structure Resolvable (records : List RecordConfig) (store : Store X) : Prop where
  active : ∀ zone ∈ store.zones, zone.isActive = true
  home : ∀ record ∈ records, ∃ zone, store.home record = some zone
  single : ∀ record ∈ records, ∀ zoneId, store.hosts zoneId record = true →
    (store.matching zoneId record.recordType.asStr record.name).length ≤ 1

omit [Externals] in
theorem Resolvable.mono {records records' : List RecordConfig} {store : Store X}
    (h : Resolvable records store) (hsub : ∀ record ∈ records', record ∈ records) :
    Resolvable records' store where
  active := h.active
  home := fun record member => h.home record (hsub record member)
  single := fun record member => h.single record (hsub record member)

omit [Externals] in
/-- What a record finds in its zone is what is stored for it. -/
theorem Resolvable.matching_eq {records : List RecordConfig} {store : Store X}
    (h : Resolvable records store) {record : RecordConfig} (member : record ∈ records)
    {zoneId : String} (hhosts : store.hosts zoneId record = true) :
    store.matching zoneId record.recordType.asStr record.name = (store.stored record).toList := by
  have hsingle := h.single record member zoneId hhosts
  rw [Store.stored_eq hhosts]
  cases hmatching : store.matching zoneId record.recordType.asStr record.name with
  | nil => rfl
  | cons entry rest =>
      rw [hmatching, List.length_cons] at hsingle
      rw [List.eq_nil_of_length_eq_zero (by omega : rest.length = 0)]
      rfl

/-- Every record has an address that reads as itself. -/
def Addressed (records : List RecordConfig) (addresses : DiscoveredAddresses) : Prop :=
  ∀ record ∈ records, ∃ address, addresses.forRecord record = .ok address ∧
    parseIpAddr (formatIpAddr address) = some address

theorem isUpToDate_payload {record : RecordConfig} {address : IpAddr} {existing : DnsRecord}
    (hreads : parseIpAddr (formatIpAddr address) = some address)
    (hcontent : existing.content = formatIpAddr address) (httl : existing.ttl = record.ttl)
    (hproxied : existing.proxied = record.proxied) :
    isUpToDate record address existing = true := by
  unfold isUpToDate
  rw [hcontent, hreads, httl, hproxied]
  simp

/-- A record that is as it is configured is left alone. -/
theorem Synchronized.outcome_eq {addresses : DiscoveredAddresses} {records : List RecordConfig}
    {store : Store X} {record : RecordConfig} (h : Synchronized addresses store record)
    (hresolvable : Resolvable records store) (member : record ∈ records) :
    store.outcome addresses record = some .unchanged := by
  obtain ⟨address, haddress, hentry⟩ := h
  obtain ⟨zone, hhome⟩ := hresolvable.home record member
  have hhosts : store.hosts zone.id record = true :=
    Store.hosts_iff.mpr ⟨zone, hhome, eqIgnoreAsciiCase_refl _⟩
  obtain ⟨entry, hmatching, hcurrent⟩ := hentry zone.id hhosts
  have hstored : store.stored record = some entry := by
    rw [Store.stored_eq hhosts, hmatching]
    rfl
  unfold Store.outcome
  rw [haddress, hstored]
  exact if_pos hcurrent

theorem Store.outcome_unmanaged {addresses : DiscoveredAddresses} {records : List RecordConfig}
    {store : Store X} {record : RecordConfig} (haddressed : Addressed records addresses)
    (member : record ∈ records) (hunmanaged : store.manages record = false) :
    store.outcome addresses record = none := by
  obtain ⟨address, haddress, -⟩ := haddressed record member
  obtain ⟨hmissing, hcreate⟩ := Bool.or_eq_false_iff.mp hunmanaged
  unfold Store.outcome
  rw [haddress, Option.isNone_iff_eq_none.mp (Option.isSome_eq_false_iff.mp hmissing), hcreate]
  rfl

omit [Externals] in
/-- One more record of a configuration, which is not among those chosen from it. -/
theorem DistinctRecords.concat {records chosen : List RecordConfig} (h : DistinctRecords records)
    (hchosen : chosen.Sublist records) {record : RecordConfig} (member : record ∈ records)
    (hnew : record ∉ chosen) : DistinctRecords (chosen ++ [record]) := by
  have hsub : ∀ other ∈ chosen ++ [record], other ∈ records := by
    intro other hother
    rcases List.mem_append.mp hother with hother | hother
    · exact hchosen.subset hother
    · rw [List.mem_singleton.mp hother]
      exact member
  refine ⟨fun other hother => h.valid other (hsub other hother), fun other hother other' hother' =>
    h.keys other (hsub other hother) other' (hsub other' hother'), ?_⟩
  refine List.nodup_append.mpr ⟨h.nodup.sublist hchosen, List.nodup_singleton _, ?_⟩
  intro other hother other' hother' heq
  rw [List.mem_singleton.mp hother'] at heq
  exact hnew (heq ▸ hother)

namespace Converged

section

omit [Externals]

variable {settle : RecordConfig → StoredRecord X → StoredRecord X}
  {makes : RecordConfig → StoredRecord X → Prop} {records chosen : List RecordConfig}
  {origin final : Store X} (hdistinct : DistinctRecords records)
  (hlawful : Lawful StoredRecord.isOf settle makes) (hresolvable : Resolvable records origin)
  (hchosen : chosen.Sublist records) (h : Converged settle makes chosen origin final)
  {record : RecordConfig} (member : record ∈ records)

include hdistinct hlawful hresolvable hchosen h

/-- A record finds what is settled or made for it, or else what it would have found. -/
theorem matching_cases {zoneId : String} (hhosts : origin.hosts zoneId record = true)
    (member : record ∈ records) :
    (record ∉ chosen ∧ final.matching zoneId record.recordType.asStr record.name =
        (origin.stored record).toList) ∨
      record ∈ chosen ∧ ∃ entry,
        final.matching zoneId record.recordType.asStr record.name = [entry] ∧
          (∀ old, origin.stored record = some old → entry = settle record old) ∧
          (origin.stored record = none → makes record entry) := by
  have hmatching := hresolvable.matching_eq member hhosts
  by_cases hmember : record ∈ chosen
  · refine .inr ⟨hmember, ?_⟩
    have hsub := hdistinct.sublist hchosen
    have hexclusive := hsub.exclusive origin zoneId
    have hhosted : record ∈ chosen.filter (origin.hosts zoneId) :=
      List.mem_filter.mpr ⟨hmember, hhosts⟩
    cases hstored : origin.stored record with
    | none =>
        rw [hstored] at hmatching
        obtain ⟨entry, hfilter, hmade⟩ := (h.reconciled zoneId).made hlawful hexclusive hhosted
          (hsub.nodup.filter _) fun old hold => by
            rw [← Bool.not_eq_true]
            exact List.filter_eq_nil_iff.mp hmatching old hold
        refine ⟨entry, hfilter, fun old hold => ?_, fun _ => hmade⟩
        cases hold
    | some old =>
        rw [hstored] at hmatching
        have hsole : (origin.recordsOf zoneId).filter (StoredRecord.isOf · record) = [old] :=
          hmatching
        have hold : old ∈ (origin.recordsOf zoneId).filter (StoredRecord.isOf · record) := by
          rw [hsole]
          exact List.mem_singleton_self _
        obtain ⟨hentry, hkey⟩ := List.mem_filter.mp hold
        have hfilter := (h.reconciled zoneId).settled hlawful hexclusive hhosted
          ⟨old, hentry, hkey⟩
        rw [hsole] at hfilter
        refine ⟨settle record old, hfilter, fun other hother => ?_, fun hnone => ?_⟩
        · cases hother
          rfl
        · cases hnone
  · refine .inl ⟨hmember, ?_⟩
    rw [h.unseen (hdistinct.concat hchosen member hmember) hhosts hlawful, hmatching]

/-- A configuration can go on with the store that it has reached. -/
theorem resolvable : Resolvable records final where
  active := by
    rw [h.zones]
    exact hresolvable.active
  home := by
    intro record member
    rw [Store.home_of_zones h.zones]
    exact hresolvable.home record member
  single := by
    intro record member zoneId hhosts
    rw [Store.hosts_of_zones h.zones] at hhosts
    rcases h.matching_cases hdistinct hlawful hresolvable hchosen hhosts member with
      ⟨-, hsame⟩ | ⟨-, entry, hentry, -⟩
    · rw [hsame]
      exact Option.length_toList_le
    · rw [hentry, List.length_singleton]

include member

/-- What is stored for a record that was not chosen is what it was. -/
theorem stored_other (hother : record ∉ chosen) : final.stored record = origin.stored record := by
  obtain ⟨zone, hhome⟩ := hresolvable.home record member
  have hhosts : origin.hosts zone.id record = true :=
    Store.hosts_iff.mpr ⟨zone, hhome, eqIgnoreAsciiCase_refl _⟩
  have hhosts' := hhosts
  rw [← Store.hosts_of_zones h.zones] at hhosts'
  rcases h.matching_cases hdistinct hlawful hresolvable hchosen hhosts member with
    ⟨-, hsame⟩ | ⟨hmember, -⟩
  · rw [Store.stored_eq hhosts', hsame]
    cases origin.stored record <;> rfl
  · exact absurd hmember hother

/-- What is stored for a chosen record is settled or made. -/
theorem stored_chosen (hmember : record ∈ chosen) : ∃ entry, final.stored record = some entry ∧
    (∀ old, origin.stored record = some old → entry = settle record old) ∧
    (origin.stored record = none → makes record entry) := by
  obtain ⟨zone, hhome⟩ := hresolvable.home record member
  have hhosts : origin.hosts zone.id record = true :=
    Store.hosts_iff.mpr ⟨zone, hhome, eqIgnoreAsciiCase_refl _⟩
  have hhosts' := hhosts
  rw [← Store.hosts_of_zones h.zones] at hhosts'
  rcases h.matching_cases hdistinct hlawful hresolvable hchosen hhosts member with
    ⟨hother, -⟩ | ⟨-, entry, hentry, hfacts⟩
  · exact absurd hmember hother
  · refine ⟨entry, ?_, hfacts⟩
    rw [Store.stored_eq hhosts', hentry]
    rfl

end

omit [Externals] in
/-- The records that are managed stay managed, and no others are. -/
theorem keeps_managed {settle : RecordConfig → StoredRecord X → StoredRecord X}
    {makes : RecordConfig → StoredRecord X → Prop} {records : List RecordConfig}
    {origin final : Store X} (hdistinct : DistinctRecords records)
    (hlawful : Lawful StoredRecord.isOf settle makes) (hresolvable : Resolvable records origin)
    (h : Converged settle makes (records.filter origin.manages) origin final)
    {record : RecordConfig} (member : record ∈ records) :
    final.manages record = origin.manages record := by
  by_cases hmanaged : origin.manages record = true
  · obtain ⟨entry, hstored, -⟩ := h.stored_chosen hdistinct hlawful hresolvable
      List.filter_sublist member (List.mem_filter.mpr ⟨member, hmanaged⟩)
    rw [hmanaged]
    unfold Store.manages
    rw [hstored]
    rfl
  · refine Store.manages_of_stored (h.stored_other hdistinct hlawful hresolvable
      List.filter_sublist member fun hmember => ?_)
    exact hmanaged (List.mem_filter.mp hmember).2

omit [Externals] in
/-- What settling keeps is kept of all that was stored. -/
theorem keeps {Y : Type} {settle : RecordConfig → StoredRecord X → StoredRecord X}
    {makes : RecordConfig → StoredRecord X → Prop} {records : List RecordConfig}
    {origin final : Store X} {kept : StoredRecord X → Y}
    (hkept : ∀ record entry, kept (settle record entry) = kept entry)
    (h : Converged settle makes records origin final) (zoneId : String) :
    (origin.recordsOf zoneId).map kept <+: (final.recordsOf zoneId).map kept := by
  obtain ⟨order, created, -, -, hfinal⟩ := h.reconciled zoneId
  rw [hfinal, List.map_append, List.map_map]
  have hsame : (origin.recordsOf zoneId).map (kept ∘ settleBy StoredRecord.isOf settle
      (records.filter (origin.hosts zoneId))) = (origin.recordsOf zoneId).map kept := by
    apply List.map_congr_left
    intro entry _
    simp only [Function.comp_apply]
    unfold settleBy
    cases (records.filter (origin.hosts zoneId)).find? (entry.isOf ·) with
    | none => rfl
    | some record => exact hkept record entry
  rw [hsame]
  exact List.prefix_append _ _

omit [Externals] in
/-- A store that is reconciled twice is reconciled with both. -/
theorem trans {settle settle' : RecordConfig → StoredRecord X → StoredRecord X}
    {makes makes' : RecordConfig → StoredRecord X → Prop} {records : List RecordConfig}
    {origin middle final : Store X} (hdistinct : DistinctRecords records)
    (hlawful : Lawful StoredRecord.isOf settle makes)
    (h : Converged settle makes records origin middle)
    (h' : Converged settle' makes' records middle final) :
    Converged (fun record entry => settle' record (settle record entry))
      (MadeThen makes settle') records origin final where
  zones := h'.zones.trans h.zones
  reconciled := by
    intro zoneId
    have hhosts : records.filter (middle.hosts zoneId) = records.filter (origin.hosts zoneId) :=
      List.filter_congr fun record _ => Store.hosts_of_zones h.zones zoneId record
    have hnext := h'.reconciled zoneId
    rw [hhosts] at hnext
    exact (h.reconciled zoneId).trans hlawful (hdistinct.exclusive origin zoneId) hnext

variable {addresses : DiscoveredAddresses} {records : List RecordConfig} {origin final : Store X}

/-- Where every record is as it is configured, the store stays what it was. -/
theorem unchanged
    (h : Converged (StoredRecord.settle addresses) (StoredRecord.MadeFor addresses) records
      origin final) (hsynchronized : ∀ record ∈ records, Synchronized addresses origin record)
    (zoneId : String) : final.recordsOf zoneId = origin.recordsOf zoneId := by
  apply (h.reconciled zoneId).stable
  intro record hmember
  obtain ⟨member, hhosts⟩ := List.mem_filter.mp hmember
  obtain ⟨address, haddress, hentry⟩ := hsynchronized record member
  obtain ⟨entry, hmatching, hcurrent⟩ := hentry zoneId hhosts
  have hentry : entry ∈ origin.matching zoneId record.recordType.asStr record.name := by
    rw [hmatching]
    exact List.mem_singleton_self _
  obtain ⟨hstored, hkey⟩ := List.mem_filter.mp hentry
  refine ⟨⟨entry, hstored, hkey⟩, fun found hfound hfoundKey => ?_⟩
  have hsole : found ∈ origin.matching zoneId record.recordType.asStr record.name :=
    List.mem_filter.mpr ⟨hfound, hfoundKey⟩
  rw [hmatching, List.mem_singleton] at hsole
  subst hsole
  unfold StoredRecord.settle
  simp only [haddress, hcurrent, if_true]

section

variable {record : RecordConfig} (hdistinct : DistinctRecords records)
  (haddressed : Addressed records addresses) (hresolvable : Resolvable records origin)
  (h : Converged (StoredRecord.settle addresses) (StoredRecord.MadeFor addresses)
    (records.filter origin.manages) origin final) (member : record ∈ records)

include hdistinct haddressed hresolvable h member

/-- The store that is reached has every record that it manages as it is configured. -/
theorem synchronized (hmanaged : origin.manages record = true) :
    Synchronized addresses final record := by
  obtain ⟨address, haddress, hreads⟩ := haddressed record member
  refine ⟨address, haddress, fun zoneId hhosts => ?_⟩
  rw [Store.hosts_of_zones h.zones] at hhosts
  rcases h.matching_cases hdistinct (settle_lawful addresses) hresolvable List.filter_sublist
    hhosts member with ⟨hother, -⟩ | ⟨-, entry, hentry, hsettled, hmade⟩
  · exact absurd (List.mem_filter.mpr ⟨member, hmanaged⟩) hother
  · refine ⟨entry, hentry, ?_⟩
    cases hstored : origin.stored record with
    | none =>
        obtain ⟨found, hfound, heq⟩ := hmade hstored
        rw [haddress] at hfound
        cases hfound
        rw [heq]
        exact isUpToDate_payload hreads rfl rfl rfl
    | some old =>
        rw [hsettled old hstored]
        unfold StoredRecord.settle
        simp only [haddress]
        by_cases hcurrent : isUpToDate record address old.record = true
        · rw [if_pos hcurrent]
          exact hcurrent
        · rw [if_neg hcurrent]
          exact isUpToDate_payload hreads rfl rfl rfl

omit haddressed in
theorem manages_eq : final.manages record = origin.manages record :=
  h.keeps_managed hdistinct (settle_lawful addresses) hresolvable member

/-- What the next cycle makes of a record: nothing that is new. -/
theorem outcome_eq :
    final.outcome addresses record = if origin.manages record then some .unchanged else none := by
  have hfinal := h.resolvable hdistinct (settle_lawful addresses) hresolvable List.filter_sublist
  have hmanages := h.manages_eq hdistinct hresolvable member
  cases hmanaged : origin.manages record with
  | true =>
      exact (h.synchronized hdistinct haddressed hresolvable member hmanaged).outcome_eq hfinal
        member
  | false => exact Store.outcome_unmanaged haddressed member (hmanages.trans hmanaged)

end

end Converged

end Cirrusync
