import Cirrusync.Updater
import Mathlib.Data.List.Nodup
import Mathlib.Data.List.Pairwise

/-!
The DNS records as the API keeps them: zones with fixed names and, in each zone,
records with ids of their own. A record has the fields that the client reads and
others that it does not. PATCH merges the fields it sends, POST adds a record.
-/

namespace Cirrusync

open Text

/-- The fields that a PATCH sends. -/
structure RecordEdit where
  recordType : String
  name : String
  content : Option String
  ttl : Nat
  proxied : Option Bool
  deriving DecidableEq, Repr

def RecordPayload.edit (payload : RecordPayload) : RecordEdit :=
  { recordType := payload.recordType
    name := payload.name
    content := some payload.content
    ttl := payload.ttl
    proxied := some payload.proxied }

def EditProbePayload.edit (payload : EditProbePayload) : RecordEdit :=
  { recordType := payload.recordType
    name := payload.name
    content := none
    ttl := payload.ttl
    proxied := none }

/-- The record that a POST adds, under the id that it gets. -/
def RecordPayload.record (payload : RecordPayload) (id : String) : DnsRecord :=
  { id := id
    recordType := payload.recordType
    name := payload.name
    content := payload.content
    ttl := payload.ttl
    proxied := payload.proxied }

def DnsRecord.merge (record : DnsRecord) (edit : RecordEdit) : DnsRecord :=
  { id := record.id
    recordType := edit.recordType
    name := edit.name
    content := edit.content.getD record.content
    ttl := edit.ttl
    proxied := edit.proxied.getD record.proxied }

@[simp] theorem DnsRecord.merge_id (record : DnsRecord) (edit : RecordEdit) :
    (record.merge edit).id = record.id := rfl

/-- Two names of one record type and name. -/
def SameKey (recordType name recordType' name' : String) : Prop :=
  eqIgnoreAsciiCase recordType recordType' = true ∧ eqIgnoreAsciiCase name name' = true

theorem DnsRecord.isExactMatch_iff (recordType name : String) (record : DnsRecord) :
    record.isExactMatch recordType name = true ↔
      SameKey record.recordType record.name recordType name := by
  simp [DnsRecord.isExactMatch, SameKey, and_comm]

theorem SameKey.symm {recordType name recordType' name' : String}
    (h : SameKey recordType name recordType' name') :
    SameKey recordType' name' recordType name :=
  ⟨eqIgnoreAsciiCase_symm h.1, eqIgnoreAsciiCase_symm h.2⟩

theorem SameKey.trans {recordType name recordType' name' recordType'' name'' : String}
    (h : SameKey recordType name recordType' name')
    (g : SameKey recordType' name' recordType'' name'') :
    SameKey recordType name recordType'' name'' :=
  ⟨eqIgnoreAsciiCase_trans h.1 g.1, eqIgnoreAsciiCase_trans h.2 g.2⟩

/-- Records of one key match the same queries. -/
theorem isExactMatch_congr {record record' : DnsRecord}
    (h : SameKey record.recordType record.name record'.recordType record'.name)
    (recordType name : String) :
    record.isExactMatch recordType name = record'.isExactMatch recordType name := by
  rw [Bool.eq_iff_iff, DnsRecord.isExactMatch_iff, DnsRecord.isExactMatch_iff]
  exact ⟨h.symm.trans, h.trans⟩

/-- One query in two spellings. -/
theorem isExactMatch_sameKey {recordType name recordType' name' : String}
    (h : SameKey recordType name recordType' name') (record : DnsRecord) :
    record.isExactMatch recordType name = record.isExactMatch recordType' name' := by
  rw [Bool.eq_iff_iff, DnsRecord.isExactMatch_iff, DnsRecord.isExactMatch_iff]
  exact ⟨fun hmatch => hmatch.trans h, fun hmatch => hmatch.trans h.symm⟩

/-- A record of the store: what the client reads of it, and the rest. -/
structure StoredRecord (X : Type) where
  record : DnsRecord
  unmanaged : X
  deriving DecidableEq, Repr

variable {X : Type}

def StoredRecord.merge (stored : StoredRecord X) (edit : RecordEdit) : StoredRecord X :=
  { stored with record := stored.record.merge edit }

def StoredRecord.isMatch (recordType name : String) (stored : StoredRecord X) : Bool :=
  stored.record.isExactMatch recordType name

/-- No two records have one id. -/
def DistinctIds (stored : List (StoredRecord X)) : Prop :=
  (stored.map fun entry => entry.record.id).Nodup

/-- The records after the one with an id has been edited. -/
def editRecords (stored : List (StoredRecord X)) (recordId : String) (edit : RecordEdit) :
    List (StoredRecord X) :=
  stored.map fun entry => if entry.record.id = recordId then entry.merge edit else entry

theorem ids_editRecords (stored : List (StoredRecord X)) (recordId : String)
    (edit : RecordEdit) :
    (editRecords stored recordId edit).map (fun entry => entry.record.id) =
      stored.map fun entry => entry.record.id := by
  unfold editRecords
  rw [List.map_map]
  apply List.map_congr_left
  intro entry _
  simp only [Function.comp_apply]
  split <;> rfl

theorem editRecords_absent {stored : List (StoredRecord X)} {recordId : String}
    {edit : RecordEdit} (h : ∀ entry ∈ stored, entry.record.id ≠ recordId) :
    editRecords stored recordId edit = stored := by
  unfold editRecords
  calc stored.map (fun entry => if entry.record.id = recordId then entry.merge edit else entry)
      = stored.map id := List.map_congr_left fun entry member => if_neg (h entry member)
    _ = stored := List.map_id stored

theorem zone_distinct (zone : Zone) :
    [zone].Pairwise fun zone zone' => eqIgnoreAsciiCase zone.id zone'.id = false :=
  List.pairwise_singleton _ _

/-- A store: its zones, and the records by the lowercase id of their zone. -/
structure Store (X : Type) where
  zones : List Zone
  records : String → List (StoredRecord X)
  zones_distinct : zones.Pairwise fun zone zone' => eqIgnoreAsciiCase zone.id zone'.id = false
  ids_distinct : ∀ zoneId, DistinctIds (records zoneId)

namespace Store

variable (store : Store X)

def recordsOf (zoneId : String) : List (StoredRecord X) :=
  store.records (toAsciiLowercase zoneId)

/-- The records that a query by type and name selects. -/
def matching (zoneId recordType name : String) : List (StoredRecord X) :=
  (store.recordsOf zoneId).filter (StoredRecord.isMatch recordType name)

/-- The same as the client reads them. -/
def listing (zoneId recordType name : String) : List DnsRecord :=
  (store.matching zoneId recordType name).map StoredRecord.record

/-- A zone of the store under its name and id. -/
def Names (zoneName zoneId : String) : Prop :=
  ∃ zone ∈ store.zones, eqIgnoreAsciiCase zone.name zoneName = true ∧
    eqIgnoreAsciiCase zone.id zoneId = true

/-- PATCH: the record with the id, if there is one, takes the fields sent. -/
def patch (zoneId recordId : String) (edit : RecordEdit) : Store X where
  zones := store.zones
  records := Function.update store.records (toAsciiLowercase zoneId)
    (editRecords (store.recordsOf zoneId) recordId edit)
  zones_distinct := store.zones_distinct
  ids_distinct := by
    intro other
    by_cases hzone : other = toAsciiLowercase zoneId
    · subst hzone
      rw [Function.update_self, DistinctIds, ids_editRecords]
      exact store.ids_distinct _
    · rw [Function.update_of_ne hzone]
      exact store.ids_distinct other

/-- POST: a record with an id that the zone does not have yet. -/
def add (zoneId : String) (stored : StoredRecord X)
    (hfresh : ∀ entry ∈ store.recordsOf zoneId, entry.record.id ≠ stored.record.id) :
    Store X where
  zones := store.zones
  records := Function.update store.records (toAsciiLowercase zoneId)
    (store.recordsOf zoneId ++ [stored])
  zones_distinct := store.zones_distinct
  ids_distinct := by
    intro other
    by_cases hzone : other = toAsciiLowercase zoneId
    · subst hzone
      rw [Function.update_self, DistinctIds, List.map_append, List.map_singleton,
        List.nodup_append]
      refine ⟨store.ids_distinct _, List.nodup_singleton _, ?_⟩
      intro id member id' member'
      obtain ⟨entry, hentry, rfl⟩ := List.mem_map.mp member
      rw [List.mem_singleton.mp member']
      exact hfresh entry hentry
    · rw [Function.update_of_ne hzone]
      exact store.ids_distinct other

variable {store}

theorem recordsOf_patch (zoneId recordId : String) (edit : RecordEdit) (other : String) :
    (store.patch zoneId recordId edit).recordsOf other =
      if eqIgnoreAsciiCase other zoneId = true then
        editRecords (store.recordsOf zoneId) recordId edit
      else store.recordsOf other := by
  unfold recordsOf patch
  simp only [eqIgnoreAsciiCase_iff, Function.update_apply]
  rfl

theorem recordsOf_add (zoneId : String) (stored : StoredRecord X)
    (hfresh : ∀ entry ∈ store.recordsOf zoneId, entry.record.id ≠ stored.record.id)
    (other : String) :
    (store.add zoneId stored hfresh).recordsOf other =
      if eqIgnoreAsciiCase other zoneId = true then store.recordsOf zoneId ++ [stored]
      else store.recordsOf other := by
  unfold recordsOf add
  simp only [eqIgnoreAsciiCase_iff, Function.update_apply]
  rfl

theorem recordsOf_congr {zoneId zoneId' : String}
    (h : eqIgnoreAsciiCase zoneId zoneId' = true) :
    store.recordsOf zoneId = store.recordsOf zoneId' := by
  unfold recordsOf
  rw [(eqIgnoreAsciiCase_iff _ _).mp h]

theorem matching_congr {zoneId recordType name zoneId' recordType' name' : String}
    (hzone : eqIgnoreAsciiCase zoneId zoneId' = true)
    (hkey : SameKey recordType name recordType' name') :
    store.matching zoneId recordType name = store.matching zoneId' recordType' name' := by
  unfold matching
  rw [recordsOf_congr hzone]
  exact List.filter_congr fun entry _ => isExactMatch_sameKey hkey entry.record

theorem mem_matching_iff {zoneId recordType name : String} {entry : StoredRecord X} :
    entry ∈ store.matching zoneId recordType name ↔ entry ∈ store.recordsOf zoneId ∧
      SameKey entry.record.recordType entry.record.name recordType name := by
  unfold matching
  rw [List.mem_filter, StoredRecord.isMatch, DnsRecord.isExactMatch_iff]

/-- Records of one zone with one id are one record. -/
theorem eq_of_same_id {zoneId : String} {entry entry' : StoredRecord X}
    (h : entry ∈ store.recordsOf zoneId) (h' : entry' ∈ store.recordsOf zoneId)
    (hid : entry.record.id = entry'.record.id) : entry = entry' :=
  List.inj_on_of_nodup_map (store.ids_distinct _) h h' hid

theorem distinct_zones {zone zone' : Zone} (h : zone ∈ store.zones)
    (h' : zone' ∈ store.zones) (hne : zone ≠ zone') :
    eqIgnoreAsciiCase zone.id zone'.id = false := by
  have : Std.Symm fun zone zone' : Zone => eqIgnoreAsciiCase zone.id zone'.id = false := by
    constructor
    intro zone zone' hdiffer
    rw [← Bool.not_eq_true] at hdiffer ⊢
    exact fun hsame => hdiffer (eqIgnoreAsciiCase_symm hsame)
  exact store.zones_distinct.forall h h' hne

/-- The zone names of one zone id are one name. -/
theorem names_unique {zoneName zoneName' zoneId : String}
    (h : store.Names zoneName zoneId) (h' : store.Names zoneName' zoneId) :
    eqIgnoreAsciiCase zoneName zoneName' = true := by
  obtain ⟨zone, member, hname, hid⟩ := h
  obtain ⟨zone', member', hname', hid'⟩ := h'
  have hsame : zone = zone' := by
    by_contra hne
    have hsame := eqIgnoreAsciiCase_trans hid (eqIgnoreAsciiCase_symm hid')
    have hdiffer := distinct_zones member member' hne
    rw [hsame] at hdiffer
    cases hdiffer
  subst hsame
  exact eqIgnoreAsciiCase_trans (eqIgnoreAsciiCase_symm hname) hname'

theorem names_ignoresCase {zoneName zoneName' zoneId zoneId' : String}
    (h : store.Names zoneName zoneId) (hname : eqIgnoreAsciiCase zoneName zoneName' = true)
    (hid : eqIgnoreAsciiCase zoneId zoneId' = true) : store.Names zoneName' zoneId' := by
  obtain ⟨zone, member, hzone, hzoneId⟩ := h
  exact ⟨zone, member, eqIgnoreAsciiCase_trans hzone hname,
    eqIgnoreAsciiCase_trans hzoneId hid⟩

/-- An edit that keeps the key of its record keeps what every query selects, up to
the edit itself. -/
theorem matching_patch {zoneId recordId : String} {edit : RecordEdit}
    (hkey : ∀ entry ∈ store.recordsOf zoneId, entry.record.id = recordId →
      SameKey entry.record.recordType entry.record.name edit.recordType edit.name)
    (other recordType name : String) :
    (store.patch zoneId recordId edit).matching other recordType name =
      if eqIgnoreAsciiCase other zoneId = true then
        editRecords (store.matching other recordType name) recordId edit
      else store.matching other recordType name := by
  unfold matching
  rw [recordsOf_patch]
  split
  · rename_i hzone
    rw [recordsOf_congr hzone]
    unfold editRecords
    rw [List.filter_map]
    congr 1
    apply List.filter_congr
    intro entry member
    simp only [Function.comp_apply]
    split
    · rename_i hid
      exact (isExactMatch_congr (hkey entry member hid) recordType name).symm
    · rfl
  · rfl

theorem matching_add {zoneId : String} {stored : StoredRecord X}
    (hfresh : ∀ entry ∈ store.recordsOf zoneId, entry.record.id ≠ stored.record.id)
    (other recordType name : String) :
    (store.add zoneId stored hfresh).matching other recordType name =
      if eqIgnoreAsciiCase other zoneId = true ∧ stored.isMatch recordType name = true then
        store.matching other recordType name ++ [stored]
      else store.matching other recordType name := by
  unfold matching
  rw [recordsOf_add]
  by_cases hzone : eqIgnoreAsciiCase other zoneId = true
  · rw [if_pos hzone, ← recordsOf_congr hzone, List.filter_append]
    by_cases hmatch : stored.isMatch recordType name = true
    · simp [hzone, hmatch]
    · simp [hmatch]
  · rw [if_neg hzone, if_neg fun h => hzone h.1]

@[simp] theorem length_listing (zoneId recordType name : String) :
    (store.listing zoneId recordType name).length =
      (store.matching zoneId recordType name).length := by
  simp [listing]

theorem listing_congr {zoneId recordType name zoneId' recordType' name' : String}
    (hzone : eqIgnoreAsciiCase zoneId zoneId' = true)
    (hkey : SameKey recordType name recordType' name') :
    store.listing zoneId recordType name = store.listing zoneId' recordType' name' := by
  unfold listing
  rw [matching_congr hzone hkey]

theorem sameKey_of_mem_listing {zoneId recordType name : String} {record : DnsRecord}
    (h : record ∈ store.listing zoneId recordType name) :
    SameKey record.recordType record.name recordType name := by
  obtain ⟨entry, hmatching, rfl⟩ := List.mem_map.mp h
  exact (mem_matching_iff.mp hmatching).2

/-- Where a query shows one record, that one alone has its id, and the key asked. -/
theorem sameKey_of_listing {zoneId recordType name : String} {existing : DnsRecord}
    (hlisting : store.listing zoneId recordType name = [existing]) :
    ∀ entry ∈ store.recordsOf zoneId, entry.record.id = existing.id →
      SameKey entry.record.recordType entry.record.name recordType name := by
  intro entry member hid
  have hshown : existing ∈ store.listing zoneId recordType name := by
    rw [hlisting]
    exact List.mem_singleton_self _
  obtain ⟨found, hmatching, rfl⟩ := List.mem_map.mp hshown
  obtain ⟨hfound, hkey⟩ := mem_matching_iff.mp hmatching
  rw [eq_of_same_id member hfound hid]
  exact hkey

section

variable {zoneId recordId : String} {edit : RecordEdit}
  (hkey : ∀ entry ∈ store.recordsOf zoneId, entry.record.id = recordId →
    SameKey entry.record.recordType entry.record.name edit.recordType edit.name)

include hkey

theorem length_matching_patch (other recordType name : String) :
    ((store.patch zoneId recordId edit).matching other recordType name).length =
      (store.matching other recordType name).length := by
  rw [matching_patch hkey]
  split
  · simp [editRecords]
  · rfl

/-- What a query of another key selects is not edited. -/
theorem matching_patch_other {other recordType name : String}
    (hother : ¬ (eqIgnoreAsciiCase other zoneId = true ∧
      SameKey recordType name edit.recordType edit.name)) :
    (store.patch zoneId recordId edit).matching other recordType name =
      store.matching other recordType name := by
  rw [matching_patch hkey]
  split
  · rename_i hzone
    apply editRecords_absent
    intro entry member hid
    obtain ⟨hentry, hquery⟩ := mem_matching_iff.mp member
    rw [recordsOf_congr hzone] at hentry
    exact hother ⟨hzone, hquery.symm.trans (hkey entry hentry hid)⟩
  · rfl

end

/-- What a query of another key selects is not added to. -/
theorem matching_add_other {zoneId : String} {stored : StoredRecord X}
    (hfresh : ∀ entry ∈ store.recordsOf zoneId, entry.record.id ≠ stored.record.id)
    {other recordType name : String}
    (hother : ¬ (eqIgnoreAsciiCase other zoneId = true ∧
      SameKey recordType name stored.record.recordType stored.record.name)) :
    (store.add zoneId stored hfresh).matching other recordType name =
      store.matching other recordType name := by
  rw [matching_add, if_neg]
  rintro ⟨hzone, hmatch⟩
  exact hother ⟨hzone, ((DnsRecord.isExactMatch_iff _ _ _).mp hmatch).symm⟩

end Store

/-- What the API does to the store with a request: reads do nothing. -/
inductive Handles (store : Store X) : Request → Store X → Prop where
  | read {request : Request} : request.isMutation = false → Handles store request store
  | update (zoneId recordId : String) (payload : RecordPayload) :
      Handles store (.updateRecord zoneId recordId payload)
        (store.patch zoneId recordId payload.edit)
  | probe (zoneId recordId : String) (payload : EditProbePayload) :
      Handles store (.probeRecord zoneId recordId payload)
        (store.patch zoneId recordId payload.edit)
  | create (zoneId : String) (payload : RecordPayload) {id : String} (unmanaged : X)
      (hfresh : ∀ entry ∈ store.recordsOf zoneId, entry.record.id ≠ (payload.record id).id) :
      Handles store (.createRecord zoneId payload)
        (store.add zoneId ⟨payload.record id, unmanaged⟩ hfresh)

theorem Handles.of_read {store store' : Store X} {request : Request}
    (h : Handles store request store') (hread : request.isMutation = false) :
    store' = store := by
  cases h with
  | read => rfl
  | _ => cases hread

theorem Handles.zones {store store' : Store X} {request : Request}
    (h : Handles store request store') : store'.zones = store.zones := by
  cases h <;> rfl

end Cirrusync
