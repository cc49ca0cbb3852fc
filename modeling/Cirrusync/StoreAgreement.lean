import Cirrusync.SharedStore

/-!
The views of the processes agree with the world: what a process may do, the
others may bear. A handled mutation changes the records of one lock only, and
where there is more than one record of a key it is never of that key.
-/

namespace Cirrusync

open Effect Text Paging RuntimeLockIdentity

theorem RecordType.asStr_injective {recordType recordType' : RecordType}
    (h : eqIgnoreAsciiCase recordType.asStr recordType'.asStr = true) :
    recordType = recordType' := by
  cases recordType <;> cases recordType' <;> first | rfl | exact absurd h (by decide)

theorem eq_of_lower {s t : String} (hs : toAsciiLowercase s = s) (ht : toAsciiLowercase t = t)
    (h : eqIgnoreAsciiCase s t = true) : s = t := by
  rw [eqIgnoreAsciiCase_iff, hs, ht] at h
  exact h

/-- Records of one zone that the same queries select have one lock. -/
theorem resourceLockHash_of_sameKey {record record' : RecordConfig} (hvalid : ValidRecord record)
    (hvalid' : ValidRecord record')
    (hzone : eqIgnoreAsciiCase record.zone record'.zone = true)
    (hkey : SameKey record.recordType.asStr record.name record'.recordType.asStr record'.name) :
    resourceLockHash record = resourceLockHash record' := by
  have hzones := eq_of_lower hvalid.zone_lower hvalid'.zone_lower hzone
  have hnames := eq_of_lower hvalid.name_lower hvalid'.name_lower hkey.2
  have htypes := RecordType.asStr_injective hkey.1
  apply resourceLockHash_congr
  · rw [hzones]
  · exact htypes
  · rw [hnames]

section

variable {X : Type} {parent : String} {s : StoreView X} {store' : Store X}

/-- What a mutation of one key does to the queries. -/
structure Contained (store store' : Store X) (zoneId recordType name : String) : Prop where
  single : (store.listing zoneId recordType name).length ≤ 1
  bounded : (store'.listing zoneId recordType name).length ≤ 1
  other : ∀ other recordType' name', ¬ (eqIgnoreAsciiCase other zoneId = true ∧
    SameKey recordType' name' recordType name) →
    store'.listing other recordType' name' = store.listing other recordType' name'

theorem Contained.length_le {store store' : Store X} {zoneId recordType name : String}
    (h : Contained store store' zoneId recordType name) (other recordType' name' : String) :
    (store'.listing other recordType' name').length ≤
      max 1 (store.listing other recordType' name').length := by
  by_cases hsame : eqIgnoreAsciiCase other zoneId = true ∧
      SameKey recordType' name' recordType name
  · rw [Store.listing_congr hsame.1 hsame.2]
    exact le_trans h.bounded (le_max_left _ _)
  · rw [h.other _ _ _ hsame]
    exact le_max_right _ _

theorem contained_patch {store : Store X} {zoneId recordType name : String}
    {existing : DnsRecord} {edit : RecordEdit}
    (hlisting : store.listing zoneId recordType name = [existing])
    (hedit : SameKey edit.recordType edit.name recordType name) :
    Contained store (store.patch zoneId existing.id edit) zoneId recordType name := by
  have hkey : ∀ entry ∈ store.recordsOf zoneId, entry.record.id = existing.id →
      SameKey entry.record.recordType entry.record.name edit.recordType edit.name :=
    fun entry member hid => (Store.sameKey_of_listing hlisting entry member hid).trans hedit.symm
  refine ⟨by simp [hlisting], ?_, fun other recordType' name' hother => ?_⟩
  · rw [Store.length_listing, Store.length_matching_patch hkey, ← Store.length_listing, hlisting]
    exact le_refl 1
  · unfold Store.listing
    rw [Store.matching_patch_other hkey fun h => hother ⟨h.1, h.2.trans hedit⟩]

theorem contained_add {store : Store X} {zoneId recordType name : String}
    {stored : StoredRecord X}
    (hfresh : ∀ entry ∈ store.recordsOf zoneId, entry.record.id ≠ stored.record.id)
    (hlisting : store.listing zoneId recordType name = [])
    (hkey : SameKey stored.record.recordType stored.record.name recordType name) :
    Contained store (store.add zoneId stored hfresh) zoneId recordType name := by
  have hnone : store.matching zoneId recordType name = [] := by
    simpa [Store.listing] using hlisting
  refine ⟨by simp [hlisting], ?_, fun other recordType' name' hother => ?_⟩
  · rw [Store.length_listing, Store.matching_add, hnone]
    split <;> simp
  · unfold Store.listing
    rw [Store.matching_add_other hfresh fun h => hother ⟨h.1, h.2.trans hkey⟩]

/-- A mutation that may be sent is about one record whose lock is held. -/
theorem authorized_contained {request : Request} (h : s.Authorized parent request)
    (hhandles : Handles s.store request store') :
    store' = s.store ∨ ∃ record zoneId, s.Guards parent record zoneId ∧
      Contained s.store store' zoneId record.recordType.asStr record.name := by
  cases h with
  | read hread =>
      cases hhandles with
      | read => exact .inl rfl
      | update => cases hread
      | probe => cases hread
      | create => cases hread
  | @update record zoneId existing payload hguards hlisting htype hname =>
      cases hhandles with
      | read => exact .inl rfl
      | update =>
          refine .inr ⟨record, zoneId, hguards, contained_patch hlisting ?_⟩
          rw [RecordPayload.edit, htype, hname]
          exact ⟨eqIgnoreAsciiCase_refl _, eqIgnoreAsciiCase_refl _⟩
  | @probe record zoneId existing payload hguards hlisting htype hname =>
      cases hhandles with
      | read => exact .inl rfl
      | probe =>
          refine .inr ⟨record, zoneId, hguards, contained_patch hlisting ?_⟩
          rw [EditProbePayload.edit, htype, hname]
          exact Store.sameKey_of_mem_listing (by rw [← Store.listingOf, hlisting]; simp)
  | @create record zoneId payload hguards hlisting htype hname =>
      cases hhandles with
      | read => exact .inl rfl
      | create _ _ unmanaged hfresh =>
          refine .inr ⟨record, zoneId, hguards, contained_add hfresh hlisting ?_⟩
          rw [RecordPayload.record, htype, hname]
          exact ⟨eqIgnoreAsciiCase_refl _, eqIgnoreAsciiCase_refl _⟩

end

namespace StoreView

variable {X : Type} (parent : String)

/-- What a request was handled with is still what the store shows. -/
def Current (s : StoreView X) : Request → List DnsRecord → Prop
  | .listRecords zoneId recordType name _ _, listing => ∀ record,
      s.Guards parent record zoneId → recordType = record.recordType.asStr →
      name = record.name → listing = s.store.listingOf record zoneId
  | _, _ => True

end StoreView

/-- The world as the processes know it. Its queries select no more records than at
the origin, or one. -/
structure CloudAgrees {ι X : Type} (parent : String) (origin : Store X) (w : Cloud ι X)
    (views : ι → StoreView X) : Prop where
  store : ∀ i, (views i).store = w.store
  held : ∀ i path, path ∈ (views i).held ↔ w.locks path = some i
  cache : ∀ i, (views i).cache = w.caches i
  inFlight : ∀ i, (views i).inFlight = w.inFlight i
  pending : ∀ i request, (views i).pending = some request →
    ∃ handled, w.slots i = some ⟨request, handled⟩ ∧
      ∀ listing, handled = some listing → (views i).Current parent request listing
  waiting : ∀ i request, w.slots i = some ⟨request, none⟩ → request.isMutation = true →
    (views i).pending = some request ∧ (views i).Authorized parent request
  zones : w.store.zones = origin.zones
  bounded : ∀ zoneId recordType name, (w.store.listing zoneId recordType name).length ≤
    max 1 (origin.listing zoneId recordType name).length

section

variable {ι : Type} [DecidableEq ι]

/-- The locks of the other processes are not touched. -/
theorem locksAfter_other {table : LockTable ι} {i j : ι} (hne : j ≠ i) {step : Step}
    (hfree : ∀ path, step = ⟨.act (.tryLock path), .ok ()⟩ → table path = none)
    (path : String) : locksAfter table i step path = some j ↔ table path = some j := by
  unfold locksAfter
  split
  · rename_i tried
    have hnone := hfree tried rfl
    by_cases hpath : path = tried
    · subst hpath
      simp [hnone, Ne.symm hne]
    · simp [hpath]
  · simp [LockTable.release_eq_some_iff, hne]
  · simp [LockTable.release_eq_some_iff, hne]
  · rfl

theorem mem_heldAfter_iff {table : LockTable ι} {i : ι} {held : Set String}
    (hheld : ∀ path, path ∈ held ↔ table path = some i) (step : Step) (path : String) :
    path ∈ heldAfter held step ↔ locksAfter table i step path = some i := by
  unfold heldAfter locksAfter
  split
  · rename_i tried
    by_cases hpath : path = tried
    · simp [hpath]
    · simp [hpath, hheld]
  · simp [LockTable.release_eq_some_iff, hheld]
  · simp [LockTable.release_eq_some_iff, hheld]
  · exact hheld path

end

section

variable {X : Type} {parent : String} {s : StoreView X}

/-- While a mutation is open nothing is done about locks and requests but to await
its end. -/
theorem next_of_mutating (hmutating : s.Mutating) {op : Op} (hpermits : s.permits parent op)
    (answer : Ans op) (slot : Option Slot) :
    (∃ request, op = .finish (.http request)) ∨
      (openAfter s.pending ⟨op, answer⟩ = s.pending ∧
        heldAfter s.held ⟨op, answer⟩ = s.held ∧ slotAfter slot ⟨op, answer⟩ = slot) := by
  have hidle : ¬ s.Mutating → False := fun h => h hmutating
  cases op with
  | finish wait =>
      cases wait with
      | http request => exact .inl ⟨request, rfl⟩
      | query provider attemptTimeout => exact .inr ⟨rfl, rfl, rfl⟩
      | sleep duration => exact .inr ⟨rfl, rfl, rfl⟩
  | finishBefore deadline wait =>
      cases wait with
      | http request =>
          obtain ⟨hpending, hread⟩ := hpermits
          obtain ⟨open_, hopen, hmutation⟩ := hmutating
          rw [hpending] at hopen
          cases hopen
          rw [hread] at hmutation
          cases hmutation
      | query provider attemptTimeout => exact .inr ⟨rfl, rfl, rfl⟩
      | sleep duration => exact .inr ⟨rfl, rfl, rfl⟩
  | act action =>
      cases action with
      | begin wait =>
          cases wait with
          | http request => exact (hidle hpermits.1).elim
          | query provider attemptTimeout => exact .inr ⟨rfl, rfl, rfl⟩
          | sleep duration => exact .inr ⟨rfl, rfl, rfl⟩
      | tryLock path => exact (hidle hpermits).elim
      | unlock path => exact (hidle hpermits).elim
      | closeLock path => exact (hidle hpermits).elim
      | _ => exact .inr ⟨rfl, rfl, rfl⟩

/-- A request is pending because it has just begun, or was before. -/
theorem openAfter_some {pending : Option Request} {step : Step} {request : Request}
    (h : openAfter pending step = some request) (held : Set String) (slot : Option Slot) :
    slotAfter slot step = some ⟨request, none⟩ ∨
      (pending = some request ∧ heldAfter held step ⊆ held ∧ slotAfter slot step = slot) := by
  obtain ⟨op, answer⟩ := step
  cases op with
  | finish wait =>
      cases wait with
      | http request => cases h
      | query provider attemptTimeout => exact .inr ⟨h, subset_rfl, rfl⟩
      | sleep duration => exact .inr ⟨h, subset_rfl, rfl⟩
  | finishBefore deadline wait =>
      cases wait with
      | http request => cases h
      | query provider attemptTimeout => exact .inr ⟨h, subset_rfl, rfl⟩
      | sleep duration => exact .inr ⟨h, subset_rfl, rfl⟩
  | act action =>
      cases action with
      | begin wait =>
          cases wait with
          | http request =>
              cases h
              exact .inl rfl
          | query provider attemptTimeout => exact .inr ⟨h, subset_rfl, rfl⟩
          | sleep duration => exact .inr ⟨h, subset_rfl, rfl⟩
      | tryLock path => cases h
      | unlock path => exact .inr ⟨h, Set.sdiff_subset, rfl⟩
      | closeLock path => exact .inr ⟨h, Set.sdiff_subset, rfl⟩
      | _ => exact .inr ⟨h, subset_rfl, rfl⟩

theorem StoreView.Guards.of_held {s' : StoreView X} {record : RecordConfig} {zoneId : String}
    (h : s'.Guards parent record zoneId) (hheld : s'.held ⊆ s.held)
    (hstore : s'.store = s.store) : s.Guards parent record zoneId := by
  refine ⟨h.valid, hheld h.locked, ?_⟩
  rw [← hstore]
  exact h.named

theorem StoreView.Current.of_held {s' : StoreView X} {request : Request}
    {listing : List DnsRecord} (h : s.Current parent request listing)
    (hheld : s'.held ⊆ s.held) (hstore : s'.store = s.store) :
    s'.Current parent request listing := by
  cases request with
  | listRecords zoneId recordType name number perPage =>
      intro record hguards htype hname
      rw [hstore]
      exact h record (hguards.of_held hheld hstore) htype hname
  | _ => trivial

/-- What the store shows is current once a read was handled. -/
theorem selected_current {store : Store X} {request : Request} {store' : Store X}
    (hhandles : Handles store request store') (hstore : s.store = store') :
    s.Current parent request (store.selected request) := by
  cases request with
  | listRecords zoneId recordType name number perPage =>
      intro record _ htype hname
      rw [hstore, hhandles.of_read rfl, htype, hname]
      rfl
  | _ => trivial

theorem StoreView.Current.frame {s' : StoreView X} {request : Request}
    {listing : List DnsRecord} (h : s.Current parent request listing)
    (hguards : ∀ {record zoneId}, s'.Guards parent record zoneId →
      s.Guards parent record zoneId)
    (hframe : ∀ record zoneId, s.Guards parent record zoneId →
      s'.store.listingOf record zoneId = s.store.listingOf record zoneId) :
    s'.Current parent request listing := by
  cases request with
  | listRecords zoneId recordType name number perPage =>
      intro record hguarded htype hname
      rw [hframe _ _ (hguards hguarded)]
      exact h record (hguards hguarded) htype hname
  | _ => trivial

theorem slotAfter_waiting {slot : Option Slot} {op : Op} {answer : Ans op} {request : Request}
    (h : slotAfter slot ⟨op, answer⟩ = some ⟨request, none⟩) :
    op = .act (.begin (.http request)) ∨ slot = some ⟨request, none⟩ := by
  unfold slotAfter at h
  split at h
  · rename_i begun _ heq
    cases heq
    cases h
    exact .inl rfl
  · cases h
  · cases h
  · exact .inr h

/-- What is authorized stays so while the guarded records do. -/
theorem StoreView.Authorized.frame {s' : StoreView X} {request : Request}
    (h : s.Authorized parent request) (hheld : s'.held = s.held)
    (hzones : s'.store.zones = s.store.zones)
    (hframe : ∀ record zoneId, s.Guards parent record zoneId →
      s'.store.listingOf record zoneId = s.store.listingOf record zoneId) :
    s'.Authorized parent request := by
  have hguards' : ∀ {record zoneId}, s.Guards parent record zoneId →
      s'.Guards parent record zoneId := by
    intro record zoneId hguards
    refine ⟨hguards.valid, by rw [hheld]; exact hguards.locked, ?_⟩
    unfold Store.Names
    rw [hzones]
    exact hguards.named
  cases h with
  | read hread => exact .read hread
  | update hguards hlisting htype hname =>
      exact .update (hguards' hguards) ((hframe _ _ hguards).trans hlisting) htype hname
  | probe hguards hlisting htype hname =>
      exact .probe (hguards' hguards) ((hframe _ _ hguards).trans hlisting) htype hname
  | create hguards hlisting htype hname =>
      exact .create (hguards' hguards) ((hframe _ _ hguards).trans hlisting) htype hname

/-- A request that the server has not handled is authorized, from its begin on. -/
theorem waiting_next {slot : Option Slot} {op : Op} {answer : Ans op} {request : Request}
    (hslot : slotAfter slot ⟨op, answer⟩ = some ⟨request, none⟩)
    (hmutation : request.isMutation = true) (hpermits : s.permits parent op)
    (hbefore : slot = some ⟨request, none⟩ →
      s.pending = some request ∧ s.Authorized parent request) :
    (s.next ⟨op, answer⟩).pending = some request ∧
      (s.next ⟨op, answer⟩).Authorized parent request := by
  rcases slotAfter_waiting hslot with rfl | hwaiting
  · exact ⟨rfl, hpermits.2.1.frame rfl rfl fun _ _ _ => rfl⟩
  · obtain ⟨hpending, hauthorized⟩ := hbefore hwaiting
    rcases next_of_mutating ⟨request, hpending, hmutation⟩ hpermits answer slot with
      ⟨finished, rfl⟩ | ⟨hkept, hheld, -⟩
    · cases hslot
    · exact ⟨hkept.trans hpending, hauthorized.frame hheld rfl fun _ _ _ => rfl⟩

end

section

variable [Externals] {ι X : Type} [DecidableEq ι] {parent : String} {origin : Store X}
  {w : Cloud ι X} {views : ι → StoreView X}

omit [Externals] [DecidableEq ι] in
/-- What is delivered shows the guarded records as they are. -/
theorem shows_of_delivers {s : StoreView X} {request : Request} {handled : Option (List DnsRecord)}
    {response : ApiResponse request.kind.Value}
    (hdelivers : s.store.Delivers (some ⟨request, handled⟩) request response)
    (hcurrent : ∀ listing, handled = some listing → s.Current parent request listing) :
    s.Shows parent request response := by
  cases request with
  | listRecords zoneId recordType name number perPage =>
      obtain ⟨listing, hslot, hresult⟩ := hdelivers
      cases hslot
      intro record hguards htype hname
      rw [hresult, hcurrent listing rfl record hguards htype hname]
  | getZone zoneId => exact hdelivers
  | listZones name number perPage => exact hdelivers
  | _ => trivial

omit [DecidableEq ι] in
/-- Every answer that the world may give to a process is coherent with what the process knows:
locks are refused only where others hold them, and responses are those that the store has
given. -/
theorem agrees_coherent (hagree : CloudAgrees parent origin w views) {i : ι} {op : Op}
    {answer : Ans op} (hpermits : (views i).permits parent op)
    (hanswers : w.answers parent i ⟨op, answer⟩) :
    (views i).coherent parent ⟨op, answer⟩ := by
  have hshows : ∀ {request : Request} {outcome : HttpOutcome},
      (views i).pending = some request →
      (∀ apiToken response, receive apiToken request outcome = .ok response →
        w.store.Delivers (w.slots i) request response) →
      ∀ apiToken response, receive apiToken request outcome = .ok response →
        (views i).Shows parent request response := by
    intro request outcome hpending hdelivers apiToken response hreceive
    obtain ⟨handled, hslot, hcurrent⟩ := hagree.pending i request hpending
    have hshown := hdelivers apiToken response hreceive
    rw [hslot, ← hagree.store i] at hshown
    exact shows_of_delivers hshown hcurrent
  cases op with
  | finish wait =>
      cases wait with
      | http request =>
          intro request' outcome hreplied
          cases hreplied
          exact hshows hpermits (hanswers _ _ rfl)
      | query provider attemptTimeout => exact fun _ _ h => by cases h
      | sleep duration => exact fun _ _ h => by cases h
  | finishBefore deadline wait =>
      cases wait with
      | http request =>
          cases answer with
          | none => exact fun _ _ h => by cases h
          | some outcome =>
              intro request' outcome' hreplied
              cases hreplied
              exact hshows hpermits.1 (hanswers _ _ rfl)
      | query provider attemptTimeout => exact fun _ _ h => by cases h
      | sleep duration => exact fun _ _ h => by cases h
  | act action =>
      cases action with
      | cacheGet key =>
          have hcached : answer = w.caches i key := hanswers
          rw [← hagree.cache i] at hcached
          exact hcached
      | mutationInFlight =>
          have hflag : answer = w.inFlight i := hanswers
          rw [← hagree.inFlight i] at hflag
          exact hflag
      | prepareLockParent root temporary =>
          cases answer with
          | error error => exact fun _ _ h => by cases h
          | ok prepared => exact hanswers
      | _ => exact fun _ _ h => by cases h

/-- A process does what it is permitted to do, and only its own view changes. -/
theorem agrees_after (hagree : CloudAgrees parent origin w views) {i : ι} {op : Op}
    {answer : Ans op} (hpermits : (views i).permits parent op)
    (hanswers : w.answers parent i ⟨op, answer⟩) :
    CloudAgrees parent origin (w.after i ⟨op, answer⟩)
      (Function.update views i ((views i).next ⟨op, answer⟩)) := by
  have hfree : ∀ path, (⟨op, answer⟩ : Step) = ⟨.act (.tryLock path), .ok ()⟩ →
      w.locks path = none := by
    intro path heq
    rw [heq] at hanswers
    exact hanswers
  refine ⟨fun j => ?_, fun j path => ?_, fun j => ?_, fun j => ?_, fun j request => ?_,
    fun j request => ?_, hagree.zones, hagree.bounded⟩
  · by_cases hj : j = i
    · subst hj
      rw [Function.update_self]
      exact hagree.store j
    · rw [Function.update_of_ne hj]
      exact hagree.store j
  · by_cases hj : j = i
    · subst hj
      rw [Function.update_self]
      exact mem_heldAfter_iff (hagree.held j) _ path
    · rw [Function.update_of_ne hj]
      exact (hagree.held j path).trans (locksAfter_other hj hfree path).symm
  · by_cases hj : j = i
    · subst hj
      simp [StoreView.next, Cloud.after, hagree.cache j]
    · simp [Cloud.after, hj, hagree.cache j]
  · by_cases hj : j = i
    · subst hj
      simp [StoreView.next, Cloud.after, hagree.inFlight j]
    · simp [Cloud.after, hj, hagree.inFlight j]
  · by_cases hj : j = i
    · subst hj
      simp only [Function.update_self, Cloud.after]
      intro hpending
      rcases openAfter_some hpending (views j).held (w.slots j) with hbegun | ⟨hopen, hheld, hslot⟩
      · exact ⟨none, hbegun, fun _ h => by cases h⟩
      · obtain ⟨handled, hhandled, hcurrent⟩ := hagree.pending j request hopen
        rw [hslot]
        exact ⟨handled, hhandled, fun listing h => (hcurrent listing h).of_held hheld rfl⟩
    · simp only [Function.update_of_ne hj, Cloud.after]
      exact hagree.pending j request
  · by_cases hj : j = i
    · subst hj
      simp only [Function.update_self, Cloud.after]
      intro hslot hmutation
      exact waiting_next hslot hmutation hpermits fun hbefore =>
        hagree.waiting j request hbefore hmutation
    · simp only [Function.update_of_ne hj, Cloud.after]
      exact hagree.waiting j request

/-- The views after the server has handled a request of `i`. -/
def withStore (views : ι → StoreView X) (store : Store X) : ι → StoreView X :=
  fun j => { views j with store := store }

omit [Externals] [DecidableEq ι] in
/-- A handled request changes what is guarded by its own process only, and that
only if it is a mutation. -/
theorem handled_frame (hagree : CloudAgrees parent origin w views) {i : ι} {request : Request}
    {store' : Store X} (hslot : w.slots i = some ⟨request, none⟩)
    (hhandles : Handles w.store request store') {j : ι} {record : RecordConfig}
    {zoneId : String} (hguards : (views j).Guards parent record zoneId)
    (hother : j = i → request.isMutation = false) :
    store'.listingOf record zoneId = w.store.listingOf record zoneId := by
  by_cases hread : request.isMutation = false
  · rw [hhandles.of_read hread]
  have hmutation : request.isMutation = true := by simpa using hread
  obtain ⟨-, hauthorized⟩ := hagree.waiting i request hslot hmutation
  rw [← hagree.store i] at hhandles
  rcases authorized_contained hauthorized hhandles with hsame | hmutated
  · rw [hsame, hagree.store i]
  obtain ⟨mutated, zoneId', hguards', hcontained⟩ := hmutated
  rw [hagree.store i] at hcontained
  apply hcontained.other
  rintro ⟨hzoneId, hkey⟩
  have hnamed := hguards.named
  have hnamed' := hguards'.named
  rw [hagree.store j] at hnamed
  rw [hagree.store i] at hnamed'
  have hzone := Store.names_unique (Store.names_ignoresCase hnamed
    (eqIgnoreAsciiCase_refl _) hzoneId) hnamed'
  have hhash := resourceLockHash_of_sameKey hguards.valid hguards'.valid hzone hkey
  have hj := (hagree.held j _).mp hguards.locked
  have hi := (hagree.held i _).mp hguards'.locked
  rw [hhash, hi] at hj
  exact hread (hother (Option.some.inj hj).symm)

omit [Externals] [DecidableEq ι] in
/-- A handled request leaves a query one record, or no more than it selected. -/
theorem handled_bounded (hagree : CloudAgrees parent origin w views) {i : ι} {request : Request}
    {store' : Store X} (hslot : w.slots i = some ⟨request, none⟩)
    (hhandles : Handles w.store request store') (zoneId recordType name : String) :
    (store'.listing zoneId recordType name).length ≤
      max 1 (w.store.listing zoneId recordType name).length := by
  by_cases hread : request.isMutation = false
  · rw [hhandles.of_read hread]
    exact le_max_right _ _
  have hmutation : request.isMutation = true := by simpa using hread
  obtain ⟨-, hauthorized⟩ := hagree.waiting i request hslot hmutation
  rw [← hagree.store i] at hhandles
  rcases authorized_contained hauthorized hhandles with hsame | ⟨_, _, -, hcontained⟩
  · rw [hsame, hagree.store i]
    exact le_max_right _ _
  · rw [hagree.store i] at hcontained
    exact hcontained.length_le zoneId recordType name

omit [Externals] in
/-- The server handles a request, and the others bear it. -/
theorem agrees_moves (hagree : CloudAgrees parent origin w views) {w' : Cloud ι X}
    (hmoves : w.Moves w') :
    ∃ views', CloudAgrees parent origin w' views' ∧
      ∀ j, (views j).Interferes parent (views' j) := by
  cases hmoves with
  | @handle i request store' hslot hhandles =>
      have hzones : ∀ j, store'.zones = (views j).store.zones := by
        intro j
        rw [hhandles.zones, hagree.store j]
      have hguards : ∀ {j record zoneId}, (withStore views store' j).Guards parent record zoneId →
          (views j).Guards parent record zoneId := by
        intro j record zoneId h
        refine ⟨h.valid, h.locked, ?_⟩
        have hnamed := h.named
        unfold Store.Names at hnamed ⊢
        rw [← hzones j]
        exact hnamed
      have hframe : ∀ {j record zoneId}, (views j).Guards parent record zoneId →
          (j = i → request.isMutation = false) →
          store'.listingOf record zoneId = (views j).store.listingOf record zoneId := by
        intro j record zoneId h hother
        rw [handled_frame hagree hslot hhandles h hother, hagree.store j]
      refine ⟨withStore views store', ⟨fun _ => rfl, hagree.held, hagree.cache,
        hagree.inFlight, ?_, ?_, ?_, ?_⟩, fun j => ⟨rfl, rfl, rfl, rfl, hzones j, ?_⟩⟩
      · intro j request' hpending
        obtain ⟨handled, hhandled, hcurrent⟩ := hagree.pending j request' hpending
        by_cases hj : j = i
        · subst hj
          rw [hslot] at hhandled
          cases hhandled
          refine ⟨some (w.store.selected request), by simp, fun listing h => ?_⟩
          cases h
          exact selected_current hhandles rfl
        · refine ⟨handled, by simpa [hj] using hhandled, fun listing h => ?_⟩
          exact (hcurrent listing h).frame hguards fun _ _ h => hframe h fun heq => absurd heq hj
      · intro j request' hwaiting hmutation
        by_cases hj : j = i
        · subst hj
          simp at hwaiting
        · obtain ⟨hpending, hauthorized⟩ := hagree.waiting j request'
            (by simpa [hj] using hwaiting) hmutation
          exact ⟨hpending, hauthorized.frame rfl (hzones j)
            fun _ _ h => hframe h fun heq => absurd heq hj⟩
      · exact hhandles.zones.trans hagree.zones
      · intro zoneId recordType name
        have hgrows := handled_bounded hagree hslot hhandles zoneId recordType name
        exact le_trans hgrows (max_le (le_max_left _ _) (hagree.bounded _ _ _))
      · intro hidle record zoneId h
        apply hframe h
        rintro rfl
        by_contra hmutation
        obtain ⟨hpending, -⟩ := hagree.waiting j request hslot (by simpa using hmutation)
        exact hidle ⟨request, hpending, by simpa using hmutation⟩

end

end Cirrusync
