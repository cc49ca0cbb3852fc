import Cirrusync.FaithfulApi

/-!
The functions of a cycle against a faithful API. A lookup returns what is stored, a
zone is resolved to the id of its home, and a mutation succeeds; nothing else of the
service changes.
-/

namespace Cirrusync

open Effect Text Paging

variable [Externals] {X : Type} {server : ApiServer X} {deadline : Instant} {mutates : Prop}

namespace Service

variable {apiToken : String} {s : Service X}

theorem next_steady {step : Step} (hreply : replied step = none)
    (hcache : cacheAfter s.cache step = s.cache) : s.next server apiToken step = s := by
  unfold next
  rw [hreply, hcache]

/-- An operation that neither receives a response nor changes the cache. -/
theorem holds_steady {α : Type} {post : α → Service X → Prop} {op : Op} {rest : Ans op → M α}
    (hpermits : permits mutates s op) (hreply : ∀ answer, replied ⟨op, answer⟩ = none)
    (hcache : ∀ answer, cacheAfter s.cache ⟨op, answer⟩ = s.cache)
    (hrest : ∀ answer, s.answers server apiToken deadline ⟨op, answer⟩ = true →
      Holds (contract server apiToken deadline mutates) post (rest answer) s) :
    Holds (contract server apiToken deadline mutates) post (.ask op rest) s := by
  refine holds_track_ask.mpr ⟨hpermits, fun answer hanswer => ?_⟩
  rw [next_steady (hreply answer) (hcache answer)]
  exact hrest answer hanswer

omit [Externals] in
theorem permits_of_quiet {op : Op} (h : ∀ request, op ≠ .act (.begin (.http request))) :
    permits mutates s op :=
  fun request hop _ => absurd hop (h request)

theorem holds_return {α : Type} {post : α → Service X → Prop} {value : α} (h : post value s) :
    Holds (contract server apiToken deadline mutates) post (.done value) s :=
  holds_track_done.mpr h

/-- Operations that leave the service as it is, whatever the answer. -/
theorem holds_unchanged {α : Type} {allowed : Op → Prop} {p : M α} (huses : Uses allowed p)
    (hquiet : ∀ op, allowed op → (∀ request, op ≠ .act (.begin (.http request))) ∧
      ∀ answer, replied ⟨op, answer⟩ = none ∧
        ∀ cache, cacheAfter cache ⟨op, answer⟩ = cache) :
    Holds (contract server apiToken deadline mutates) (fun _ s' => s' = s) p s := by
  refine @holds_of_uses _ _ _ _ _ allowed (fun s' => s' = s) p ?_ ?_ huses s rfl
  · rintro s' t rfl rfl
    rfl
  · rintro s' op rfl hop
    obtain ⟨hno, hanswer⟩ := hquiet op hop
    refine ⟨show permits mutates s' op from permits_of_quiet hno, ?_⟩
    rintro answer t ⟨-, rfl⟩
    obtain ⟨hreply, hcache⟩ := hanswer answer
    exact next_steady hreply (hcache _)

end Service

open Service

namespace CloudflareClient

variable (self : CloudflareClient) {s : Service X}

/-- What a sent request comes back with, and leaves behind. -/
def Received (server : ApiServer X) (s : Service X) (request : Request)
    (result : Except CloudflareError (ApiResponse request.kind.Value)) (s' : Service X) :
    Prop :=
  ∃ outcome response, result = .ok response ∧
    receive self.apiToken request outcome = .ok response ∧
    s.store.shows server.reports request response = true ∧
    s'.store = s.store.handled server self.apiToken request outcome ∧ s'.cache = s.cache

theorem send_received {request : Request} (hallowed : request.isMutation = true → mutates) :
    Holds (contract server self.apiToken deadline mutates)
      (self.Received server s request) (self.send request) s := by
  simp only [send, await_eq, Program.ask_bind, Program.done_bind, Program.pure_eq]
  refine holds_steady ?_ (fun _ => rfl) (fun _ => rfl) fun _ _ => ?_
  · intro sent hop hmutation
    cases hop
    exact hallowed hmutation
  · refine holds_track_ask.mpr ⟨permits_of_quiet (fun _ h => by cases h), ?_⟩
    intro outcome hanswer
    refine holds_return ?_
    simp only [answers, replied, Option.all_some] at hanswer
    cases hreceive : receive self.apiToken request outcome with
    | error error =>
        rw [hreceive] at hanswer
        cases hanswer
    | ok response =>
        rw [hreceive] at hanswer
        exact ⟨outcome, response, rfl, hreceive, hanswer, rfl, rfl⟩

theorem sendInZone_received {zoneId : String} {request : Request}
    (hallowed : request.isMutation = true → mutates) :
    Holds (contract server self.apiToken deadline mutates)
      (self.Received server s request) (self.sendInZone zoneId request) s := by
  unfold sendInZone
  apply holds_bind
  refine holds_mono (self.send_received hallowed) ?_
  rintro result s' ⟨outcome, response, rfl, hrest⟩
  exact holds_return ⟨outcome, response, rfl, hrest⟩

/-- A read leaves the service as it was. -/
theorem received_read {request : Request}
    {result : Except CloudflareError (ApiResponse request.kind.Value)} {s' : Service X}
    (h : self.Received server s request result s') (hread : request.isMutation = false) :
    s' = s ∧ ∃ response, result = .ok response ∧
      s.store.shows server.reports request response = true := by
  obtain ⟨outcome, response, rfl, -, hshows, hstore, hcache⟩ := h
  have hsame : s.store.handled server self.apiToken request outcome = s.store := by
    cases request <;> first | rfl | cases hread
  rw [hsame] at hstore
  cases s
  cases s'
  cases hstore
  cases hcache
  exact ⟨rfl, response, rfl, hshows⟩

omit [Externals] in
/-- A list of at most one entry is on its first page. -/
theorem first_page {α : Type} {reports : Bool} {entries : List α} {size : Nat}
    {response : ApiResponse (List α)} (hsize : 1 < size) (hone : entries.length ≤ 1)
    (hserves : ServesPage reports entries size 1 response) :
    response.result = entries ∧
      hasNextPage 1 entries.length size response.resultInfo = false := by
  have hresult : response.result = entries := by
    rw [hserves.result_eq, page, Nat.sub_self, Nat.zero_mul, List.drop_zero]
    exact List.take_of_length_le (by omega)
  have hnext := hasNextPage_of_serves (by omega) (by decide) hserves
  rw [hresult] at hnext
  refine ⟨hresult, ?_⟩
  rw [← Bool.not_eq_true, hnext]
  cases reports <;> simp <;> omega

/-- The lookup of a record finds the one that is stored. -/
theorem findRecord_found {zoneId recordType name : String}
    (hone : (s.store.listing zoneId recordType name).length ≤ 1) :
    Holds (contract server self.apiToken deadline mutates)
      (fun result s' => s' = s ∧
        result = .ok (s.store.listing zoneId recordType name).head?)
      (self.findRecord zoneId recordType name) s := by
  obtain ⟨left, hleft⟩ : ∃ left, maxPages = left + 1 := ⟨_, rfl⟩
  unfold findRecord
  rw [hleft, recordPages]
  apply holds_bind
  refine holds_mono (self.sendInZone_received fun h => by cases h) ?_
  intro result s' hreceived
  obtain ⟨rfl, response, rfl, hshows⟩ := self.received_read hreceived rfl
  have hserves := of_decide_eq_true hshows
  obtain ⟨hresult, hlast⟩ := first_page (by decide) hone hserves
  have hall : (s'.store.listing zoneId recordType name).filter
      (DnsRecord.isExactMatch recordType name) = s'.store.listing zoneId recordType name := by
    rw [List.filter_eq_self]
    intro record member
    exact (DnsRecord.isExactMatch_iff _ _ _).mpr (Store.sameKey_of_mem_listing member)
  have hverdict : recordVerdict recordType name (s'.store.listing zoneId recordType name) =
      .ok (s'.store.listing zoneId recordType name).head? := by
    rw [recordVerdict_ok_iff]
    cases hlisting : s'.store.listing zoneId recordType name with
    | nil => rfl
    | cons record rest =>
        rw [hlisting, List.length_cons] at hone
        rw [List.eq_nil_of_length_eq_zero (by omega : rest.length = 0)]
        rfl
  simp only [scanRecords_eq, hlast, hresult, hall, Option.toList_none, List.nil_append,
    hverdict, Bool.false_eq_true, if_false, Program.pure_eq]
  exact holds_return ⟨rfl, rfl⟩

/-- A zone id enters the cache, and the lookup returns it. -/
theorem inserted {record : RecordConfig} {key zoneId : String} (hs : s.Sound)
    (hentry : CacheEntry s.store.Names key zoneId) (hhosts : s.store.hosts zoneId record = true) :
    Holds (contract server self.apiToken deadline mutates)
      (fun result s' => s'.store = s.store ∧ s'.Sound ∧
        ∃ zoneId, result = .ok zoneId ∧ s.store.hosts zoneId record = true)
      (.ask (.act (.cacheInsert key zoneId)) fun _ =>
        (.done (.ok zoneId) : M (Except CloudflareError String))) s := by
  refine holds_track_ask.mpr ⟨permits_of_quiet (fun _ h => by cases h), fun answer _ => ?_⟩
  refine holds_return ⟨rfl, fun key' cached hcached => ?_, zoneId, rfl, hhosts⟩
  rcases @cacheAfter_some _ ⟨.act (.cacheInsert key zoneId), answer⟩ _ _ hcached with
    hbefore | hinserted
  · exact hs key' cached hbefore
  · cases hinserted
    exact hentry

/-- On a faithful API a configured zone id is accepted if it is that of the home zone of the
record, and the zone that it resolves to hosts the record. An entry of the cache is as good as the
answer that it keeps. -/
theorem resolveExplicitZoneId_home {record : RecordConfig} {zone : Zone} {zoneId : String}
    (hplain : PlainName record.zone) (hactive : ∀ zone ∈ s.store.zones, zone.isActive = true)
    (hhome : s.store.home record = some zone) (hid : record.zoneId = some zoneId) (hs : s.Sound) :
    Holds (contract server self.apiToken deadline mutates)
      (fun result s' => s'.store = s.store ∧ s'.Sound ∧
        ∃ zoneId, result = .ok zoneId ∧ s.store.hosts zoneId record = true)
      (self.resolveExplicitZoneId record.zone zoneId) s := by
  obtain ⟨hzone, hname, hzoneId⟩ := Store.mem_of_home hhome
  have hcase : IgnoresCase s.store.Names := Store.names_ignoresCase
  unfold resolveExplicitZoneId
  simp only [act_eq, Program.ask_bind, Program.done_bind, Program.pure_eq]
  refine holds_steady (permits_of_quiet (fun _ h => by cases h)) (fun _ => rfl) (fun _ => rfl)
    fun cached hanswer => ?_
  cases cached with
  | some cached =>
      have hcached : s.cache (explicitCacheKey record.zone zoneId) = some cached := by
        exact (eq_of_beq hanswer).symm
      have hentry := hs _ _ hcached
      refine holds_return ⟨rfl, hs, cached, rfl, ?_⟩
      apply Store.hosts_of_names hhome (hentry.explicit hcase hplain)
      intro id heq
      rw [hid] at heq
      cases heq
      exact hentry.explicit_id hplain
  | none =>
      apply holds_bind
      refine holds_mono (self.send_received fun h => by cases h) ?_
      intro result s' hreceived
      obtain ⟨rfl, response, rfl, hshows⟩ := self.received_read hreceived rfl
      unfold Store.shows at hshows
      rw [Bool.and_eq_true, List.contains_iff_mem] at hshows
      obtain ⟨hmember, hshown⟩ := hshows
      have hsame : response.result = zone := by
        by_contra hne
        have hdiffer := Store.distinct_zones hmember hzone hne
        rw [eqIgnoreAsciiCase_trans hshown (hzoneId zoneId hid)] at hdiffer
        cases hdiffer
      have hcheck : self.checkExplicitZone record.zone zoneId response.result = .ok () := by
        unfold checkExplicitZone
        rw [ensure_bind_ok, ensure_bind_ok, ensure_ok, hsame]
        refine ⟨hname, ?_, hactive zone hzone⟩
        rw [← hsame]
        exact hshown
      simp only [hcheck]
      have hnames : s'.store.Names record.zone zoneId := ⟨response.result, hmember, by
        rw [hsame]; exact hname, hshown⟩
      apply self.inserted hs ⟨record.zone, hplain, hnames, .inr rfl⟩
      apply Store.hosts_of_names hhome hnames
      intro id heq
      rw [hid] at heq
      cases heq
      exact eqIgnoreAsciiCase_refl _

/-- On a faithful API a zone name resolves to the one active zone of that name, from the cache or
by listing the zones, and this zone hosts the record. -/
theorem resolveNamedZoneId_home {record : RecordConfig} {zone : Zone}
    (hplain : PlainName record.zone) (hactive : ∀ zone ∈ s.store.zones, zone.isActive = true)
    (hhome : s.store.home record = some zone) (hid : record.zoneId = none) (hs : s.Sound) :
    Holds (contract server self.apiToken deadline mutates)
      (fun result s' => s'.store = s.store ∧ s'.Sound ∧
        ∃ zoneId, result = .ok zoneId ∧ s.store.hosts zoneId record = true)
      (self.resolveNamedZoneId record.zone) s := by
  obtain ⟨hzone, hname, -⟩ := Store.mem_of_home hhome
  have hcase : IgnoresCase s.store.Names := Store.names_ignoresCase
  unfold resolveNamedZoneId
  simp only [act_eq, Program.ask_bind, Program.done_bind, Program.pure_eq]
  refine holds_steady (permits_of_quiet (fun _ h => by cases h)) (fun _ => rfl) (fun _ => rfl)
    fun cached hanswer => ?_
  cases cached with
  | some cached =>
      have hcached : s.cache (namedCacheKey record.zone) = some cached := by
        exact (eq_of_beq hanswer).symm
      refine holds_return ⟨rfl, hs, cached, rfl, ?_⟩
      apply Store.hosts_of_names hhome ((hs _ _ hcached).named hcase)
      intro id heq
      rw [hid] at heq
      cases heq
  | none =>
      obtain ⟨left, hleft⟩ : ∃ left, maxPages = left + 1 := ⟨_, rfl⟩
      have hnamed : s.store.zonesNamed record.zone = [zone] := by
        rw [← Store.home_eq_some_iff.mp hhome]
        unfold Store.zonesNamed Zone.isHome
        simp [hid]
      rw [hleft, zonePages]
      apply holds_bind
      refine holds_mono (self.send_received fun h => by cases h) ?_
      intro result s' hreceived
      obtain ⟨rfl, response, rfl, hshows⟩ := self.received_read hreceived rfl
      have hserves := of_decide_eq_true hshows
      obtain ⟨hresult, hlast⟩ := first_page (by decide) (by rw [hnamed]; simp) hserves
      rw [hnamed] at hresult hlast
      have hscan : self.scanZones record.zone [zone] none none = .ok (some zone.id, none) := by
        simp [scanZones, hname, hactive zone hzone]
      simp only [hresult, hscan, hlast, Bool.false_eq_true, if_false, concludeZone, act_eq,
        Program.ask_bind, Program.done_bind, Program.pure_eq]
      have hnames : s'.store.Names record.zone zone.id :=
        ⟨zone, hzone, hname, eqIgnoreAsciiCase_refl _⟩
      apply self.inserted hs ⟨record.zone, hplain, hnames, .inl rfl⟩
      exact Store.hosts_iff.mpr ⟨zone, hhome, eqIgnoreAsciiCase_refl _⟩

/-- The zone of a record is resolved to its home. -/
theorem resolveZoneId_home {record : RecordConfig} {zone : Zone}
    (hplain : PlainName record.zone) (hactive : ∀ zone ∈ s.store.zones, zone.isActive = true)
    (hhome : s.store.home record = some zone) (hs : s.Sound) :
    Holds (contract server self.apiToken deadline mutates)
      (fun result s' => s'.store = s.store ∧ s'.Sound ∧
        ∃ zoneId, result = .ok zoneId ∧ s.store.hosts zoneId record = true)
      (self.resolveZoneId record.zone record.zoneId) s := by
  cases hid : record.zoneId with
  | some zoneId => exact self.resolveExplicitZoneId_home hplain hactive hhome hid hs
  | none => exact self.resolveNamedZoneId_home hplain hactive hhome hid hs

/-- An update edits the record. -/
theorem updateRecord_patches {zoneId recordId : String} {payload : RecordPayload}
    (hallowed : mutates) :
    Holds (contract server self.apiToken deadline mutates)
      (fun result s' => (∃ updated, result = .ok updated) ∧
        s'.store = s.store.patch zoneId recordId payload.edit ∧ s'.cache = s.cache)
      (self.updateRecord zoneId recordId payload) s := by
  unfold updateRecord
  apply holds_bind
  refine holds_mono (self.sendInZone_received fun _ => hallowed) ?_
  rintro result s' ⟨outcome, response, rfl, -, -, hstore, hcache⟩
  exact holds_return ⟨⟨response.result, rfl⟩, hstore, hcache⟩

/-- A creation adds the record, under an id that is new. -/
theorem createRecord_adds {zoneId : String} {payload : RecordPayload} (hallowed : mutates) :
    Holds (contract server self.apiToken deadline mutates)
      (fun result s' => (∃ created, result = .ok created) ∧ s'.cache = s.cache ∧
        ∃ id unmanaged hfresh, s'.store = s.store.add zoneId ⟨payload.record id, unmanaged⟩ hfresh)
      (self.createRecord zoneId payload) s := by
  unfold createRecord
  apply holds_bind
  refine holds_mono (self.sendInZone_received fun _ => hallowed) ?_
  rintro result s' ⟨outcome, response, rfl, hreceive, hshows, hstore, hcache⟩
  have hfresh : ∀ entry ∈ s.store.recordsOf zoneId,
      entry.record.id ≠ (payload.record response.result.id).id := by
    intro entry member
    exact bne_iff_ne.mp (List.all_eq_true.mp hshows entry member)
  have hadded : s.store.handled server self.apiToken (.createRecord zoneId payload) outcome =
      s.store.add zoneId ⟨payload.record response.result.id, server.unmanaged outcome⟩
        hfresh := by
    unfold Store.handled
    simp only [hreceive]
    unfold Store.insert
    exact dif_pos hfresh
  exact holds_return ⟨⟨response.result, rfl⟩, hcache, response.result.id,
    server.unmanaged outcome, hfresh, hstore.trans hadded⟩

end CloudflareClient

end Cirrusync
