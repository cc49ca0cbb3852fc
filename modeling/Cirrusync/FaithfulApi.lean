import Cirrusync.CycleCount
import Cirrusync.ServedLookup
import Cirrusync.Store
import Cirrusync.Vouching

/-!
An API that serves one store faithfully, and nobody else writes to it. Reads show
what is stored, page by page; a mutation is done when its response arrives, the token is
active and no request fails. The cache of the process answers with what it keeps, the clock stays
before the deadline and no stop is requested.
-/

namespace Cirrusync

open Effect Text Paging

variable {X : Type}

instance {α : Type} [DecidableEq α] (reports : Bool) (entries : List α) (size number : Nat)
    (response : ApiResponse (List α)) :
    Decidable (ServesPage reports entries size number response) :=
  decidable_of_iff (response.result = page entries size number ∧
      response.resultInfo.bind ResultInfo.totalPages =
        if reports then some (pageCount entries.length size) else none)
    ⟨fun h => ⟨h.1, h.2⟩, fun h => ⟨h.result_eq, h.total_eq⟩⟩

/-- A zone in which a configured record can be. -/
def Zone.isHome (record : RecordConfig) (zone : Zone) : Bool :=
  eqIgnoreAsciiCase zone.name record.zone &&
    record.zoneId.all (fun zoneId => eqIgnoreAsciiCase zoneId zone.id)

namespace Store

variable (store : Store X)

/-- The zones that a lookup by name selects. -/
def zonesNamed (zoneName : String) : List Zone :=
  store.zones.filter fun zone => eqIgnoreAsciiCase zone.name zoneName

/-- The zone of a configured record, where there is one only. -/
def home (record : RecordConfig) : Option Zone :=
  match store.zones.filter (Zone.isHome record) with
  | [zone] => some zone
  | _ => none

/-- The zone of the record has this id. -/
def hosts (zoneId : String) (record : RecordConfig) : Bool :=
  (store.home record).any fun zone => eqIgnoreAsciiCase zone.id zoneId

/-- POST, where the zone has no record with the id yet. -/
def insert (zoneId : String) (stored : StoredRecord X) : Store X :=
  if hfresh : ∀ entry ∈ store.recordsOf zoneId, entry.record.id ≠ stored.record.id then
    store.add zoneId stored hfresh
  else store

/-- What a response shows of the store. The id of a new record is a fresh one. -/
def shows (reports : Bool) : (request : Request) → ApiResponse request.kind.Value → Bool
  | .getZone zoneId, response =>
      store.zones.contains response.result && eqIgnoreAsciiCase response.result.id zoneId
  | .listZones zoneName number perPage, response =>
      decide (ServesPage reports (store.zonesNamed zoneName) perPage number response)
  | .listRecords zoneId recordType name number perPage, response =>
      decide (ServesPage reports (store.listing zoneId recordType name) perPage number response)
  | .createRecord zoneId _, response =>
      (store.recordsOf zoneId).all fun entry => entry.record.id != response.result.id
  | .verifyToken _, response => eqIgnoreAsciiCase response.result.status "active"
  | .updateRecord _ _ _, _ | .probeRecord _ _ _, _ => true

end Store

/-- How an API presents its store: with the number of pages or without, and with
the fields that the client does not read. -/
structure ApiServer (X : Type) where
  reports : Bool
  unmanaged : HttpOutcome → X

/-- The store behind the API and the zone cache of the process. -/
structure Service (X : Type) where
  store : Store X
  cache : String → Option String

section

variable [Externals] (server : ApiServer X) (apiToken : String) (deadline : Instant)

/-- The store once the API has handled a request. -/
def Store.handled (store : Store X) : Request → HttpOutcome → Store X
  | .updateRecord zoneId recordId payload, _ => store.patch zoneId recordId payload.edit
  | .probeRecord zoneId recordId payload, _ => store.patch zoneId recordId payload.edit
  | .createRecord zoneId payload, outcome =>
      match receive apiToken (.createRecord zoneId payload) outcome with
      | .ok response =>
          store.insert zoneId ⟨payload.record response.result.id, server.unmanaged outcome⟩
      | .error _ => store
  | .verifyToken _, _ | .getZone _, _ | .listZones _ _ _, _ | .listRecords _ _ _ _ _, _ => store

namespace Service

/-- The faithful answers. -/
def answers (s : Service X) : Step → Bool
  | ⟨.act (.cacheGet key), answer⟩ => answer == s.cache key
  | ⟨.act .now, answer⟩ => decide (answer < deadline)
  | ⟨.act .stopRequested, answer⟩ => !answer
  | ⟨.finishBefore _ _, none⟩ => false
  | step => (replied step).all fun reply =>
      match receive apiToken reply.1 reply.2 with
      | .ok response => s.store.shows server.reports reply.1 response
      | .error _ => false

def next (s : Service X) (step : Step) : Service X where
  store :=
    match replied step with
    | some (request, outcome) => s.store.handled server apiToken request outcome
    | none => s.store
  cache := cacheAfter s.cache step

/-- Reads may always be sent, and mutations if they are allowed. -/
def permits (mutates : Prop) (_ : Service X) (op : Op) : Prop :=
  ∀ request, op = .act (.begin (.http request)) → request.isMutation = true → mutates

/-- Every answer of the trace is a faithful one. -/
def Serves (s : Service X) (trace : List Step) : Prop :=
  CoherentFrom (fun s step => s.answers server apiToken deadline step = true)
    (next server apiToken) s trace

instance decidableServes : (s : Service X) → (trace : List Step) →
    Decidable (s.Serves server apiToken deadline trace)
  | _, [] => isTrue trivial
  | s, step :: rest =>
      have := decidableServes (s.next server apiToken step) rest
      inferInstanceAs (Decidable (s.answers server apiToken deadline step = true ∧
        (s.next server apiToken step).Serves server apiToken deadline rest))

/-- The service after the trace. -/
def after (s : Service X) (trace : List Step) : Service X := trace.foldl (next server apiToken) s

def contract (mutates : Prop) : Contract Ans (Service X) :=
  .track (permits mutates) (fun s step => s.answers server apiToken deadline step = true)
    (next server apiToken)

/-- Every cached zone id is one of its zone. -/
def Sound (s : Service X) : Prop :=
  ∀ key zoneId, s.cache key = some zoneId → CacheEntry s.store.Names key zoneId

end Service

end

theorem CacheEntry.explicit_id {zoneOf : String → String → Prop}
    {zoneName zoneId cached : String} (hplain : PlainName zoneName)
    (h : CacheEntry zoneOf (CloudflareClient.explicitCacheKey zoneName zoneId) cached) :
    eqIgnoreAsciiCase zoneId cached = true := by
  obtain ⟨name, hname, -, hkey | hkey⟩ := h
  · rw [← String.toList_inj, toList_namedCacheKey, toList_explicitCacheKey] at hkey
    simp at hkey
  · rw [← String.toList_inj, toList_explicitCacheKey, toList_explicitCacheKey] at hkey
    simp only [List.cons.injEq, true_and] at hkey
    obtain ⟨hsame, -⟩ := split_last hkey hplain hname
    rw [eqIgnoreAsciiCase_iff]
    exact String.toList_inj.mp hsame

namespace Store

variable {store : Store X} {record : RecordConfig} {zone : Zone}

theorem home_eq_some_iff :
    store.home record = some zone ↔ store.zones.filter (Zone.isHome record) = [zone] := by
  unfold home
  split
  · rename_i heq
    rw [heq]
    simp
  · rename_i hother
    constructor
    · intro h
      cases h
    · exact fun h => absurd h (hother zone)

theorem mem_of_home (h : store.home record = some zone) :
    zone ∈ store.zones ∧ eqIgnoreAsciiCase zone.name record.zone = true ∧
      ∀ zoneId, record.zoneId = some zoneId → eqIgnoreAsciiCase zoneId zone.id = true := by
  have hmember : zone ∈ store.zones.filter (Zone.isHome record) := by
    rw [home_eq_some_iff.mp h]
    exact List.mem_singleton_self _
  obtain ⟨hzone, hhome⟩ := List.mem_filter.mp hmember
  unfold Zone.isHome at hhome
  rw [Bool.and_eq_true] at hhome
  refine ⟨hzone, hhome.1, fun zoneId hid => ?_⟩
  have hall := hhome.2
  rw [hid] at hall
  exact hall

theorem hosts_iff {zoneId : String} : store.hosts zoneId record = true ↔
    ∃ zone, store.home record = some zone ∧ eqIgnoreAsciiCase zone.id zoneId = true := by
  unfold hosts
  cases store.home record <;> simp

/-- A zone id of the record's zone name, and of its zone id if it has one. -/
theorem hosts_of_names {zoneId : String} (hhome : store.home record = some zone)
    (hnames : store.Names record.zone zoneId)
    (hid : ∀ id, record.zoneId = some id → eqIgnoreAsciiCase id zoneId = true) :
    store.hosts zoneId record = true := by
  obtain ⟨named, hmember, hname, hzoneId⟩ := hnames
  have hfilter : named ∈ store.zones.filter (Zone.isHome record) := by
    refine List.mem_filter.mpr ⟨hmember, ?_⟩
    unfold Zone.isHome
    rw [hname, Bool.true_and]
    cases hrecord : record.zoneId with
    | none => rfl
    | some id => exact eqIgnoreAsciiCase_trans (hid id hrecord) (eqIgnoreAsciiCase_symm hzoneId)
  rw [home_eq_some_iff.mp hhome, List.mem_singleton] at hfilter
  subst hfilter
  exact hosts_iff.mpr ⟨named, hhome, hzoneId⟩

theorem hosts_congr {zoneId zoneId' : String} (h : eqIgnoreAsciiCase zoneId zoneId' = true) :
    store.hosts zoneId record = store.hosts zoneId' record := by
  rw [Bool.eq_iff_iff, hosts_iff, hosts_iff]
  constructor
  · rintro ⟨zone, hhome, hid⟩
    exact ⟨zone, hhome, eqIgnoreAsciiCase_trans hid h⟩
  · rintro ⟨zone, hhome, hid⟩
    exact ⟨zone, hhome, eqIgnoreAsciiCase_trans hid (eqIgnoreAsciiCase_symm h)⟩

/-- The zone of a record has one id. -/
theorem hosts_same {zoneId zoneId' : String} (h : store.hosts zoneId record = true)
    (h' : store.hosts zoneId' record = true) : eqIgnoreAsciiCase zoneId zoneId' = true := by
  obtain ⟨zone, hhome, hid⟩ := hosts_iff.mp h
  obtain ⟨zone', hhome', hid'⟩ := hosts_iff.mp h'
  rw [hhome] at hhome'
  cases hhome'
  exact eqIgnoreAsciiCase_trans (eqIgnoreAsciiCase_symm hid) hid'

/-- Zones decide which zone a record has. -/
theorem home_of_zones {store' : Store X} (h : store'.zones = store.zones)
    (record : RecordConfig) : store'.home record = store.home record := by
  unfold home
  rw [h]

theorem hosts_of_zones {store' : Store X} (h : store'.zones = store.zones) (zoneId : String)
    (record : RecordConfig) : store'.hosts zoneId record = store.hosts zoneId record := by
  unfold hosts
  rw [home_of_zones h]

end Store

end Cirrusync
