import Cirrusync.Effect.Paging
import Cirrusync.LockProtocol
import Cirrusync.Shutdown
import Cirrusync.Store
import Cirrusync.ValidConfig
import Cirrusync.Vouching

/-!
Processes that share a lock directory and write to one store. A begun request
reaches the server later or never; a response then arrives, or an error, or
nothing that can be read. Each process knows the locks it holds, its cache and
its open request, and that nobody else writes what its locks guard.
-/

namespace Cirrusync

open Effect Text Paging RuntimeLockIdentity

/-- An open request, and what the server has selected for it once it was handled. -/
structure Slot where
  request : Request
  handled : Option (List DnsRecord)

def slotAfter (slot : Option Slot) : Step → Option Slot
  | ⟨.act (.begin (.http request)), _⟩ => some ⟨request, none⟩
  | ⟨.finish (.http _), _⟩ | ⟨.finishBefore _ (.http _), some _⟩ => none
  | _ => slot

section

variable {ι : Type} [DecidableEq ι]

def locksAfter (table : LockTable ι) (i : ι) : Step → LockTable ι
  | ⟨.act (.tryLock path), .ok ()⟩ => Function.update table path (some i)
  | ⟨.act (.unlock path), _⟩ | ⟨.act (.closeLock path), _⟩ => table.release i path
  | _ => table

end

structure Cloud (ι X : Type) where
  store : Store X
  locks : LockTable ι
  caches : ι → String → Option String
  inFlight : ι → Bool
  slots : ι → Option Slot

section

variable {X : Type} (store : Store X)

/-- The records that a request selects. -/
def Store.selected : Request → List DnsRecord
  | .listRecords zoneId recordType name _ _ => store.listing zoneId recordType name
  | _ => []

/-- The response that a consistent store gives: existing zones, and of the
selected records one page. -/
def Store.Delivers (slot : Option Slot) :
    (request : Request) → ApiResponse request.kind.Value → Prop
  | .getZone _, response => response.result ∈ store.zones
  | .listZones _ _ _, response => ∀ zone ∈ response.result, zone ∈ store.zones
  | .listRecords zoneId recordType name number perPage, response => ∃ listing,
      slot = some ⟨.listRecords zoneId recordType name number perPage, some listing⟩ ∧
        response.result = page listing perPage number
  | _, _ => True

end

section

variable [Externals] {ι X : Type} (parent : String)

/-- Which answers a process can get. What a response says counts where the
client can read it. -/
def Cloud.answers (w : Cloud ι X) (i : ι) : Step → Prop
  | ⟨.act (.cacheGet key), answer⟩ => answer = w.caches i key
  | ⟨.act .mutationInFlight, answer⟩ => answer = w.inFlight i
  | ⟨.act (.tryLock path), .ok ()⟩ => w.locks path = none
  | ⟨.act (.prepareLockParent _ _), .ok prepared⟩ => prepared = parent
  | step => ∀ request outcome, replied step = some (request, outcome) →
      ∀ apiToken response, receive apiToken request outcome = .ok response →
        w.store.Delivers (w.slots i) request response

variable [DecidableEq ι]

def Cloud.after (w : Cloud ι X) (i : ι) (step : Step) : Cloud ι X where
  store := w.store
  locks := locksAfter w.locks i step
  caches := Function.update w.caches i (cacheAfter (w.caches i) step)
  inFlight := Function.update w.inFlight i (inFlightAfter (w.inFlight i) step)
  slots := Function.update w.slots i (slotAfter (w.slots i) step)

/-- The server handles an open request, once. -/
inductive Cloud.Moves (w : Cloud ι X) : Cloud ι X → Prop where
  | handle {i : ι} {request : Request} {store : Store X} :
      w.slots i = some ⟨request, none⟩ → Handles w.store request store →
      Moves w { w with
        store := store
        slots := Function.update w.slots i (some ⟨request, some (w.store.selected request)⟩) }

def cloudWorld : World Ans ι (Cloud ι X) where
  answers := fun w i op answer w' =>
    w.answers parent i ⟨op, answer⟩ ∧ w' = w.after i ⟨op, answer⟩
  moves := Cloud.Moves

end

/-! What a process knows. -/

structure StoreView (X : Type) where
  store : Store X
  held : Set String
  cache : String → Option String
  inFlight : Bool
  pending : Option Request

def heldAfter (held : Set String) : Step → Set String
  | ⟨.act (.tryLock path), .ok ()⟩ => insert path held
  | ⟨.act (.unlock path), _⟩ | ⟨.act (.closeLock path), _⟩ => held \ {path}
  | _ => held

/-- The request that is worth waiting for: a new lock makes it stale. -/
def openAfter (pending : Option Request) : Step → Option Request
  | ⟨.act (.begin (.http request)), _⟩ => some request
  | ⟨.finish (.http _), _⟩ | ⟨.finishBefore _ (.http _), _⟩ | ⟨.act (.tryLock _), _⟩ => none
  | _ => pending

namespace StoreView

variable {X : Type} (parent : String)

def next (s : StoreView X) (step : Step) : StoreView X where
  store := s.store
  held := heldAfter s.held step
  cache := cacheAfter s.cache step
  inFlight := inFlightAfter s.inFlight step
  pending := openAfter s.pending step

/-- A mutation is open. -/
def Mutating (s : StoreView X) : Prop :=
  ∃ request, s.pending = some request ∧ request.isMutation = true

/-- The process holds the lock of the record, in whose zone it is. -/
structure Guards (s : StoreView X) (record : RecordConfig) (zoneId : String) : Prop where
  valid : ValidRecord record
  locked : lockPath parent (resourceLockHash record) ∈ s.held
  named : s.store.Names record.zone zoneId

end StoreView

/-- The records of the store for a configured record. -/
def Store.listingOf {X : Type} (store : Store X) (record : RecordConfig) (zoneId : String) :
    List DnsRecord :=
  store.listing zoneId record.recordType.asStr record.name

namespace StoreView

variable {X : Type} (parent : String)

/-- A request that may be sent: a mutation needs the lock of its record, and the
record to be the only one or to be missing. -/
inductive Authorized (s : StoreView X) : Request → Prop where
  | read {request : Request} : request.isMutation = false → Authorized s request
  | update {record : RecordConfig} {zoneId : String} {existing : DnsRecord}
      {payload : RecordPayload} : s.Guards parent record zoneId →
      s.store.listingOf record zoneId = [existing] →
      payload.recordType = record.recordType.asStr → payload.name = record.name →
      Authorized s (.updateRecord zoneId existing.id payload)
  | probe {record : RecordConfig} {zoneId : String} {existing : DnsRecord}
      {payload : EditProbePayload} : s.Guards parent record zoneId →
      s.store.listingOf record zoneId = [existing] →
      payload.recordType = existing.recordType → payload.name = existing.name →
      Authorized s (.probeRecord zoneId existing.id payload)
  | create {record : RecordConfig} {zoneId : String} {payload : RecordPayload} :
      s.Guards parent record zoneId → s.store.listingOf record zoneId = [] →
      payload.recordType = record.recordType.asStr → payload.name = record.name →
      Authorized s (.createRecord zoneId payload)

/-- What the response to a request shows of the records that are guarded. -/
def Shows (s : StoreView X) : (request : Request) → ApiResponse request.kind.Value → Prop
  | .getZone _, response => response.result ∈ s.store.zones
  | .listZones _ _ _, response => ∀ zone ∈ response.result, zone ∈ s.store.zones
  | .listRecords zoneId recordType name number perPage, response => ∀ record,
      s.Guards parent record zoneId → recordType = record.recordType.asStr →
      name = record.name → response.result = page (s.store.listingOf record zoneId) perPage number
  | _, _ => True

def permits (s : StoreView X) : Op → Prop
  | .act (.begin (.http request)) => ¬ s.Mutating ∧ s.Authorized parent request ∧
      (request.isMutation = true → s.inFlight = true)
  | .finish (.http request) => s.pending = some request
  | .finishBefore _ (.http request) => s.pending = some request ∧ request.isMutation = false
  | .act (.tryLock _) | .act (.unlock _) | .act (.closeLock _) | .act .newControl => ¬ s.Mutating
  | .act (.setMutationInFlight flag) => flag = true ∨ ¬ s.Mutating
  | .act (.cacheInsert key zoneId) => CacheEntry s.store.Names key zoneId
  | _ => True

section

variable [Externals]

def coherent (s : StoreView X) : Step → Prop
  | ⟨.act (.cacheGet key), answer⟩ => answer = s.cache key
  | ⟨.act .mutationInFlight, answer⟩ => answer = s.inFlight
  | ⟨.act (.prepareLockParent _ _), .ok prepared⟩ => prepared = parent
  | step => ∀ request outcome, replied step = some (request, outcome) →
      ∀ apiToken response, receive apiToken request outcome = .ok response →
        s.Shows parent request response

/-- What the others, and the server, may do to the view of a process: nobody else
writes what it guards, unless it has a mutation of its own open. -/
structure Interferes (s s' : StoreView X) : Prop where
  held : s'.held = s.held
  cache : s'.cache = s.cache
  inFlight : s'.inFlight = s.inFlight
  pending : s'.pending = s.pending
  zones : s'.store.zones = s.store.zones
  guarded : ¬ s.Mutating → ∀ record zoneId, s.Guards parent record zoneId →
    s'.store.listingOf record zoneId = s.store.listingOf record zoneId

variable {parent}

omit [Externals] in
theorem Interferes.mutating {s s' : StoreView X} (h : s.Interferes parent s') :
    s'.Mutating ↔ s.Mutating := by
  unfold Mutating
  rw [h.pending]

omit [Externals] in
theorem Interferes.names {s s' : StoreView X} (h : s.Interferes parent s')
    (zoneName zoneId : String) :
    s'.store.Names zoneName zoneId ↔ s.store.Names zoneName zoneId := by
  unfold Store.Names
  rw [h.zones]

omit [Externals] in
theorem Interferes.guards {s s' : StoreView X} (h : s.Interferes parent s')
    {record : RecordConfig} {zoneId : String} (hguards : s.Guards parent record zoneId) :
    s'.Guards parent record zoneId :=
  ⟨hguards.valid, by rw [h.held]; exact hguards.locked, (h.names _ _).mpr hguards.named⟩

omit [Externals] in
theorem Interferes.refl (s : StoreView X) : s.Interferes parent s :=
  ⟨rfl, rfl, rfl, rfl, rfl, fun _ _ _ _ => rfl⟩

omit [Externals] in
theorem Interferes.trans {s t u : StoreView X} (h : s.Interferes parent t)
    (g : t.Interferes parent u) : s.Interferes parent u where
  held := g.held.trans h.held
  cache := g.cache.trans h.cache
  inFlight := g.inFlight.trans h.inFlight
  pending := g.pending.trans h.pending
  zones := g.zones.trans h.zones
  guarded := by
    intro hidle record zoneId hguards
    rw [g.guarded (fun hmutating => hidle (h.mutating.mp hmutating)) _ _ (h.guards hguards)]
    exact h.guarded hidle _ _ hguards

variable (parent)

def contract : Contract Ans (StoreView X) where
  interferes := Interferes parent
  permits := permits parent
  advances := fun s op answer s' => s.coherent parent ⟨op, answer⟩ ∧ s' = s.next ⟨op, answer⟩
  interferes_refl := Interferes.refl
  interferes_trans := fun _ _ _ => Interferes.trans

end

end StoreView

end Cirrusync
