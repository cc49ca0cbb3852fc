import Cirrusync.StoreAgreement

/-!
The programs of a process under the contract of the shared store. Between two
mutations a process is settled: it holds some locks, its cache names zones of
the store, nothing of its own is open, and the flag is down or up.
-/

namespace Cirrusync

open Effect Text Paging RuntimeLockIdentity

namespace StoreView

variable {X : Type}

/-- What a process can rely on at any time. -/
structure Core (locks : Set String) (origin : Store X) (s : StoreView X) : Prop where
  locked : locks ⊆ s.held
  zones : s.store.zones = origin.zones
  cache : ∀ key zoneId, s.cache key = some zoneId → CacheEntry origin.Names key zoneId
  flagged : s.Mutating → s.inFlight = true

structure Settled (locks : Set String) (origin : Store X) (flag : Bool) (s : StoreView X) :
    Prop where
  core : s.Core locks origin
  idle : ¬ s.Mutating
  flag_eq : s.inFlight = flag

variable {parent : String} {locks locks' : Set String} {origin : Store X} {flag : Bool}
  {s s' : StoreView X}

theorem Core.interferes (h : s.Core locks origin) (hs : s.Interferes parent s') :
    s'.Core locks origin := by
  refine ⟨?_, hs.zones.trans h.zones, ?_, fun hmutating => ?_⟩
  · rw [hs.held]
    exact h.locked
  · rw [hs.cache]
    exact h.cache
  · rw [hs.inFlight]
    exact h.flagged (hs.mutating.mp hmutating)

theorem Settled.interferes (h : s.Settled locks origin flag) (hs : s.Interferes parent s') :
    s'.Settled locks origin flag :=
  ⟨h.core.interferes hs, fun hmutating => h.idle (hs.mutating.mp hmutating),
    hs.inFlight.trans h.flag_eq⟩

theorem Core.fewer (h : s.Core locks origin) (hlocks : locks' ⊆ locks) :
    s.Core locks' origin :=
  ⟨hlocks.trans h.locked, h.zones, h.cache, h.flagged⟩

theorem Settled.fewer (h : s.Settled locks origin flag) (hlocks : locks' ⊆ locks) :
    s.Settled locks' origin flag :=
  ⟨h.core.fewer hlocks, h.idle, h.flag_eq⟩

theorem Core.names (h : s.Core locks origin) (zoneName zoneId : String) :
    s.store.Names zoneName zoneId ↔ origin.Names zoneName zoneId := by
  unfold Store.Names
  rw [h.zones]

/-- A request becomes pending only by its begin. -/
theorem pending_next {op : Op} {answer : Ans op} {request : Request}
    (h : (s.next ⟨op, answer⟩).pending = some request) :
    op = .act (.begin (.http request)) ∨ s.pending = some request := by
  change openAfter s.pending ⟨op, answer⟩ = some request at h
  unfold openAfter at h
  split at h
  · rename_i begun _ heq
    cases heq
    cases h
    exact .inl rfl
  · cases h
  · cases h
  · cases h
  · exact .inr h

theorem Core.next (h : s.Core locks origin) {op : Op} (hpermits : s.permits parent op)
    (answer : Ans op) (hlocks : locks' ⊆ heldAfter s.held ⟨op, answer⟩) :
    (s.next ⟨op, answer⟩).Core locks' origin := by
  refine ⟨hlocks, h.zones, fun key zoneId hcached => ?_, ?_⟩
  · rcases cacheAfter_some hcached with hbefore | hinserted
    · exact h.cache key zoneId hbefore
    · have hentry : s.permits parent (.act (.cacheInsert key zoneId)) := by
        rw [← hinserted]
        exact hpermits
      exact CacheEntry.mono (fun _ _ hnames => (h.names _ _).mp hnames) hentry
  · rintro ⟨request, hpending, hmutation⟩
    rcases pending_next hpending with rfl | hbefore
    · exact hpermits.2.2 hmutation
    · have hmutating : s.Mutating := ⟨request, hbefore, hmutation⟩
      have hflag := h.flagged hmutating
      change inFlightAfter s.inFlight ⟨op, answer⟩ = true
      unfold inFlightAfter
      split
      · rename_i heq
        cases heq
        exact absurd hmutating hpermits
      · rename_i heq
        cases heq
        exact hpermits.resolve_right fun hidle => hidle hmutating
      · exact hflag

/-- No mutation begins. -/
def ReadsOnly (op : Op) : Prop :=
  ∀ request, op = .act (.begin (.http request)) → request.isMutation = false

theorem Settled.next (h : s.Settled locks origin flag) {op : Op}
    (hpermits : s.permits parent op) (hreads : ReadsOnly op) (answer : Ans op)
    (hlocks : locks' ⊆ heldAfter s.held ⟨op, answer⟩) :
    (s.next ⟨op, answer⟩).Settled locks' origin (inFlightAfter flag ⟨op, answer⟩) := by
  refine ⟨h.core.next hpermits answer hlocks, ?_, ?_⟩
  · rintro ⟨request, hpending, hmutation⟩
    rcases pending_next hpending with rfl | hbefore
    · rw [hreads request rfl] at hmutation
      cases hmutation
    · exact h.idle ⟨request, hbefore, hmutation⟩
  · rw [← h.flag_eq]
    rfl

/-- Operations that release no lock. -/
def KeepsLocks : Op → Prop
  | .act (.unlock _) | .act (.closeLock _) => False
  | _ => True

theorem subset_heldAfter {held : Set String} {op : Op} (h : KeepsLocks op) (answer : Ans op) :
    held ⊆ heldAfter held ⟨op, answer⟩ := by
  unfold heldAfter
  split
  · exact Set.subset_insert _ _
  · rename_i heq
    cases heq
    exact h.elim
  · rename_i heq
    cases heq
    exact h.elim
  · exact subset_rfl

theorem KeepsLocks.of_lookup {op : Op} (h : LookupOp op) : KeepsLocks op := by
  unfold LookupOp at h
  split at h <;> trivial

theorem KeepsLocks.of_cycle {op : Op} (h : CycleOp op) : KeepsLocks op := by
  unfold KeepsLocks
  split
  · cases h
  · cases h
  · trivial

theorem ReadsOnly.of_lookup {op : Op} (h : LookupOp op) : ReadsOnly op := by
  rintro request rfl
  exact h

theorem ReadsOnly.of_discovery {op : Op} (h : DiscoveryOp op) : ReadsOnly op := by
  rintro request rfl
  exact h.elim

theorem inFlightAfter_lookup {flag : Bool} {op : Op} (h : LookupOp op) (answer : Ans op) :
    inFlightAfter flag ⟨op, answer⟩ = flag := by
  unfold inFlightAfter
  split
  · rename_i heq
    cases heq
    exact h.elim
  · rename_i heq
    cases heq
    exact h.elim
  · rfl

/-- A lookup leaves a process settled. -/
theorem Settled.lookup (h : s.Settled locks origin flag) {op : Op}
    (hpermits : s.permits parent op) (hop : LookupOp op) (answer : Ans op) :
    (s.next ⟨op, answer⟩).Settled locks origin flag := by
  have hnext := h.next hpermits (.of_lookup hop) answer
    (h.core.locked.trans (subset_heldAfter (.of_lookup hop) answer))
  rwa [inFlightAfter_lookup hop answer] at hnext

theorem permits_of_discovery {op : Op} (h : DiscoveryOp op) (s : StoreView X) :
    s.permits parent op := by
  unfold DiscoveryOp at h
  split at h <;> trivial

/-- Discovery leaves a process settled. -/
theorem Settled.discovery (h : s.Settled locks origin flag) {op : Op}
    (hpermits : s.permits parent op) (hop : DiscoveryOp op) (answer : Ans op) :
    (s.next ⟨op, answer⟩).Settled locks origin flag := by
  have hnext := h.next hpermits (.of_discovery hop) answer
    (h.core.locked.trans (subset_heldAfter (.of_cycle hop.cycle) answer))
  have hflag : inFlightAfter flag ⟨op, answer⟩ = flag := by
    unfold DiscoveryOp at hop
    split at hop <;> trivial
  rwa [hflag] at hnext

/-- What has been asked for is shown as long as nothing of the process is open. -/
theorem Shows.interferes {request : Request} {response : ApiResponse request.kind.Value}
    (h : s.Shows parent request response) (hidle : ¬ s.Mutating)
    (hs : s.Interferes parent s') : s'.Shows parent request response := by
  cases request with
  | getZone zoneId =>
      change response.result ∈ s'.store.zones
      rw [hs.zones]
      exact h
  | listZones name number perPage =>
      intro zone member
      rw [hs.zones]
      exact h zone member
  | listRecords zoneId recordType name number perPage =>
      intro record hguards htype hname
      have hbefore : s.Guards parent record zoneId := by
        refine ⟨hguards.valid, ?_, (hs.names _ _).mp hguards.named⟩
        rw [← hs.held]
        exact hguards.locked
      rw [hs.guarded hidle record zoneId hbefore]
      exact h record hbefore htype hname
  | _ => trivial

theorem Shows.congr {request : Request} {response : ApiResponse request.kind.Value}
    (h : s.Shows parent request response) (hstore : s'.store = s.store)
    (hheld : s'.held = s.held) : s'.Shows parent request response := by
  cases request with
  | getZone zoneId =>
      change response.result ∈ s'.store.zones
      rw [hstore]
      exact h
  | listZones name number perPage =>
      intro zone member
      rw [hstore]
      exact h zone member
  | listRecords zoneId recordType name number perPage =>
      intro record hguards htype hname
      rw [hstore]
      exact h record (hguards.of_held hheld.subset hstore) htype hname
  | _ => trivial

/-- A fact about the store and the locks that only the process itself can change. -/
structure Lasting (parent : String) (fact : StoreView X → Prop) : Prop where
  interferes : ∀ {s s'}, fact s → ¬ s.Mutating → s.Interferes parent s' → fact s'
  congr : ∀ {s s'}, fact s → s'.store = s.store → s.held ⊆ s'.held → fact s'

theorem lasting_true : Lasting parent (fun _ : StoreView X => True) :=
  ⟨fun _ _ _ => trivial, fun _ _ _ => trivial⟩

section

variable [Externals]

/-- A read keeps what lasts, and shows the store. -/
theorem send_shows {fact : StoreView X → Prop} (hfact : Lasting parent fact)
    (client : CloudflareClient) {request : Request} (hread : request.isMutation = false)
    (hs : s.Settled locks origin flag) (hholds : fact s) :
    Holds (contract parent) (fun result s' => s'.Settled locks origin flag ∧ fact s' ∧
      ∀ response, result = .ok response → s'.Shows parent request response)
      (client.send request) s := by
  simp only [CloudflareClient.send, await_eq, Program.ask_bind, Program.done_bind,
    Program.pure_eq]
  intro s₁ h₁
  have hs₁ := hs.interferes h₁
  have hfact₁ := hfact.interferes hholds hs.idle h₁
  have hbegin : s₁.permits parent (.act (.begin (.http request))) :=
    ⟨hs₁.idle, .read hread, fun hmutation => by rw [hread] at hmutation; cases hmutation⟩
  refine ⟨hbegin, ?_⟩
  rintro begun s₂ ⟨-, rfl⟩
  have hs₂ := hs₁.lookup hbegin hread begun
  have hfact₂ := @Lasting.congr _ _ _ hfact s₁
    (s₁.next ⟨.act (.begin (.http request)), begun⟩) hfact₁ rfl subset_rfl
  intro s₃ h₃
  have hs₃ := hs₂.interferes h₃
  have hfact₃ := hfact.interferes hfact₂ hs₂.idle h₃
  have hfinish : s₃.permits parent (.finish (.http request)) := h₃.pending
  refine ⟨hfinish, ?_⟩
  rintro outcome s₄ ⟨hcoherent, rfl⟩
  have hs₄ := hs₃.lookup hfinish hread outcome
  have hfact₄ := @Lasting.congr _ _ _ hfact s₃
    (s₃.next ⟨.finish (.http request), outcome⟩) hfact₃ rfl subset_rfl
  intro s₅ h₅
  refine ⟨hs₄.interferes h₅, hfact.interferes hfact₄ hs₄.idle h₅, fun response heq => ?_⟩
  have hshown : s₃.Shows parent request response :=
    hcoherent request outcome rfl client.apiToken response heq
  have hshown' : (s₃.next ⟨.finish (.http request), outcome⟩).Shows parent request response :=
    hshown.congr rfl rfl
  exact hshown'.interferes hs₄.idle h₅

/-- One operation of a lookup that is answered at once. -/
theorem act_settled {fact : StoreView X → Prop} (hfact : Lasting parent fact) {action : Action}
    (hlookup : LookupOp (.act action)) (hs : s.Settled locks origin flag) (hholds : fact s)
    (hpermits : ∀ {s' : StoreView X}, s'.Settled locks origin flag →
      s'.permits parent (.act action)) :
    Holds (contract parent) (fun answer s' => s'.Settled locks origin flag ∧ fact s' ∧
      ∃ t : StoreView X, t.Settled locks origin flag ∧ t.coherent parent ⟨.act action, answer⟩)
      (act action) s := by
  intro s₁ h₁
  have hs₁ := hs.interferes h₁
  have hfact₁ := hfact.interferes hholds hs.idle h₁
  have hpermitted := hpermits hs₁
  refine ⟨hpermitted, ?_⟩
  rintro answer s₂ ⟨hcoherent, rfl⟩
  have hs₂ := hs₁.lookup hpermitted hlookup answer
  have hheld : s₁.held ⊆ heldAfter s₁.held ⟨.act action, answer⟩ :=
    subset_heldAfter (.of_lookup hlookup) answer
  have hfact₂ := @Lasting.congr _ _ _ hfact s₁ (s₁.next ⟨.act action, answer⟩) hfact₁ rfl hheld
  intro s₃ h₃
  exact ⟨hs₂.interferes h₃, hfact.interferes hfact₂ hs₂.idle h₃, s₁, hs₁, hcoherent⟩

/-- Zone resolution against the store. -/
theorem storeZoneRule (client : CloudflareClient) :
    ZoneRule client (contract parent) (Settled locks origin flag) (fun _ => origin.Names) where
  ignoresCase := fun _ _ _ _ _ => Store.names_ignoresCase
  stable := fun hs hinterferes => ⟨hs.interferes hinterferes, fun _ _ h => h⟩
  cacheGet := by
    intro key s hs
    refine holds_mono (act_settled lasting_true (by trivial) hs trivial fun _ => trivial) ?_
    rintro answer s' ⟨hs', -, t, ht, hcoherent⟩
    refine ⟨hs', fun zoneId heq => ht.core.cache key zoneId ?_⟩
    have hcached : answer = t.cache key := hcoherent
    rw [← hcached, heq]
  cacheInsert := by
    intro key zoneId s hs hentry
    refine holds_mono (act_settled lasting_true (by trivial) hs trivial fun hs' => ?_) ?_
    · exact CacheEntry.mono (fun _ _ hnames => (hs'.core.names _ _).mpr hnames) hentry
    · rintro answer s' ⟨hs', -⟩
      exact ⟨hs', fun _ _ h => h⟩
  getZone := by
    intro zoneId s hs
    refine holds_mono (send_shows lasting_true client rfl hs trivial) ?_
    rintro result s' ⟨hs', -, hshows⟩
    refine ⟨hs', fun response heq _ => ?_⟩
    have hmember : response.result ∈ s'.store.zones := hshows response heq
    rw [hs'.core.zones] at hmember
    exact ⟨_, hmember, eqIgnoreAsciiCase_refl _, eqIgnoreAsciiCase_refl _⟩
  listZones := by
    intro name page perPage s hs
    refine holds_mono (send_shows lasting_true client rfl hs trivial) ?_
    rintro result s' ⟨hs', -, hshows⟩
    refine ⟨hs', fun _ _ h => h, fun response heq zone member _ => ?_⟩
    have hmember : zone ∈ s'.store.zones := hshows response heq zone member
    rw [hs'.core.zones] at hmember
    exact ⟨_, hmember, eqIgnoreAsciiCase_refl _, eqIgnoreAsciiCase_refl _⟩

/-- The records of a guarded record are these. -/
def Lists (parent : String) (record : RecordConfig) (zoneId : String)
    (listing : List DnsRecord) (s : StoreView X) : Prop :=
  s.Guards parent record zoneId ∧ s.store.listingOf record zoneId = listing

omit [Externals] in
theorem lasting_lists {record : RecordConfig} {zoneId : String} {listing : List DnsRecord} :
    Lasting parent (Lists (X := X) parent record zoneId listing) := by
  constructor
  · rintro s s' ⟨hguards, hlisting⟩ hidle hinterferes
    exact ⟨hinterferes.guards hguards, (hinterferes.guarded hidle _ _ hguards).trans hlisting⟩
  · rintro s s' ⟨hguards, hlisting⟩ hstore hheld
    refine ⟨⟨hguards.valid, hheld hguards.locked, ?_⟩, ?_⟩
    · rw [hstore]
      exact hguards.named
    · rw [hstore]
      exact hlisting

/-- `send` and the eviction after a 404. -/
theorem sendInZone_shows {fact : StoreView X → Prop} (hfact : Lasting parent fact)
    (client : CloudflareClient) {zoneId : String} {request : Request}
    (hread : request.isMutation = false) (hs : s.Settled locks origin flag) (hholds : fact s) :
    Holds (contract parent) (fun result s' => s'.Settled locks origin flag ∧ fact s' ∧
      ∀ response, result = .ok response → s'.Shows parent request response)
      (client.sendInZone zoneId request) s := by
  apply holds_bind
  refine holds_mono (send_shows hfact client hread hs hholds) ?_
  rintro result s' ⟨hs', hfact', hshows⟩
  cases result with
  | ok response =>
      intro s'' h''
      refine ⟨hs'.interferes h'', hfact.interferes hfact' hs'.idle h'', fun response' heq => ?_⟩
      cases heq
      exact (hshows response rfl).interferes hs'.idle h''
  | error error =>
      apply holds_bind
      have hdone : ∀ {t : StoreView X}, t.Settled locks origin flag → fact t →
          Holds (contract parent) (fun (result : Except CloudflareError
            (ApiResponse request.kind.Value)) s' => s'.Settled locks origin flag ∧ fact s' ∧
            ∀ response, result = .ok response → s'.Shows parent request response)
            (.done (.error error)) t := by
        intro t ht hft t' h'
        exact ⟨ht.interferes h', hfact.interferes hft ht.idle h', fun _ heq => by cases heq⟩
      unfold CloudflareClient.invalidateZoneAfterNotFound
      split
      · refine holds_mono (act_settled hfact (by trivial) hs' hfact' fun _ => trivial) ?_
        rintro _ t ⟨ht, hft, -⟩
        exact hdone ht hft
      · intro t h'
        exact hdone (hs'.interferes h') (hfact.interferes hfact' hs'.idle h')

omit [Externals] in
/-- A scan that has found at most one match has seen the whole list. -/
theorem listing_of_scan {listing : List DnsRecord} {recordType name : String} {number : Nat}
    {exactMatch found : Option DnsRecord} (hpos : 0 < number)
    (hfirst : number = 1 → exactMatch = none) (hlater : number ≠ 1 → listing = exactMatch.toList)
    (hmatches : ∀ entry ∈ listing, entry.isExactMatch recordType name = true)
    (hscan : exactMatch.toList ++ (page listing recordPageSize number).filter
      (DnsRecord.isExactMatch recordType name) = found.toList) : listing = found.toList := by
  have hsize : recordPageSize = 100 := rfl
  by_cases hone : number = 1
  · subst hone
    have hwhole : page listing recordPageSize 1 = listing.take recordPageSize := by simp [page]
    have hall : (listing.take recordPageSize).filter (DnsRecord.isExactMatch recordType name) =
        listing.take recordPageSize :=
      List.filter_eq_self.mpr fun entry member => hmatches entry (List.mem_of_mem_take member)
    rw [hfirst rfl, hwhole, hall] at hscan
    have hscanned : listing.take recordPageSize = found.toList := hscan
    have hlength := congrArg List.length hscanned
    have hshort : found.toList.length ≤ 1 := by cases found <;> simp
    rw [List.length_take] at hlength
    rw [← hscanned, List.take_of_length_le (by omega)]
  · have hlisting := hlater hone
    have hshort : listing.length ≤ 1 := by
      rw [hlisting]
      cases exactMatch <;> simp
    have hnone : page listing recordPageSize number = [] := by
      apply List.eq_nil_of_length_eq_zero
      rw [length_page]
      have hskip : 1 ≤ (number - 1) * recordPageSize := by
        apply Nat.mul_pos <;> omega
      omega
    rw [hnone, List.filter_nil, List.append_nil] at hscan
    rw [hlisting, hscan]

/-- The page loop against a list of exact matches, where the record is guarded. The
first page shows a second match if there is one, so that later pages have nothing to
add. -/
theorem recordPages_lists (client : CloudflareClient) {record : RecordConfig}
    {zoneId : String} {guarded : Prop} {listing : List DnsRecord} (left number : Nat)
    (exactMatch : Option DnsRecord) (hpos : 0 < number)
    (hfirst : number = 1 → exactMatch = none)
    (hlater : guarded → number ≠ 1 → listing = exactMatch.toList)
    (hs : s.Settled locks origin flag)
    (hlists : guarded → s.Lists parent record zoneId listing) :
    Holds (contract parent) (fun result s' => ∀ existing, result = .ok existing → guarded →
      ¬ s'.Mutating ∧ s'.Lists parent record zoneId existing.toList)
      (client.recordPages zoneId record.recordType.asStr record.name left number exactMatch)
      s := by
  have hfails : ∀ {error : CloudflareError} {t : StoreView X},
      Holds (contract parent) (fun (result : Except CloudflareError (Option DnsRecord))
        (s' : StoreView X) => ∀ existing, result = .ok existing → guarded →
        ¬ s'.Mutating ∧ s'.Lists parent record zoneId existing.toList)
        (.done (.error error)) t := by
    intro error t t' _ existing heq
    cases heq
  have hlasting : Lasting parent fun s : StoreView X =>
      guarded → s.Lists parent record zoneId listing :=
    ⟨fun h hidle hi hguarded => lasting_lists.interferes (h hguarded) hidle hi,
      fun h hstore hheld hguarded => lasting_lists.congr (h hguarded) hstore hheld⟩
  induction left generalizing number exactMatch s with
  | zero => exact hfails
  | succ left ih =>
      unfold CloudflareClient.recordPages
      apply holds_bind
      refine holds_mono (sendInZone_shows hlasting client rfl hs hlists) ?_
      rintro result s' ⟨hs', hlists', hshows⟩
      cases result with
      | error error => exact hfails
      | ok response =>
          have hverdict : guarded → ∀ found, scanRecords record.recordType.asStr record.name
              response.result exactMatch = .ok found → listing = found.toList := by
            intro hguarded found hscan
            have hlist := hlists' hguarded
            have hpage : response.result = page listing recordPageSize number := by
              rw [← hlist.2]
              exact hshows response rfl record hlist.1 rfl rfl
            have hmatches : ∀ entry ∈ listing,
                entry.isExactMatch record.recordType.asStr record.name = true := by
              intro entry member
              rw [← hlist.2] at member
              exact (DnsRecord.isExactMatch_iff _ _ _).mpr
                (Store.sameKey_of_mem_listing member)
            rw [scanRecords_eq, recordVerdict_ok_iff, hpage] at hscan
            exact listing_of_scan hpos hfirst (hlater hguarded) hmatches hscan
          simp only
          cases hscan : scanRecords record.recordType.asStr record.name response.result
              exactMatch with
          | error error => exact hfails
          | ok found =>
              simp only
              split
              · exact ih (number + 1) found (Nat.succ_pos _) (fun h => by omega)
                  (fun hguarded _ => hverdict hguarded found hscan) hs' hlists'
              · intro t ht existing heq hguarded
                cases heq
                rw [← hverdict hguarded found hscan]
                exact ⟨(hs'.interferes ht).idle,
                  lasting_lists.interferes (hlists' hguarded) hs'.idle ht⟩

/-- What a lookup has found of a record whose lock is among those relied on. -/
def Found (parent : String) (locks : Set String) (record : RecordConfig) (zoneId : String)
    (existing : Option DnsRecord) (s : StoreView X) : Prop :=
  lockPath parent (resourceLockHash record) ∈ locks →
    ¬ s.Mutating ∧ s.Lists parent record zoneId existing.toList

/-- The lookups of the drivers against the store. -/
theorem storeLookupRule (self : Updater)
    (hvalid : ∀ record ∈ self.config.records, ValidRecord record) :
    LookupRule self (contract parent) (Settled locks origin false)
      (fun record zoneId => origin.Names record.zone zoneId) (Found parent locks) where
  stable := Settled.interferes
  found_stable := by
    intro record zoneId existing s s' hfound hinterferes hlocked
    obtain ⟨hidle, hlists⟩ := hfound hlocked
    exact ⟨fun h => hidle (hinterferes.mutating.mp h),
      lasting_lists.interferes hlists hidle hinterferes⟩
  quiet := by
    intro action s hquiet hs
    have hcontrol : { s with inFlight := false } = s := by rw [← hs.flag_eq]
    cases action with
    | now => exact ⟨trivial, by rintro answer s' ⟨-, rfl⟩; rfl⟩
    | stopRequested => exact ⟨trivial, by rintro answer s' ⟨-, rfl⟩; rfl⟩
    | fetchAddCursor => exact ⟨trivial, by rintro answer s' ⟨-, rfl⟩; rfl⟩
    | newControl => exact ⟨hs.idle, by rintro answer s' ⟨-, rfl⟩; exact hcontrol⟩
    | _ => exact hquiet.elim
  discovery := by
    intro op s hop hs
    have hpermits : s.permits parent op := permits_of_discovery hop s
    refine ⟨hpermits, ?_⟩
    rintro answer s' ⟨-, rfl⟩
    exact hs.discovery hpermits hop answer
  lookup := by
    rintro s op answer s' hop hs hpermits ⟨-, rfl⟩
    exact hs.lookup hpermits hop answer
  expires := by
    intro s wait deadline hlookup hpermits
    cases wait with
    | http request =>
        refine ⟨⟨hpermits, hlookup⟩, ?_⟩
        rintro answer s' ⟨hcoherent, rfl⟩
        exact ⟨hcoherent, rfl⟩
    | query provider attemptTimeout => exact hlookup.elim
    | sleep duration => exact hlookup.elim
  resolve := by
    intro record s hmember hs
    refine holds_mono (self.cloudflare.resolveZoneId_resolves (storeZoneRule self.cloudflare)
      (hvalid record hmember).plain record.zoneId hs) ?_
    rintro result s' ⟨-, hnames⟩
    exact hnames
  find := by
    intro record zoneId s hmember hnames hs
    exact recordPages_lists self.cloudflare maxPages 1 none Nat.one_pos (fun _ => rfl)
      (fun _ h => absurd rfl h) hs fun hlocked =>
        ⟨⟨hvalid record hmember, hs.core.locked hlocked, (hs.core.names _ _).mpr hnames⟩, rfl⟩

/-- A mutation that may be sent, and the eviction after a 404. -/
theorem sendInZone_mutates (client : CloudflareClient) {zoneId : String} {request : Request}
    (hs : s.Settled locks origin true) (hauthorized : s.Authorized parent request) :
    Holds (contract parent) (fun _ s' => s'.Settled locks origin true)
      (client.sendInZone zoneId request) s := by
  have hdone : ∀ {α : Type} {value : α} {t : StoreView X}, t.Settled locks origin true →
      Holds (contract parent) (fun _ s' => s'.Settled locks origin true) (.done value) t :=
    fun ht _ h => ht.interferes h
  simp only [CloudflareClient.sendInZone, CloudflareClient.send, await_eq, Program.ask_bind,
    Program.done_bind, Program.pure_eq]
  intro s₁ h₁
  have hs₁ := hs.interferes h₁
  have hbegin : s₁.permits parent (.act (.begin (.http request))) := by
    refine ⟨hs₁.idle, ?_, fun _ => hs₁.flag_eq⟩
    exact hauthorized.frame h₁.held h₁.zones fun _ _ h => h₁.guarded hs.idle _ _ h
  refine ⟨hbegin, ?_⟩
  rintro begun s₂ ⟨-, rfl⟩
  have hcore := hs₁.core.next hbegin begun hs₁.core.locked
  intro s₃ h₃
  have hcore₃ := hcore.interferes h₃
  have hfinish : s₃.permits parent (.finish (.http request)) := h₃.pending
  refine ⟨hfinish, ?_⟩
  rintro outcome s₄ ⟨-, rfl⟩
  have hs₄ : (s₃.next ⟨.finish (.http request), outcome⟩).Settled locks origin true := by
    refine ⟨hcore₃.next hfinish outcome hcore₃.locked, ?_, ?_⟩
    · rintro ⟨open_, hopen, -⟩
      cases hopen
    · exact h₃.inFlight.trans hs₁.flag_eq
  beta_reduce
  cases receive client.apiToken request outcome with
  | ok response => exact hdone hs₄
  | error error =>
      simp only [CloudflareClient.invalidateZoneAfterNotFound]
      split
      · apply holds_bind
        refine holds_mono (act_settled lasting_true (by trivial) hs₄ trivial fun _ => trivial) ?_
        rintro _ t ⟨ht, -⟩
        exact hdone ht
      · exact hdone hs₄

/-- The flag goes up for the mutation and down after it. -/
theorem guarded_settles {α : Type} {mutation : M α} {fact : StoreView X → Prop}
    (hfact : Lasting parent fact) (hs : s.Settled locks origin false) (hholds : fact s)
    (hmutation : ∀ {s : StoreView X}, s.Settled locks origin true → fact s →
      Holds (contract parent) (fun _ s' => s'.Settled locks origin true) mutation s) :
    Holds (contract parent) (fun _ s' => s'.Settled locks origin false) (guarded mutation) s := by
  simp only [guarded, act_eq, Program.ask_bind, Program.done_bind, Program.pure_eq]
  intro s₁ h₁
  have hs₁ := hs.interferes h₁
  have hraise : s₁.permits parent (.act (.setMutationInFlight true)) := .inl rfl
  refine ⟨hraise, ?_⟩
  rintro raised s₂ ⟨-, rfl⟩
  have hs₂ := hs₁.next hraise (fun _ h => by cases h) raised hs₁.core.locked
  have hfact₂ := @Lasting.congr _ _ _ hfact s₁
    (s₁.next ⟨.act (.setMutationInFlight true), raised⟩)
    (hfact.interferes hholds hs.idle h₁) rfl subset_rfl
  apply holds_bind
  refine holds_mono (hmutation hs₂ hfact₂) ?_
  intro result s₃ hs₃ s₄ h₄
  have hs₄ := hs₃.interferes h₄
  have hlower : s₄.permits parent (.act (.setMutationInFlight false)) := .inr hs₄.idle
  refine ⟨hlower, ?_⟩
  rintro lowered s₅ ⟨-, rfl⟩
  have hs₅ := hs₄.next hlower (fun _ h => by cases h) lowered hs₄.core.locked
  exact fun _ h => hs₅.interferes h

theorem resultInZone_settles {α : Type} (client : CloudflareClient) {zoneId : String}
    {request : Request} {rest : Except CloudflareError (ApiResponse request.kind.Value) →
      M (Except CloudflareError α)}
    (hrest : ∀ result, ∃ value, rest result = .done value)
    (hs : s.Settled locks origin true) (hauthorized : s.Authorized parent request) :
    Holds (contract parent) (fun _ s' => s'.Settled locks origin true)
      (client.sendInZone zoneId request >>= rest) s := by
  apply holds_bind
  refine holds_mono (sendInZone_mutates client hs hauthorized) ?_
  intro result s' hs'
  obtain ⟨value, hvalue⟩ := hrest result
  rw [hvalue]
  exact fun _ h => hs'.interferes h

theorem storeMutationRule (self : Updater)
    (hlocked : ∀ record ∈ self.config.records, lockPath parent (resourceLockHash record) ∈ locks) :
    MutationRule self (contract parent) (Settled locks origin false) (Found parent locks) where
  update := by
    intro record zoneId existing s address hmember hs hfound
    obtain ⟨-, hlists⟩ := hfound (hlocked record hmember)
    refine guarded_settles lasting_lists hs hlists ?_
    rintro s hs ⟨hguards, hlisting⟩
    refine resultInZone_settles self.cloudflare ?_ hs (.update hguards hlisting rfl rfl)
    rintro (error | response) <;> exact ⟨_, rfl⟩
  create := by
    intro record zoneId s address hmember hs hfound
    obtain ⟨-, hlists⟩ := hfound (hlocked record hmember)
    refine guarded_settles lasting_lists hs hlists ?_
    rintro s hs ⟨hguards, hlisting⟩
    refine resultInZone_settles self.cloudflare ?_ hs (.create hguards hlisting rfl rfl)
    rintro (error | response) <;> exact ⟨_, rfl⟩

/-- A check with a flag set has the locks of its records. -/
theorem storeCheckRule (self : Updater) (allowCreate allowEditProbe : Bool)
    (hlocked : allowCreate = true ∨ allowEditProbe = true →
      ∀ record ∈ self.config.records, lockPath parent (resourceLockHash record) ∈ locks) :
    CheckRule self (contract parent) (Settled locks origin false) (Found parent locks)
      allowCreate allowEditProbe where
  verify := by
    intro s hs
    unfold CloudflareClient.verifyToken
    apply holds_bind
    refine holds_mono (send_shows lasting_true self.cloudflare rfl hs trivial) ?_
    rintro result s' -
    cases result with
    | error error =>
        simp only
        split <;> exact fun _ _ => trivial
    | ok response =>
        simp only
        split <;> exact fun _ _ => trivial
  create := by
    intro hallowed record zoneId s address hmember hs hfound
    exact (storeMutationRule self (hlocked (.inl hallowed))).create address hmember hs hfound
  probe := by
    intro hallowed record zoneId existing s hmember hs hfound
    obtain ⟨-, hlists⟩ := hfound (hlocked (.inr hallowed) record hmember)
    refine guarded_settles lasting_lists hs hlists ?_
    rintro s hs ⟨hguards, hlisting⟩
    refine resultInZone_settles self.cloudflare ?_ hs (.probe hguards hlisting rfl rfl)
    rintro (error | response) <;> exact ⟨_, rfl⟩

/-- The loop around the cycles keeps to the contract of the shared store: the core of the
invariant holds at every step of a cycle, also where the signal cuts it off, and between two
cycles the process is settled. -/
theorem storeLoopRule :
    LoopRule (contract parent) (Core locks origin) (Settled locks origin false) := by
  have hact : ∀ (action : Action) {s : StoreView X}, s.Settled locks origin false →
      s.permits parent (.act action) → KeepsLocks (.act action) → ReadsOnly (.act action) →
      (∀ answer : action.Answer, inFlightAfter false ⟨.act action, answer⟩ = false) →
      s.permits parent (.act action) ∧ ∀ answer s',
        (contract parent).advances s (.act action) answer s' → s'.Settled locks origin false := by
    intro action s hs hpermits hkeeps hreads hflag
    refine ⟨hpermits, ?_⟩
    rintro answer s' ⟨-, rfl⟩
    have hnext := hs.next hpermits hreads answer
      (hs.core.locked.trans (subset_heldAfter hkeeps answer))
    rwa [hflag answer] at hnext
  refine ⟨Settled.core, Settled.interferes, Core.interferes, ?_, ?_, ?_, ?_, ?_, ?_, ?_, ?_⟩
  · rintro s op answer s' hop hs hpermits ⟨-, rfl⟩
    exact hs.next hpermits answer (hs.locked.trans (subset_heldAfter (.of_cycle hop) answer))
  · exact fun _ => ⟨trivial, by rintro answer s' ⟨-, rfl⟩; rfl⟩
  · exact fun _ => ⟨trivial, by rintro answer s' ⟨-, rfl⟩; rfl⟩
  · exact fun _ => ⟨trivial, by rintro answer s' ⟨-, rfl⟩; rfl⟩
  · rintro s op hs _ _ ⟨hflag, -⟩
    have hdown : false = s.inFlight := hflag
    refine ⟨hs, fun hmutating => ?_, hdown.symm⟩
    rw [hs.flagged hmutating] at hdown
    cases hdown
  · intro s duration hs
    have hslept : s.permits parent (.finish (.sleep duration)) := trivial
    refine ⟨hact (.begin (.sleep duration)) hs trivial trivial (fun _ h => by cases h)
      fun _ => rfl, hslept, ?_⟩
    rintro answer s' ⟨-, rfl⟩
    exact hs.next hslept (fun _ h => by cases h) answer hs.core.locked
  · exact fun hs => hact .jitterPercent hs trivial trivial (fun _ h => by cases h) fun _ => rfl
  · exact fun hs => hact .newControl hs hs.idle trivial (fun _ h => by cases h) fun _ => rfl

/-! The runtime lock. -/

/-- What touches the lock files only leaves a process settled, without its locks. -/
theorem lockOps_settle {α : Type} {p : M α} (huses : Uses LockOp p)
    (hs : s.Settled locks origin false) :
    Holds (contract parent) (fun _ s' => s'.Settled ∅ origin false) p s := by
  refine holds_of_uses (fun _ _ => Settled.interferes) ?_ huses (hs.fewer (Set.empty_subset _))
  intro s op hs hop
  have hpermits : s.permits parent op := by
    unfold LockOp at hop
    split at hop <;> first | trivial | exact hs.idle
  refine ⟨hpermits, ?_⟩
  rintro answer s' ⟨-, rfl⟩
  have hreads : ReadsOnly op := by
    rintro request rfl
    exact hop.elim
  have hflag : inFlightAfter false ⟨op, answer⟩ = false := by
    unfold LockOp at hop
    split at hop <;> trivial
  have hnext := hs.next hpermits hreads answer (Set.empty_subset _)
  rwa [hflag] at hnext

/-- How an attempt ends: settled, and with the locks where it returns a guard. -/
def Acquired (parent : String) (origin : Store X) (hashes : List UInt64)
    (result : Except RuntimeLockError RuntimeLockGuard) (s : StoreView X) : Prop :=
  s.Settled ∅ origin false ∧
    ∀ guard, result = .ok guard → s.Settled (lockSet parent hashes) origin false

theorem refused_acquires {hashes : List UInt64} {files : List String}
    {error : RuntimeLockError} (hs : s.Settled locks origin false) :
    Holds (contract parent) (Acquired parent origin hashes)
      (do
        closeFiles files
        return .error error) s := by
  apply holds_bind
  refine holds_mono (lockOps_settle (closeFiles_uses files) hs) ?_
  intro _ s' hs' s'' h''
  exact ⟨hs'.interferes h'', fun guard heq => by cases heq⟩

/-- The loop of `acquire`, after the files of `before` have been locked. -/
theorem lockFiles_acquires (hashes before : List UInt64)
    (hs : s.Settled (lockSet parent before) origin false) :
    Holds (contract parent) (Acquired parent origin (before ++ hashes))
      (lockFiles (hashes.map (lockPath parent)) (before.map (lockPath parent))) s := by
  induction hashes generalizing before s with
  | nil =>
      intro s' h
      have hs' := hs.interferes h
      refine ⟨hs'.fewer (Set.empty_subset _), fun _ _ => ?_⟩
      rwa [List.append_nil]
  | cons hash rest ih =>
      simp only [List.map_cons, lockFiles, act_eq, Program.ask_bind, Program.done_bind]
      intro s₁ h₁
      have hs₁ := hs.interferes h₁
      have hopen : s₁.permits parent (.act (.openRuntimeLock (lockPath parent hash))) := trivial
      refine ⟨hopen, ?_⟩
      rintro opened s₂ ⟨-, rfl⟩
      have hs₂ := hs₁.next hopen (fun _ h => by cases h) opened hs₁.core.locked
      cases opened with
      | error error => exact refused_acquires hs₂
      | ok value =>
          intro s₃ h₃
          have hs₃ := hs₂.interferes h₃
          have htry : s₃.permits parent (.act (.tryLock (lockPath parent hash))) := hs₃.idle
          refine ⟨htry, ?_⟩
          rintro tried s₄ ⟨-, rfl⟩
          have hkept : s₃.held ⊆
              heldAfter s₃.held ⟨.act (.tryLock (lockPath parent hash)), tried⟩ :=
            @subset_heldAfter s₃.held (.act (.tryLock (lockPath parent hash))) trivial tried
          have hs₄ := hs₃.next htry (fun _ h => by cases h) tried (hs₃.core.locked.trans hkept)
          cases tried with
          | ok =>
              have hlocks : lockSet parent (before ++ [hash]) ⊆
                  heldAfter s₃.held ⟨.act (.tryLock (lockPath parent hash)), .ok ()⟩ := by
                rw [lockSet_append_singleton]
                exact Set.insert_subset_insert hs₃.core.locked
              have hs₄ := hs₃.next htry (fun _ h => by cases h) (.ok ()) hlocks
              have hnext := ih (before ++ [hash]) hs₄
              rw [List.append_assoc, List.singleton_append, List.map_append,
                List.map_singleton] at hnext
              exact hnext
          | error fault =>
              cases fault with
              | contended => exact refused_acquires hs₄
              | other source => exact refused_acquires hs₄

theorem acquire_acquires (identity : RuntimeLockIdentity)
    (hs : s.Settled ∅ origin false) :
    Holds (contract parent) (Acquired parent origin identity.resourceHashes)
      identity.acquire s := by
  have hfails : ∀ {error : RuntimeLockError} {t : StoreView X}, t.Settled ∅ origin false →
      Holds (contract parent) (Acquired parent origin identity.resourceHashes)
        (.done (.error error)) t :=
    fun ht _ h => ⟨ht.interferes h, fun guard heq => by cases heq⟩
  unfold acquire
  split
  · exact hfails hs
  · simp only [act_eq, Program.ask_bind, Program.done_bind]
    intro s₁ h₁
    have hs₁ := hs.interferes h₁
    have hprepare : s₁.permits parent (.act (.prepareLockParent identity.lockRoot
        identity.temporaryRoot)) := trivial
    refine ⟨hprepare, ?_⟩
    rintro prepared s₂ ⟨hcoherent, rfl⟩
    have hs₂ := hs₁.next hprepare (fun _ h => by cases h) prepared hs₁.core.locked
    cases prepared with
    | error error => exact hfails hs₂
    | ok directory =>
        obtain rfl : directory = parent := hcoherent
        have hnone : lockSet directory [] = ∅ := by simp [lockSet]
        rw [← hnone] at hs₂
        exact lockFiles_acquires identity.resourceHashes [] hs₂

end

end StoreView

end Cirrusync
