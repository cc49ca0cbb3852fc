import Cirrusync.DaemonRules
import Cirrusync.ZoneResolution

/-!
Which zone ids a process may use. Along its history it is tracked which active
zones the responses have shown and what the cache keeps; the cache is filled
with ids only that a response has vouched for under the same name.
-/

namespace Cirrusync

open Effect Text

section

variable [Externals]

/-- The zones that the response of a step shows. -/
def zonesAnswered (apiToken : String) (step : Step) : List Zone :=
  match replied step with
  | some (.getZone zoneId, outcome) =>
      match receive apiToken (.getZone zoneId) outcome with
      | .ok response => [response.result]
      | .error _ => []
  | some (.listZones name page perPage, outcome) =>
      match receive apiToken (.listZones name page perPage) outcome with
      | .ok response => response.result
      | .error _ => []
  | _ => []

/-- The response of a step shows an active zone of this name and id. -/
def Vouches (apiToken : String) (step : Step) (zoneName zoneId : String) : Prop :=
  ∃ zone ∈ zonesAnswered apiToken step, zone.isActive = true ∧
    eqIgnoreAsciiCase zone.name zoneName = true ∧ eqIgnoreAsciiCase zone.id zoneId = true

end

/-- A record of cached zone ids, changed by a step. -/
def cacheAfter (cache : String → Option String) : Step → String → Option String
  | ⟨.act (.cacheInsert key zoneId), _⟩ => Function.update cache key (some zoneId)
  | ⟨.act (.cacheEvict zoneId), _⟩ =>
      fun key => (cache key).filter (fun cached => !eqIgnoreAsciiCase cached zoneId)
  | _ => cache

theorem cacheAfter_some {cache : String → Option String} {step : Step} {key zoneId : String}
    (h : cacheAfter cache step key = some zoneId) :
    cache key = some zoneId ∨ step.op = .act (.cacheInsert key zoneId) := by
  unfold cacheAfter at h
  split at h
  · rename_i inserted zoneId' _
    by_cases hkey : key = inserted
    · subst hkey
      rw [Function.update_self] at h
      cases h
      exact .inr rfl
    · rw [Function.update_of_ne hkey] at h
      exact .inl h
  · exact .inl (Option.filter_eq_some_iff.mp h).1
  · exact .inl h

structure ZoneState where
  known : String → String → Prop
  cache : String → Option String

namespace ZoneState

/-- A process that has just started. -/
def start : ZoneState where
  known := fun _ _ => False
  cache := fun _ => none

/-- The cache answers with what it keeps. -/
def coherent (s : ZoneState) : Step → Prop
  | ⟨.act (.cacheGet key), answer⟩ => answer = s.cache key
  | _ => True

/-- Only ids that are known for the zone enter the cache. -/
def permits (s : ZoneState) : Op → Prop
  | .act (.cacheInsert key zoneId) => CacheEntry s.known key zoneId
  | _ => True

/-- Every cached id is known for the zone. -/
def Sound (s : ZoneState) : Prop :=
  IgnoresCase s.known ∧ ∀ key zoneId, s.cache key = some zoneId → CacheEntry s.known key zoneId

theorem start_sound : start.Sound :=
  ⟨fun h => h.elim, fun _ _ h => by cases h⟩

section

variable [Externals]

def next (apiToken : String) (s : ZoneState) (step : Step) : ZoneState where
  known := fun zoneName zoneId => s.known zoneName zoneId ∨ Vouches apiToken step zoneName zoneId
  cache := cacheAfter s.cache step

end

end ZoneState

theorem CacheEntry.mono {zoneOf zoneOf' : String → String → Prop} {key zoneId : String}
    (hgrows : ∀ name zoneId, zoneOf name zoneId → zoneOf' name zoneId)
    (h : CacheEntry zoneOf key zoneId) : CacheEntry zoneOf' key zoneId := by
  obtain ⟨zoneName, hplain, hzone, hkey⟩ := h
  exact ⟨zoneName, hplain, hgrows _ _ hzone, hkey⟩

section

variable [Externals]

theorem Vouches.ignoresCase {apiToken : String} {step : Step} :
    IgnoresCase (Vouches apiToken step) := by
  rintro name name' zoneId zoneId' ⟨zone, member, hactive, hname, hid⟩ hname' hid'
  exact ⟨zone, member, hactive, eqIgnoreAsciiCase_trans hname hname',
    eqIgnoreAsciiCase_trans hid hid'⟩

open ZoneState

/-- A permitted step keeps the cache sound. -/
theorem ZoneState.Sound.next {apiToken : String} {s : ZoneState} (hs : s.Sound) {op : Op}
    (hop : s.permits op) (answer : Ans op) : (s.next apiToken ⟨op, answer⟩).Sound := by
  constructor
  · intro name name' zoneId zoneId' h hname hid
    rcases h with hknown | hvouches
    · exact .inl (hs.1 hknown hname hid)
    · exact .inr (hvouches.ignoresCase hname hid)
  · intro key zoneId hcached
    have hgrows : ∀ name zoneId, s.known name zoneId →
        (s.next apiToken ⟨op, answer⟩).known name zoneId := fun _ _ h => .inl h
    have hkept : s.cache key = some zoneId →
        CacheEntry (s.next apiToken ⟨op, answer⟩).known key zoneId :=
      fun h => (hs.2 key zoneId h).mono hgrows
    rcases cacheAfter_some hcached with hbefore | hinserted
    · exact (hs.2 key zoneId hbefore).mono hgrows
    · have hentry : s.permits (.act (.cacheInsert key zoneId)) := by
        rw [← hinserted]
        exact hop
      exact CacheEntry.mono hgrows hentry

def vouchContract (apiToken : String) : Contract Ans ZoneState :=
  .track permits coherent (ZoneState.next apiToken)

/-- Operations that put nothing into the cache. -/
def NoInsertOp : Op → Prop
  | .act (.cacheInsert _ _) => False
  | _ => True

omit [Externals] in
theorem DiscoveryOp.noInsert {op : Op} (h : DiscoveryOp op) : NoInsertOp op := by
  unfold DiscoveryOp at h
  split at h <;> trivial

omit [Externals] in
theorem LockOp.noInsert {op : Op} (h : LockOp op) : NoInsertOp op := by
  unfold LockOp at h
  split at h <;> trivial

theorem holds_vouch_ask {α : Type} {apiToken : String} {post : α → ZoneState → Prop}
    {op : Op} {rest : Ans op → M α} {s : ZoneState} (hs : s.Sound) (hop : s.permits op)
    (hrest : ∀ answer, s.coherent ⟨op, answer⟩ → (s.next apiToken ⟨op, answer⟩).Sound →
      Holds (vouchContract apiToken) post (rest answer) (s.next apiToken ⟨op, answer⟩)) :
    Holds (vouchContract apiToken) post (.ask op rest) s :=
  holds_track_ask.mpr ⟨hop, fun answer hcoherent => hrest answer hcoherent (hs.next hop answer)⟩

omit [Externals] in
theorem permits_of_noInsert {op : Op} (h : NoInsertOp op) (s : ZoneState) : s.permits op := by
  unfold NoInsertOp at h
  unfold permits
  split at h
  · exact h.elim
  · trivial

/-- What puts nothing into the cache keeps it sound. -/
theorem holds_noInsert {α : Type} {apiToken : String} {p : M α} (huses : Uses NoInsertOp p)
    {s : ZoneState} (hs : s.Sound) :
    Holds (vouchContract apiToken) (fun _ s' => s'.Sound) p s := by
  induction p generalizing s with
  | done value => exact holds_track_done.mpr hs
  | ask op rest ih =>
      have hop := permits_of_noInsert huses.1 s
      exact holds_vouch_ask hs hop fun answer _ hnext => ih answer (huses.2 answer) hnext

theorem next_act {apiToken : String} (s : ZoneState) {action : Action}
    (haction : ∀ key zoneId, action ≠ .cacheInsert key zoneId)
    (hevict : ∀ zoneId, action ≠ .cacheEvict zoneId) (answer : action.Answer) :
    s.next apiToken ⟨.act action, answer⟩ = s := by
  have hknown : ∀ name zoneId, (s.known name zoneId ∨
      Vouches apiToken ⟨.act action, answer⟩ name zoneId) = s.known name zoneId := by
    intro name zoneId
    apply propext
    constructor
    · rintro (h | ⟨zone, member, -⟩)
      · exact h
      · cases member
    · exact .inl
  have hcache : cacheAfter s.cache ⟨.act action, answer⟩ = s.cache := by
    cases action with
    | cacheInsert key zoneId => exact absurd rfl (haction key zoneId)
    | cacheEvict zoneId => exact absurd rfl (hevict zoneId)
    | _ => rfl
  simp only [ZoneState.next, hknown, hcache]

/-- What a resolution returns is known: a response of the API has shown the zone under this name,
or the cache has kept it from such a response. -/
theorem vouchZoneRule (client : CloudflareClient) :
    ZoneRule client (vouchContract client.apiToken) Sound ZoneState.known where
  ignoresCase := And.left
  stable := by
    rintro s s' hs rfl
    exact ⟨hs, fun _ _ h => h⟩
  cacheGet := by
    intro key s hs
    refine holds_vouch_ask hs trivial fun answer hcoherent hnext => ?_
    refine holds_track_done.mpr ⟨hnext, fun zoneId heq => ?_⟩
    have hcached : s.cache key = some zoneId := hcoherent.symm.trans heq
    exact (hs.2 key zoneId hcached).mono fun _ _ h => .inl h
  cacheInsert := by
    intro key zoneId s hs hentry
    refine holds_vouch_ask hs hentry fun answer _ hnext => ?_
    exact holds_track_done.mpr ⟨hnext, fun _ _ h => .inl h⟩
  getZone := by
    intro zoneId s hs
    refine holds_vouch_ask hs trivial fun begun _ hbegun => ?_
    refine holds_vouch_ask hbegun trivial fun outcome _ hnext => ?_
    refine holds_track_done.mpr ⟨hnext, fun response hresponse hactive => ?_⟩
    refine .inr ⟨response.result, ?_, hactive, eqIgnoreAsciiCase_refl _,
      eqIgnoreAsciiCase_refl _⟩
    simp [zonesAnswered, replied, hresponse]
  listZones := by
    intro name page perPage s hs
    refine holds_vouch_ask hs trivial fun begun _ hbegun => ?_
    refine holds_vouch_ask hbegun trivial fun outcome _ hnext => ?_
    refine holds_track_done.mpr ⟨hnext, fun _ _ h => .inl (.inl h), ?_⟩
    intro response hresponse zone member hactive
    refine .inr ⟨zone, ?_, hactive, eqIgnoreAsciiCase_refl _, eqIgnoreAsciiCase_refl _⟩
    simpa [zonesAnswered, replied, hresponse] using member

variable (self : Updater)

/-- The drivers keep the knowledge of zones sound, whatever their lookups are answered; nothing is
asked here of the zones and records that they find. -/
theorem vouchLookupRule (hplain : ∀ record ∈ self.config.records, PlainName record.zone) :
    LookupRule self (vouchContract self.cloudflare.apiToken) Sound (fun _ _ => True)
      (fun _ _ _ _ => True) where
  stable := by
    rintro s s' hs rfl
    exact hs
  found_stable := fun _ _ => trivial
  quiet := by
    intro action s hquiet hs
    refine ⟨permits_of_noInsert (by cases action <;> trivial) s, ?_⟩
    rintro answer s' ⟨-, rfl⟩
    apply next_act
    · rintro key zoneId rfl
      exact hquiet
    · rintro zoneId rfl
      exact hquiet
  discovery := by
    intro op s hdiscovery hs
    have hop : s.permits op := permits_of_noInsert hdiscovery.noInsert s
    refine ⟨hop, ?_⟩
    rintro answer s' ⟨-, rfl⟩
    exact hs.next hop answer
  lookup := by
    rintro s op answer s' - hs hop ⟨-, rfl⟩
    exact hs.next hop answer
  expires := by
    intro s wait deadline hlookup _
    refine ⟨trivial, ?_⟩
    rintro answer s' ⟨-, rfl⟩
    cases wait <;> exact ⟨trivial, rfl⟩
  resolve := fun hmember hs => holds_mono
    (self.cloudflare.resolveZoneId_resolves (vouchZoneRule self.cloudflare)
      (hplain _ hmember) _ hs) fun _ _ _ _ _ => trivial
  find := fun _ _ hs => holds_mono (holds_noInsert (self.cloudflare.uses_recordPages
    (fun _ => trivial) (fun _ => trivial) trivial _ _ _) hs) fun _ _ _ _ _ => trivial

theorem vouchMutationRule :
    MutationRule self (vouchContract self.cloudflare.apiToken) Sound
      (fun _ _ _ _ => True) where
  update := fun _ _ hs _ => holds_noInsert (uses_guarded (fun _ => trivial)
    (self.cloudflare.updateRecord_uses trivial trivial trivial)) hs
  create := fun _ _ hs _ => holds_noInsert (uses_guarded (fun _ => trivial)
    (self.cloudflare.createRecord_uses trivial trivial trivial)) hs

theorem vouchCheckRule (allowCreate allowEditProbe : Bool) :
    CheckRule self (vouchContract self.cloudflare.apiToken) Sound
      (fun _ _ _ _ => True) allowCreate allowEditProbe where
  verify := fun hs => holds_mono (holds_noInsert
    (self.cloudflare.uses_verifyToken trivial trivial) hs) fun _ _ _ => trivial
  create := fun _ _ _ _ _ _ hs _ => holds_noInsert (uses_guarded (fun _ => trivial)
    (self.cloudflare.createRecord_uses trivial trivial trivial)) hs
  probe := fun _ _ _ _ _ _ hs _ => holds_noInsert (uses_guarded (fun _ => trivial)
    (self.cloudflare.probeRecordEdit_uses (fun _ => trivial) (fun _ => trivial) trivial)) hs

/-- The steps of the loop around the cycles keep the knowledge of zones sound, as none of them
puts anything into the cache. -/
theorem vouchLoopRule (apiToken : String) :
    LoopRule (vouchContract apiToken) Sound Sound := by
  have hquiet : ∀ {action : Action}, (∀ key zoneId, action ≠ .cacheInsert key zoneId) →
      (∀ zoneId, action ≠ .cacheEvict zoneId) → ∀ {s : ZoneState},
      (vouchContract apiToken).permits s (.act action) ∧ ∀ answer s',
        (vouchContract apiToken).advances s (.act action) answer s' → s' = s := by
    intro action hinsert hevict s
    refine ⟨permits_of_noInsert ?_ s, ?_⟩
    · cases action with
      | cacheInsert key zoneId => exact absurd rfl (hinsert key zoneId)
      | _ => trivial
    · rintro answer s' ⟨-, rfl⟩
      exact next_act s hinsert hevict answer
  have hsound : ∀ {s : ZoneState} {op : Op}, s.Sound → NoInsertOp op →
      (vouchContract apiToken).permits s op ∧ ∀ answer s',
        (vouchContract apiToken).advances s op answer s' → s'.Sound := by
    intro s op hs hop
    refine ⟨permits_of_noInsert hop s, ?_⟩
    rintro answer s' ⟨-, rfl⟩
    exact hs.next (permits_of_noInsert hop s) answer
  have hstable : ∀ {s s' : ZoneState}, s.Sound → (vouchContract apiToken).interferes s s' →
      s'.Sound := by
    rintro s s' hs rfl
    exact hs
  refine ⟨fun h => h, hstable, hstable, ?_, ?_, ?_, ?_, fun hs _ _ _ => hs, ?_, ?_, ?_⟩
  · rintro s op answer s' - hs hop ⟨-, rfl⟩
    exact hs.next hop answer
  · exact fun _ => hquiet (fun _ _ h => by cases h) (fun _ h => by cases h)
  · exact fun _ => hquiet (fun _ _ h => by cases h) (fun _ h => by cases h)
  · exact fun _ => hquiet (fun _ _ h => by cases h) (fun _ h => by cases h)
  · exact fun hs => ⟨hsound hs trivial, hsound hs trivial⟩
  · exact fun hs => hsound hs trivial
  · exact fun hs => hsound hs trivial

/-- In the course of a program too the cache is sound. -/
theorem reaches_sound {α : Type} {apiToken : String} {post : α → ZoneState → Prop}
    {p q : M α} {trace : List Step} (hreach : Reaches p trace q) {s : ZoneState}
    (h : Holds (vouchContract apiToken) post p s) (hs : s.Sound)
    (hcoherent : CoherentFrom coherent (ZoneState.next apiToken) s trace) :
    (trace.foldl (ZoneState.next apiToken) s).Sound := by
  induction hreach generalizing s with
  | here p => exact hs
  | ask answer _ ih =>
      obtain ⟨hop, hrest⟩ := holds_track_ask.mp h
      exact ih (hrest answer hcoherent.1) (hs.next hop answer) hcoherent.2

/-- What an updater has done since its process has started. -/
inductive Process : List Step → Prop where
  | start : Process []
  | cycle {past trace : List Step} {report : CycleReport} : Process past →
      Runs self.runCycle trace report → Process (past ++ trace)
  | check {past trace : List Step} {allowCreate allowEditProbe : Bool}
      {report : CheckReport} : Process past →
      Runs (self.check allowCreate allowEditProbe) trace report → Process (past ++ trace)
  | loop {past trace : List Step} {iterations : Nat} {result : LoopResult} : Process past →
      Runs (self.runLoop iterations) trace result → Process (past ++ trace)

/-- The cache answers, from the start of the process on, with what it keeps. -/
def CacheReads (apiToken : String) (history : List Step) : Prop :=
  CoherentFrom coherent (ZoneState.next apiToken) start history

section

variable (hplain : ∀ record ∈ self.config.records, PlainName record.zone)

include hplain

theorem runCycleLocked_vouches {s : ZoneState} (hs : s.Sound) :
    Holds (vouchContract self.cloudflare.apiToken) (fun _ s' => s'.Sound)
      self.runCycleLocked s :=
  self.runCycleLocked_keeps (vouchLookupRule self hplain) (vouchMutationRule self) hs

theorem runCycle_vouches {s : ZoneState} (hs : s.Sound) :
    Holds (vouchContract self.cloudflare.apiToken) (fun _ s' => s'.Sound)
      self.runCycle s := by
  simp only [Updater.runCycle, act_eq, Program.ask_bind, Program.done_bind]
  refine holds_vouch_ask hs trivial fun _ _ hnext => ?_
  apply holds_bind
  refine holds_mono (holds_noInsert (uses_mono (acquire_uses self.runtimeLock)
    fun _ => LockOp.noInsert) hnext) ?_
  intro acquired s' hs'
  cases acquired with
  | error error => exact holds_track_done.mpr hs'
  | ok lock =>
      apply holds_bind
      refine holds_mono (runCycleLocked_vouches self hplain hs') ?_
      intro report s'' hs''
      apply holds_bind
      refine holds_mono (holds_noInsert (uses_mono (drop_uses lock)
        fun _ => LockOp.noInsert) hs'') ?_
      intro _ t ht
      exact holds_track_done.mpr ht

theorem check_vouches (allowCreate allowEditProbe : Bool) {s : ZoneState} (hs : s.Sound) :
    Holds (vouchContract self.cloudflare.apiToken) (fun _ s' => s'.Sound)
      (self.check allowCreate allowEditProbe) s := by
  have huntil : ∀ (deadline : Instant) {s : ZoneState}, s.Sound →
      Holds (vouchContract self.cloudflare.apiToken) (fun _ s' => s'.Sound)
        (self.checkUntil allowCreate allowEditProbe deadline) s := fun deadline {s} hs =>
    self.checkUntil_keeps (vouchLookupRule self hplain)
      (vouchCheckRule self allowCreate allowEditProbe) deadline hs
  unfold Updater.check
  split
  · apply holds_bind
    refine holds_mono (holds_noInsert (uses_mono (acquire_uses self.runtimeLock)
      fun _ => LockOp.noInsert) hs) ?_
    intro acquired s' hs'
    cases acquired with
    | error error => exact holds_track_done.mpr hs'
    | ok lock =>
        simp only [act_eq, Program.ask_bind, Program.done_bind]
        refine holds_vouch_ask hs' trivial fun now _ hnow => ?_
        apply holds_bind
        refine holds_mono (huntil _ hnow) ?_
        intro report s'' hs''
        apply holds_bind
        refine holds_mono (holds_noInsert (uses_mono (drop_uses lock)
          fun _ => LockOp.noInsert) hs'') ?_
        intro _ t ht
        exact holds_track_done.mpr ht
  · exact holds_vouch_ask hs trivial fun now _ hnow => huntil _ hnow

theorem runLoop_vouches (iterations : Nat) {s : ZoneState} (hs : s.Sound) :
    Holds (vouchContract self.cloudflare.apiToken) (fun _ s' => s'.Sound)
      (self.runLoop iterations) s :=
  self.runLoopFrom_keeps (vouchLoopRule self.cloudflare.apiToken)
    (fun hs => runCycleLocked_vouches self hplain hs) iterations 0 0 hs

/-- The cache of a process is sound after everything it has done. -/
theorem process_sound {past : List Step} (hpast : Process self past)
    (hreads : CacheReads self.cloudflare.apiToken past) :
    (past.foldl (ZoneState.next self.cloudflare.apiToken) start).Sound := by
  induction hpast with
  | start => exact start_sound
  | cycle _ hrun ih =>
      obtain ⟨hbefore, hafter⟩ := coherentFrom_append.mp hreads
      rw [List.foldl_append]
      exact track_run (runCycle_vouches self hplain (ih hbefore)) hrun hafter
  | check _ hrun ih =>
      obtain ⟨hbefore, hafter⟩ := coherentFrom_append.mp hreads
      rw [List.foldl_append]
      exact track_run (check_vouches self hplain _ _ (ih hbefore)) hrun hafter
  | loop _ hrun ih =>
      obtain ⟨hbefore, hafter⟩ := coherentFrom_append.mp hreads
      rw [List.foldl_append]
      exact track_run (runLoop_vouches self hplain _ (ih hbefore)) hrun hafter

end

end

end Cirrusync
