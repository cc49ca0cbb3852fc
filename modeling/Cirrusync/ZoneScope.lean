import Cirrusync.CacheHealing
import Cirrusync.DriverRefusal
import Cirrusync.Justified
import Cirrusync.Effect.Agreement

/-!
What one zone has to do with a run: the requests that concern it, the cache entries that
are its own and the answers that it gets. An operation is on the side of the zone or of
the others; on its side two runs that agree about the zone stay together, and on the
other side nothing that concerns the zone changes.
-/

namespace Cirrusync

open Effect Text

/-- A zone by its name and its ids, in any letter case. -/
structure ZoneScope where
  name : String
  owns : String → Bool
  caseless : ∀ {zoneId zoneId' : String}, eqIgnoreAsciiCase zoneId zoneId' = true →
    owns zoneId = owns zoneId'

/-- The answer to a request about a zone, by the requests sent about it so far. -/
abbrev ZoneBehaviour := List Request → Request → HttpOutcome

/-- What a run knows and has done that can concern a zone. -/
structure ZoneView where
  cache : String → Option String
  cursor : Nat
  asked : List Request

/-- The view of a client that has just been made. -/
def ZoneView.start (cursor : Nat) : ZoneView := ⟨fun _ => none, cursor, []⟩

namespace ZoneScope

variable (scope : ZoneScope)

/-- Whether a zone that is named so, with its id or without, is this one. -/
def concerns (zoneName : String) : Option String → Bool
  | none => eqIgnoreAsciiCase zoneName scope.name
  | some zoneId => scope.owns zoneId

def ofRecord (record : RecordConfig) : Bool := scope.concerns record.zone record.zoneId

def ofRequest : Request → Bool
  | .verifyToken _ => false
  | .listZones zoneName _ _ => scope.concerns zoneName none
  | .getZone zoneId | .listRecords zoneId _ _ _ _ | .updateRecord zoneId _ _
  | .probeRecord zoneId _ _ | .createRecord zoneId _ => scope.owns zoneId

/-- The requests about the zone that steps send. -/
def requests (steps : List Step) : List Request :=
  (steps.filterMap sent).filter scope.ofRequest

/-- `fetch_add` on the cursor wraps around. -/
def next (view : ZoneView) (step : Step) : ZoneView where
  cache := cacheAfter view.cache step
  cursor := if step.op = .act .fetchAddCursor then (view.cursor + 1) % 2 ^ 64 else view.cursor
  asked := view.asked ++ scope.requests [step]

/-- A key under which the id of a zone on this side is kept. -/
def KeyOf (side : Bool) (key : String) : Prop :=
  ∃ zoneName explicitZoneId, PlainName zoneName ∧ key = zoneCacheKey zoneName explicitZoneId ∧
    scope.concerns zoneName explicitZoneId = side

/-- An operation of the lookups and mutations on one side. -/
def Sided (side : Bool) : Op → Prop
  | .act (.begin (.http request)) | .finish (.http request) =>
      request.isPlain = true ∧ scope.ofRequest request = side
  | .act (.cacheGet key) => scope.KeyOf side key
  | .act (.cacheInsert key zoneId) => scope.KeyOf side key ∧ scope.owns zoneId = side
  | .act (.cacheEvict zoneId) => scope.owns zoneId = side
  | .act (.setMutationInFlight _) => True
  | _ => False

/-- Two views that are one as far as the zone goes. -/
structure Agrees (view view' : ZoneView) : Prop where
  cache : ∀ key, scope.KeyOf true key → view'.cache key = view.cache key
  cursor : view'.cursor = view.cursor
  asked : view'.asked = view.asked

/-- The ids that are cached are on the side of their keys. -/
def Sorted (view : ZoneView) : Prop :=
  ∀ key zoneId, view.cache key = some zoneId → scope.KeyOf (scope.owns zoneId) key

section

variable [Externals]

/-- The zone's requests are answered by a behaviour; the answers to others carry no id of
the zone and refuse nothing for good. -/
structure Served (apiToken : String) (behaviour : ZoneBehaviour) (view : ZoneView)
    (step : Step) : Prop where
  cache : readsCache view.cache step
  cursor : ∀ cursor : Nat, step = ⟨.act .fetchAddCursor, cursor⟩ → cursor = view.cursor
  own : ∀ request outcome, replied step = some (request, outcome) →
    scope.ofRequest request = true → outcome = behaviour view.asked request
  other : ∀ request outcome, replied step = some (request, outcome) →
    scope.ofRequest request = false →
    abortOf (receive apiToken request outcome) = none ∧
      ∀ zone ∈ zonesAnswered apiToken step, scope.owns zone.id = false

/-- What is shown under the zone's name has ids of the zone. -/
def Consistent (apiToken : String) (behaviour : ZoneBehaviour) : Prop :=
  ∀ asked zoneName page perPage response zone,
    receive apiToken (.listZones zoneName page perPage)
      (behaviour asked (.listZones zoneName page perPage)) = .ok response →
    zone ∈ response.result → eqIgnoreAsciiCase zone.name scope.name = true →
    scope.owns zone.id = true

end

variable {scope} {view view' view'' : ZoneView}

theorem agrees_refl (view : ZoneView) : scope.Agrees view view :=
  ⟨fun _ _ => rfl, rfl, rfl⟩

theorem Agrees.symm (h : scope.Agrees view view') : scope.Agrees view' view :=
  ⟨fun key hkey => (h.cache key hkey).symm, h.cursor.symm, h.asked.symm⟩

theorem Agrees.trans (h : scope.Agrees view view') (g : scope.Agrees view' view'') :
    scope.Agrees view view'' :=
  ⟨fun key hkey => (g.cache key hkey).trans (h.cache key hkey), g.cursor.trans h.cursor,
    g.asked.trans h.asked⟩

/-- Zones whose names have no colon have keys of their own. -/
theorem zoneCacheKey_plain {zoneName zoneName' : String}
    {explicitZoneId explicitZoneId' : Option String} (hplain : PlainName zoneName)
    (hplain' : PlainName zoneName')
    (h : zoneCacheKey zoneName explicitZoneId = zoneCacheKey zoneName' explicitZoneId') :
    eqIgnoreAsciiCase zoneName zoneName' = true ∧
      explicitZoneId.map toAsciiLowercase = explicitZoneId'.map toAsciiLowercase := by
  rw [← String.toList_inj] at h
  cases explicitZoneId with
  | none =>
      cases explicitZoneId' with
      | none =>
          simp only [zoneCacheKey, toList_namedCacheKey, List.cons.injEq, true_and] at h
          exact ⟨(eqIgnoreAsciiCase_iff _ _).mpr (String.toList_inj.mp h), rfl⟩
      | some zoneId' =>
          simp only [zoneCacheKey, toList_namedCacheKey, toList_explicitCacheKey] at h
          simp at h
  | some zoneId =>
      cases explicitZoneId' with
      | none =>
          simp only [zoneCacheKey, toList_namedCacheKey, toList_explicitCacheKey] at h
          simp at h
      | some zoneId' =>
          simp only [zoneCacheKey, toList_explicitCacheKey, List.cons.injEq, true_and] at h
          obtain ⟨hid, hname⟩ := split_last h hplain hplain'
          constructor
          · exact (eqIgnoreAsciiCase_iff _ _).mpr (String.toList_inj.mp hname)
          · exact congrArg some (String.toList_inj.mp hid)

theorem concerns_congr {zoneName zoneName' : String}
    {explicitZoneId explicitZoneId' : Option String}
    (hname : eqIgnoreAsciiCase zoneName zoneName' = true)
    (hexplicit : explicitZoneId.map toAsciiLowercase = explicitZoneId'.map toAsciiLowercase) :
    scope.concerns zoneName explicitZoneId = scope.concerns zoneName' explicitZoneId' := by
  cases explicitZoneId with
  | none =>
      cases explicitZoneId' with
      | some zoneId' => cases hexplicit
      | none =>
          rw [Bool.eq_iff_iff]
          constructor
          · exact fun h => eqIgnoreAsciiCase_trans (eqIgnoreAsciiCase_symm hname) h
          · exact fun h => eqIgnoreAsciiCase_trans hname h
  | some zoneId =>
      cases explicitZoneId' with
      | none => cases hexplicit
      | some zoneId' =>
          exact scope.caseless ((eqIgnoreAsciiCase_iff _ _).mpr (Option.some.inj hexplicit))

/-- No key is on both sides. -/
theorem KeyOf.side {side side' : Bool} {key : String} (h : scope.KeyOf side key)
    (h' : scope.KeyOf side' key) : side = side' := by
  obtain ⟨zoneName, explicitZoneId, hplain, hkey, rfl⟩ := h
  obtain ⟨zoneName', explicitZoneId', hplain', hkey', rfl⟩ := h'
  obtain ⟨hname, hexplicit⟩ := zoneCacheKey_plain hplain hplain' (hkey.symm.trans hkey')
  exact concerns_congr hname hexplicit

/-- An id of the other side is no id of this one. -/
theorem eqIgnoreAsciiCase_of_sides {zoneId zoneId' : String}
    (h : scope.owns zoneId ≠ scope.owns zoneId') : eqIgnoreAsciiCase zoneId zoneId' = false := by
  by_contra hsame
  rw [Bool.not_eq_false] at hsame
  exact h (scope.caseless hsame)

@[simp] theorem requests_append (first second : List Step) :
    scope.requests (first ++ second) = scope.requests first ++ scope.requests second := by
  simp [requests]

/-- What has been asked about the zone after steps. -/
theorem asked_foldl (steps : List Step) (view : ZoneView) :
    (steps.foldl scope.next view).asked = view.asked ++ scope.requests steps := by
  induction steps generalizing view with
  | nil => simp [requests]
  | cons step rest ih =>
      have hsplit : scope.requests (step :: rest) = scope.requests [step] ++ scope.requests rest :=
        requests_append [step] rest
      rw [List.foldl_cons, ih, hsplit, ← List.append_assoc]
      rfl

theorem sorted_start (cursor : Nat) : scope.Sorted (ZoneView.start cursor) := by
  intro key zoneId hcached
  cases hcached

/-- Steps on either side keep the cache sorted. -/
theorem Sorted.next {side : Bool} {step : Step} (h : scope.Sorted view)
    (hsided : scope.Sided side step.op) : scope.Sorted (scope.next view step) := by
  intro key zoneId hcached
  rcases cacheAfter_some hcached with hbefore | hinserted
  · exact h key zoneId hbefore
  · rw [hinserted] at hsided
    obtain ⟨hkey, hid⟩ := hsided
    rw [hid]
    exact hkey

theorem Sided.of_sent {side : Bool} {step : Step} (h : scope.Sided side step.op)
    {request : Request} (hsent : sent step = some request) :
    request.isPlain = true ∧ scope.ofRequest request = side := by
  unfold sent at hsent
  split at hsent
  · cases hsent
    exact h
  · cases hsent

theorem Sided.of_replied {side : Bool} {step : Step} (h : scope.Sided side step.op)
    {request : Request} {outcome : HttpOutcome}
    (hreplied : replied step = some (request, outcome)) :
    request.isPlain = true ∧ scope.ofRequest request = side := by
  unfold replied at hreplied
  split at hreplied
  · cases hreplied
    exact h
  · exact h.elim
  · cases hreplied

/-- What a step makes of one entry of the cache depends on that entry only. -/
theorem cacheAfter_congr {cache cache' : String → Option String} {key : String}
    (h : cache' key = cache key) (step : Step) :
    cacheAfter cache' step key = cacheAfter cache step key := by
  unfold cacheAfter
  split
  · rename_i inserted zoneId _
    by_cases hkey : key = inserted
    · rw [hkey, Function.update_self, Function.update_self]
    · rw [Function.update_of_ne hkey, Function.update_of_ne hkey, h]
  · simp only [h]
  · exact h

/-- The answer to an operation has no effect on the view. -/
theorem next_op {op : Op} (answer answer' : Ans op) :
    scope.next view ⟨op, answer⟩ = scope.next view ⟨op, answer'⟩ := by
  cases op with
  | act action => cases action <;> rfl
  | finish wait => rfl
  | finishBefore deadline wait => rfl

theorem Agrees.next (h : scope.Agrees view view') (step : Step) :
    scope.Agrees (scope.next view step) (scope.next view' step) where
  cache := fun key hkey => cacheAfter_congr (h.cache key hkey) step
  cursor := by simp only [ZoneScope.next, h.cursor]
  asked := by simp only [ZoneScope.next, h.asked]

/-- An operation on the zone's side is answered as the view has it. -/
theorem sided_deterministic [Externals] (apiToken : String) (behaviour : ZoneBehaviour) :
    Deterministic (scope.Served apiToken behaviour) scope.next (scope.Sided true)
      scope.Agrees := by
  intro view view' op answer answer' hagrees hsided hserved hserved'
  have hanswer : answer = answer' := by
    unfold Sided at hsided
    split at hsided
    · rfl
    · rename_i request
      have hown := hserved.own request answer rfl hsided.2
      have hown' := hserved'.own request answer' rfl hsided.2
      rw [hown, hown', hagrees.asked]
    · rename_i key
      have hcached : answer = view.cache key := hserved.cache
      have hcached' : answer' = view'.cache key := hserved'.cache
      rw [hcached, hcached', hagrees.cache key hsided]
    · rfl
    · rfl
    · rfl
    · exact hsided.elim
  subst hanswer
  exact ⟨rfl, hagrees.next _⟩

/-- An operation on the other side changes nothing that concerns the zone. -/
theorem Sorted.apart {step : Step} (h : scope.Sorted view)
    (hsided : scope.Sided false step.op) : scope.Agrees view (scope.next view step) := by
  constructor
  · intro key hkey
    change cacheAfter view.cache step key = view.cache key
    unfold cacheAfter
    split
    · rename_i inserted zoneId _
      have hne : key ≠ inserted := by
        rintro rfl
        exact absurd (hkey.side hsided.1) (by decide)
      rw [Function.update_of_ne hne]
    · rename_i zoneId _
      cases hcached : view.cache key with
      | none => rfl
      | some cached =>
          have hown : scope.owns cached = true := (h key cached hcached).side hkey
          have hother : scope.owns zoneId = false := hsided
          have hdiffers : eqIgnoreAsciiCase cached zoneId = false := by
            have hsides : scope.owns cached ≠ scope.owns zoneId := by
              rw [hown, hother]
              decide
            exact eqIgnoreAsciiCase_of_sides hsides
          simp [hdiffers]
    · rfl
  · obtain ⟨op, answer⟩ := step
    have hop : op ≠ .act .fetchAddCursor := by
      rintro rfl
      exact hsided
    simp [ZoneScope.next, hop]
  · change view.asked ++ scope.requests [step] = view.asked
    have hnone : scope.requests [step] = [] := by
      cases hsent : sent step with
      | none => simp [requests, hsent]
      | some request => simp [requests, hsent, (hsided.of_sent hsent).2]
    rw [hnone, List.append_nil]

/-- A step of which a zone's view takes no notice. -/
def Quiet (step : Step) : Prop :=
  UncachedOp step.op ∧ step.op ≠ .act .fetchAddCursor ∧ sent step = none

theorem next_quiet {step : Step} (h : Quiet step) : scope.next view step = view := by
  obtain ⟨huncached, hcursor, hsent⟩ := h
  have hcache : cacheAfter view.cache step = view.cache :=
    foldl_uncached (fun other member => List.mem_singleton.mp member ▸ huncached) view.cache
  simp [ZoneScope.next, hcache, hcursor, requests, hsent]

theorem foldl_quiet {steps : List Step} (h : ∀ step ∈ steps, Quiet step) :
    steps.foldl scope.next view = view := by
  induction steps with
  | nil => rfl
  | cons step rest ih =>
      rw [List.forall_mem_cons] at h
      rw [List.foldl_cons, next_quiet h.1]
      exact ih h.2

theorem quiet_of_discovery {step : Step} (h : DiscoveryOp step.op) : Quiet step := by
  refine ⟨?_, ?_, sent_of_discovery h⟩
  · unfold UncachedOp
    split
    · rename_i hop
      rw [hop] at h
      exact h
    · rename_i hop
      rw [hop] at h
      exact h
    · rename_i hop
      rw [hop] at h
      exact h
    · trivial
  · intro hop
    rw [hop] at h
    exact h

/-- A deadline that is met makes no difference to the zone. -/
theorem next_meets {deadline : Instant} {step step' : Step}
    (h : MeetsDeadline deadline step step') : scope.next view step' = scope.next view step := by
  rcases h with rfl | ⟨wait, answer, rfl, rfl⟩
  · rfl
  · rfl

theorem Served.meets [Externals] {apiToken : String} {behaviour : ZoneBehaviour}
    {deadline : Instant} {step step' : Step} (h : scope.Served apiToken behaviour view step)
    (hmeets : MeetsDeadline deadline step step') :
    scope.Served apiToken behaviour view step' := by
  rcases hmeets with rfl | ⟨wait, answer, rfl, rfl⟩
  · exact h
  · cases wait with
    | http request =>
        refine ⟨trivial, fun cursor heq => (by cases heq), ?_, ?_⟩
        · intro request' outcome heq hown
          exact h.own request' outcome heq hown
        · intro request' outcome heq hother
          exact h.other request' outcome heq hother
    | query provider attemptTimeout =>
        exact ⟨trivial, fun cursor heq => (by cases heq), fun _ _ heq => (by cases heq),
          fun _ _ heq => (by cases heq)⟩
    | sleep duration =>
        exact ⟨trivial, fun cursor heq => (by cases heq), fun _ _ heq => (by cases heq),
          fun _ _ heq => (by cases heq)⟩

theorem foldl_meets {deadline : Instant} {steps steps' : List Step}
    (h : List.Forall₂ (MeetsDeadline deadline) steps steps') (view : ZoneView) :
    steps'.foldl scope.next view = steps.foldl scope.next view := by
  induction h generalizing view with
  | nil => rfl
  | cons hmeets _ ih =>
      rw [List.foldl_cons, List.foldl_cons, next_meets hmeets]
      exact ih _

theorem coherent_meets [Externals] {apiToken : String} {behaviour : ZoneBehaviour}
    {deadline : Instant} {steps steps' : List Step}
    (h : List.Forall₂ (MeetsDeadline deadline) steps steps')
    (hserved : CoherentFrom (scope.Served apiToken behaviour) scope.next view steps) :
    CoherentFrom (scope.Served apiToken behaviour) scope.next view steps' := by
  induction h generalizing view with
  | nil => trivial
  | cons hmeets _ ih =>
      refine ⟨hserved.1.meets hmeets, ?_⟩
      rw [next_meets hmeets]
      exact ih hserved.2

theorem sent_meets {deadline : Instant} {steps steps' : List Step}
    (h : List.Forall₂ (MeetsDeadline deadline) steps steps') :
    steps.filterMap sent = steps'.filterMap sent := by
  induction h with
  | nil => rfl
  | cons hmeets _ ih =>
      rcases hmeets with rfl | ⟨wait, answer, rfl, rfl⟩
      · simp only [List.filterMap_cons, ih]
      · exact ih

theorem Sorted.foldl {side : Bool} {steps : List Step} (h : scope.Sorted view)
    (hsided : ∀ step ∈ steps, scope.Sided side step.op) :
    scope.Sorted (steps.foldl scope.next view) := by
  induction steps generalizing view with
  | nil => exact h
  | cons step rest ih =>
      rw [List.forall_mem_cons] at hsided
      exact ih (h.next hsided.1) hsided.2

/-- Work on the other side changes nothing that concerns the zone. -/
theorem Sorted.foldl_apart {steps : List Step} (h : scope.Sorted view)
    (hsided : ∀ step ∈ steps, scope.Sided false step.op) :
    scope.Agrees view (steps.foldl scope.next view) := by
  induction steps generalizing view with
  | nil => exact agrees_refl view
  | cons step rest ih =>
      rw [List.forall_mem_cons] at hsided
      exact (h.apart hsided.1).trans (ih (h.next hsided.1) hsided.2)

end ZoneScope

end Cirrusync
