import Cirrusync.CheckRuns
import Cirrusync.Vouching

/-!
The zone-id cache over the calls of one client. A call to resolve a zone either
repeats what the cache keeps for its key or asks the server and keeps the answer; a
call on the records of a zone that is answered with a 404 drops the zone.
-/

namespace Cirrusync

open Effect Text

/-- A public operation of the client on zones and records. -/
inductive ClientCall where
  | resolveZoneId (zoneName : String) (explicitZoneId : Option String)
  | findRecord (zoneId recordType name : String)
  | updateRecord (zoneId recordId : String) (payload : RecordPayload)
  | createRecord (zoneId : String) (payload : RecordPayload)
  | probeRecordEdit (zoneId : String) (record : DnsRecord)

@[reducible] def ClientCall.Value : ClientCall → Type
  | .resolveZoneId _ _ => String
  | .findRecord _ _ _ => Option DnsRecord
  | .updateRecord _ _ _ | .createRecord _ _ | .probeRecordEdit _ _ => DnsRecord

/-- The zone that a call on records is about. -/
def ClientCall.recordZone : ClientCall → Option String
  | .resolveZoneId _ _ => none
  | .findRecord zoneId _ _ | .updateRecord zoneId _ _ | .createRecord zoneId _
  | .probeRecordEdit zoneId _ => some zoneId

/-- The key under which a zone's id is kept. -/
def zoneCacheKey (zoneName : String) : Option String → String
  | none => CloudflareClient.namedCacheKey zoneName
  | some zoneId => CloudflareClient.explicitCacheKey zoneName zoneId

def ClientCall.cacheKey : ClientCall → Option String
  | .resolveZoneId zoneName explicitZoneId => some (zoneCacheKey zoneName explicitZoneId)
  | _ => none

/-- An explicit zone id, if there is one, has the 32 hexadecimal digits of an id. -/
def HexExplicit (explicitZoneId : Option String) : Prop :=
  ∀ zoneId, explicitZoneId = some zoneId → isHexId zoneId = true

theorem HexExplicit.plain {zoneId : String} (h : HexExplicit (some zoneId)) :
    ':' ∉ (toAsciiLowercase zoneId).toList := by
  have hhex := h zoneId rfl
  simp only [isHexId, Bool.and_eq_true, List.all_eq_true] at hhex
  rw [toList_toAsciiLowercase]
  intro hcolon
  obtain ⟨c, member, hlower⟩ := List.mem_map.mp hcolon
  have hdigit := hhex.2 c member
  rw [(toLower_eq_iff (by decide) c).mp hlower] at hdigit
  exact absurd hdigit (by decide)

/-- The first separator splits a text in one way. -/
theorem split_first {α : Type} {separator : α} {first first' second second' : List α}
    (h : first ++ separator :: second = first' ++ separator :: second')
    (hfirst : separator ∉ first) (hfirst' : separator ∉ first') :
    first = first' ∧ second = second' := by
  rcases List.append_eq_append_iff.mp h with ⟨rest, rfl, hrest⟩ | ⟨rest, rfl, hrest⟩
  · cases rest with
    | nil => simpa using hrest
    | cons head tail =>
        obtain ⟨rfl, -⟩ := List.cons_eq_cons.mp hrest
        exact absurd (List.mem_append_right first List.mem_cons_self) hfirst'
  · cases rest with
    | nil => simpa [eq_comm] using hrest
    | cons head tail =>
        obtain ⟨rfl, -⟩ := List.cons_eq_cons.mp hrest
        exact absurd (List.mem_append_right first' List.mem_cons_self) hfirst

/-- Keys agree for zones that agree up to case only. -/
theorem zoneCacheKey_inj {zoneName zoneName' : String}
    {explicitZoneId explicitZoneId' : Option String}
    (hhex : HexExplicit explicitZoneId) (hhex' : HexExplicit explicitZoneId')
    (h : zoneCacheKey zoneName explicitZoneId = zoneCacheKey zoneName' explicitZoneId') :
    eqIgnoreAsciiCase zoneName zoneName' = true ∧
      explicitZoneId.map toAsciiLowercase = explicitZoneId'.map toAsciiLowercase := by
  rw [← String.toList_inj] at h
  cases explicitZoneId with
  | none =>
      cases explicitZoneId' with
      | none =>
          simp only [zoneCacheKey, toList_namedCacheKey, List.cons.injEq, true_and] at h
          exact ⟨(eqIgnoreAsciiCase_iff _ _).mpr (String.toList_inj.mp h), rfl⟩
      | some zoneId' =>
          simp only [zoneCacheKey, toList_namedCacheKey, toList_explicitCacheKey] at h
          simp at h
  | some zoneId =>
      cases explicitZoneId' with
      | none =>
          simp only [zoneCacheKey, toList_namedCacheKey, toList_explicitCacheKey] at h
          simp at h
      | some zoneId' =>
          simp only [zoneCacheKey, toList_explicitCacheKey, List.cons.injEq, true_and] at h
          obtain ⟨hid, hname⟩ := split_first h hhex.plain hhex'.plain
          refine ⟨(eqIgnoreAsciiCase_iff _ _).mpr (String.toList_inj.mp hname), ?_⟩
          exact congrArg some (String.toList_inj.mp hid)

section

variable [Externals]

/-- The response of a step confirms the id as that of the active zone of this name, and
of this id where one is given. -/
def Confirms (apiToken zoneName : String) (explicitZoneId : Option String) (zoneId : String)
    (step : Step) : Prop :=
  ∃ zone ∈ zonesAnswered apiToken step, zone.isActive = true ∧
    eqIgnoreAsciiCase zone.name zoneName = true ∧
    match explicitZoneId with
    | none => zone.id = zoneId
    | some explicit =>
        eqIgnoreAsciiCase zone.id explicit = true ∧ eqIgnoreAsciiCase zoneId explicit = true

theorem Confirms.congr {apiToken zoneName zoneName' zoneId : String}
    {explicitZoneId explicitZoneId' : Option String} {step : Step}
    (h : Confirms apiToken zoneName explicitZoneId zoneId step)
    (hname : eqIgnoreAsciiCase zoneName zoneName' = true)
    (hexplicit : explicitZoneId.map toAsciiLowercase =
      explicitZoneId'.map toAsciiLowercase) :
    Confirms apiToken zoneName' explicitZoneId' zoneId step := by
  obtain ⟨zone, member, hactive, hzone, hid⟩ := h
  refine ⟨zone, member, hactive, eqIgnoreAsciiCase_trans hzone hname, ?_⟩
  cases explicitZoneId with
  | none =>
      cases explicitZoneId' with
      | none => exact hid
      | some explicit' => cases hexplicit
  | some explicit =>
      cases explicitZoneId' with
      | none => cases hexplicit
      | some explicit' =>
          have hsame := (eqIgnoreAsciiCase_iff _ _).mpr (Option.some.inj hexplicit)
          exact ⟨eqIgnoreAsciiCase_trans hid.1 hsame, eqIgnoreAsciiCase_trans hid.2 hsame⟩

/-- Operations that leave the cache alone. -/
def UncachedOp : Op → Prop
  | .act (.cacheGet _) | .act (.cacheInsert _ _) | .act (.cacheEvict _) => False
  | _ => True

omit [Externals] in
theorem uncached_exchange {request : Request} {outcome : HttpOutcome} {step : Step}
    (member : step ∈ exchange request outcome) : UncachedOp step.op := by
  simp only [exchange, List.mem_cons, List.not_mem_nil, or_false] at member
  rcases member with rfl | rfl
  · trivial
  · trivial

omit [Externals] in
theorem scanRecords_found {recordType name : String} {records : List DnsRecord}
    {exactMatch : Option DnsRecord} {error : CloudflareError}
    (h : scanRecords recordType name records exactMatch = .error error) :
    error.isNotFound = false := by
  induction records generalizing exactMatch with
  | nil => cases h
  | cons record rest ih =>
      unfold scanRecords at h
      split at h
      · cases exactMatch with
        | some previous =>
            cases h
            rfl
        | none => exact ih h
      · exact ih h

namespace CloudflareClient

variable (self : CloudflareClient)

/-- What the pages of a zone lookup come to: an id that they confirm goes to the cache. -/
theorem zonePages_confirms {zoneName : String} {left page : Nat}
    {exactMatch inactiveMatch : Option String} {trace : List Step}
    {result : Except CloudflareError String}
    (hrun : Runs (self.zonePages zoneName left page exactMatch inactiveMatch) trace result) :
    ∃ asking, trace = asking ++ insertion zoneName result ∧
      (∀ step ∈ asking, UncachedOp step.op) ∧
      (0 < left → ∃ step ∈ asking, (sent step).isSome = true) ∧
      ∀ zoneId, result = .ok zoneId → exactMatch = some zoneId ∨
        ∃ step ∈ asking, Confirms self.apiToken zoneName none zoneId step := by
  induction left generalizing page exactMatch inactiveMatch trace with
  | zero =>
      simp only [zonePages, Program.pure_eq, runs_done_iff] at hrun
      obtain ⟨rfl, rfl⟩ := hrun
      refine ⟨[], rfl, fun _ member => absurd member List.not_mem_nil, fun h => by omega, ?_⟩
      intro zoneId heq
      cases heq
  | succ left ih =>
      simp only [zonePages, runs_bind_iff] at hrun
      obtain ⟨_, after, _, rfl, hsend, hrest⟩ := hrun
      obtain ⟨outcome, rfl, rfl⟩ := (self.runs_send_iff _ _ _).mp hsend
      have hasks : ∃ step ∈ exchange (.listZones zoneName page zonePageSize) outcome,
          (sent step).isSome = true :=
        ⟨_, List.mem_cons_self, rfl⟩
      have hfails : ∀ {error : CloudflareError}, after = [] → result = .error error →
          ∃ asking, exchange (.listZones zoneName page zonePageSize) outcome ++ after =
              asking ++ insertion zoneName result ∧
            (∀ step ∈ asking, UncachedOp step.op) ∧
            (0 < left + 1 → ∃ step ∈ asking, (sent step).isSome = true) ∧
            ∀ zoneId, result = .ok zoneId → exactMatch = some zoneId ∨
              ∃ step ∈ asking, Confirms self.apiToken zoneName none zoneId step := by
        rintro error rfl rfl
        refine ⟨_, rfl, fun step => uncached_exchange, fun _ => hasks, fun zoneId heq => ?_⟩
        cases heq
      cases hreceive : receive self.apiToken
          (.listZones zoneName page zonePageSize) outcome with
      | error error =>
          simp only [hreceive, Program.pure_eq, runs_done_iff] at hrest
          exact hfails hrest.1 hrest.2
      | ok response =>
          have hshown : zonesAnswered self.apiToken
              ⟨.finish (.http (.listZones zoneName page zonePageSize)), outcome⟩ =
                response.result := by
            simp [zonesAnswered, replied, hreceive]
          simp only [hreceive] at hrest
          cases hscan : self.scanZones zoneName response.result exactMatch inactiveMatch with
          | error error =>
              simp only [hscan, Program.pure_eq, runs_done_iff] at hrest
              exact hfails hrest.1 hrest.2
          | ok found =>
              obtain ⟨exactMatch', inactiveMatch'⟩ := found
              have hfound : ∀ zoneId, exactMatch' = some zoneId → exactMatch = some zoneId ∨
                  ∃ step ∈ exchange (.listZones zoneName page zonePageSize) outcome,
                    Confirms self.apiToken zoneName none zoneId step := by
                intro zoneId heq
                rcases self.scanZones_found hscan heq with hbefore | ⟨zone, member, hid, hzone⟩
                · exact .inl hbefore
                · refine .inr ⟨_, List.mem_cons_of_mem _ List.mem_cons_self, zone, ?_,
                    hzone.1, hzone.2, hid⟩
                  rw [hshown]
                  exact member
              simp only [hscan] at hrest
              split at hrest
              · obtain ⟨asking, rfl, hquiet, -, hconfirms⟩ := ih hrest
                refine ⟨exchange (.listZones zoneName page zonePageSize) outcome ++ asking,
                  (List.append_assoc _ _ _).symm, ?_, ?_, ?_⟩
                · exact List.forall_mem_append.mpr ⟨fun step => uncached_exchange, hquiet⟩
                · obtain ⟨step, member, hsent⟩ := hasks
                  exact fun _ => ⟨step, List.mem_append_left _ member, hsent⟩
                · intro zoneId heq
                  rcases hconfirms zoneId heq with hbefore | ⟨step, member, hstep⟩
                  · rcases hfound zoneId hbefore with hearlier | ⟨step, member, hstep⟩
                    · exact .inl hearlier
                    · exact .inr ⟨step, List.mem_append_left _ member, hstep⟩
                  · exact .inr ⟨step, List.mem_append_right _ member, hstep⟩
              · obtain ⟨rfl, rfl⟩ := runs_concluded zoneName hrest
                refine ⟨_, rfl, fun step => uncached_exchange, fun _ => hasks, ?_⟩
                intro zoneId heq
                apply hfound
                cases exactMatch' with
                | some found => exact congrArg some (Except.ok.inj heq)
                | none => cases inactiveMatch' <;> cases heq

/-- How a call to resolve a zone runs: it repeats what the cache keeps, or it asks the
server and keeps the id that the server confirms. -/
theorem runs_resolveZoneId {zoneName : String} {explicitZoneId : Option String}
    {trace : List Step} {result : Except CloudflareError String}
    (hrun : Runs (self.resolveZoneId zoneName explicitZoneId) trace result) :
    (∃ zoneId, trace = [⟨.act (.cacheGet (zoneCacheKey zoneName explicitZoneId)), some zoneId⟩] ∧
      result = .ok zoneId) ∨
    ∃ asking, trace = ⟨.act (.cacheGet (zoneCacheKey zoneName explicitZoneId)), none⟩ ::
        (asking ++ match result with
          | .ok zoneId =>
              [⟨.act (.cacheInsert (zoneCacheKey zoneName explicitZoneId) zoneId), ()⟩]
          | .error _ => []) ∧
      (∀ step ∈ asking, UncachedOp step.op) ∧ (∃ step ∈ asking, (sent step).isSome = true) ∧
      ∀ zoneId, result = .ok zoneId →
        ∃ step ∈ asking, Confirms self.apiToken zoneName explicitZoneId zoneId step := by
  cases explicitZoneId with
  | none =>
      simp only [resolveZoneId, resolveNamedZoneId, act_eq, Program.ask_bind,
        Program.done_bind] at hrun
      obtain ⟨cached, rest, rfl, hrest⟩ := (runs_ask_iff _ _ _ _).mp hrun
      cases cached with
      | some zoneId =>
          obtain ⟨rfl, rfl⟩ := (runs_done_iff _ _ _).mp hrest
          exact .inl ⟨zoneId, rfl, rfl⟩
      | none =>
          obtain ⟨asking, rfl, hquiet, hasks, hconfirms⟩ := self.zonePages_confirms hrest
          refine .inr ⟨asking, ?_, hquiet, hasks (by decide), fun zoneId heq => ?_⟩
          · cases result <;> rfl
          · rcases hconfirms zoneId heq with hbefore | hstep
            · cases hbefore
            · exact hstep
  | some explicit =>
      simp only [resolveZoneId, resolveExplicitZoneId, act_eq, Program.ask_bind,
        Program.done_bind] at hrun
      obtain ⟨cached, rest, rfl, hrest⟩ := (runs_ask_iff _ _ _ _).mp hrun
      cases cached with
      | some zoneId =>
          obtain ⟨rfl, rfl⟩ := (runs_done_iff _ _ _).mp hrest
          exact .inl ⟨zoneId, rfl, rfl⟩
      | none =>
          right
          simp only [runs_bind_iff] at hrest
          obtain ⟨_, after, _, rfl, hsend, hgoes⟩ := hrest
          obtain ⟨outcome, rfl, rfl⟩ := (self.runs_send_iff _ _ _).mp hsend
          have hasks : ∃ step ∈ exchange (.getZone explicit) outcome,
              (sent step).isSome = true := ⟨_, List.mem_cons_self, rfl⟩
          cases hreceive : receive self.apiToken (.getZone explicit) outcome with
          | error error =>
              simp only [hreceive, Program.pure_eq, runs_done_iff] at hgoes
              obtain ⟨rfl, rfl⟩ := hgoes
              refine ⟨_, rfl, fun step => uncached_exchange, hasks, fun zoneId heq => ?_⟩
              cases heq
          | ok response =>
              simp only [hreceive] at hgoes
              cases hcheck : self.checkExplicitZone zoneName explicit response.result with
              | error error =>
                  simp only [hcheck, Program.pure_eq, runs_done_iff] at hgoes
                  obtain ⟨rfl, rfl⟩ := hgoes
                  refine ⟨_, rfl, fun step => uncached_exchange, hasks, fun zoneId heq => ?_⟩
                  cases heq
              | ok value =>
                  simp only [hcheck, Program.pure_eq, runs_ask_iff, runs_done_iff] at hgoes
                  obtain ⟨⟨⟩, _, rfl, rfl, rfl⟩ := hgoes
                  obtain ⟨hname, hid, hactive⟩ := self.checkExplicitZone_ok hcheck
                  refine ⟨_, rfl, fun step => uncached_exchange, hasks, fun zoneId heq => ?_⟩
                  cases heq
                  refine ⟨_, List.mem_cons_of_mem _ List.mem_cons_self, response.result, ?_,
                    hactive, hname, hid, eqIgnoreAsciiCase_refl _⟩
                  simp [zonesAnswered, replied, hreceive]

/-- How a call on the records of a zone runs: it drops the zone when it is not found. -/
theorem runs_recordPages {zoneId recordType name : String} {left page : Nat}
    {exactMatch : Option DnsRecord} {trace : List Step}
    {result : Except CloudflareError (Option DnsRecord)}
    (hrun : Runs (self.recordPages zoneId recordType name left page exactMatch) trace result) :
    ∃ asking, trace = asking ++ evictions zoneId result ∧
      ∀ step ∈ asking, UncachedOp step.op := by
  induction left generalizing page exactMatch trace with
  | zero =>
      simp only [recordPages, Program.pure_eq, runs_done_iff] at hrun
      obtain ⟨rfl, rfl⟩ := hrun
      exact ⟨[], rfl, fun _ member => absurd member List.not_mem_nil⟩
  | succ left ih =>
      simp only [recordPages, runs_bind_iff] at hrun
      obtain ⟨_, after, _, rfl, hsend, hrest⟩ := hrun
      obtain ⟨outcome, rfl, rfl⟩ := (self.runs_sendInZone_iff _ _ _ _).mp hsend
      cases hreceive : receive self.apiToken
          (.listRecords zoneId recordType name page recordPageSize) outcome with
      | error error =>
          simp only [hreceive, Program.pure_eq, runs_done_iff] at hrest
          obtain ⟨rfl, rfl⟩ := hrest
          refine ⟨exchange (.listRecords zoneId recordType name page recordPageSize) outcome,
            ?_, fun step => uncached_exchange⟩
          simp [evictions]
      | ok response =>
          simp only [hreceive, evictions, List.append_nil] at hrest ⊢
          cases hscan : scanRecords recordType name response.result exactMatch with
          | error error =>
              simp only [hscan, Program.pure_eq, runs_done_iff] at hrest
              obtain ⟨rfl, rfl⟩ := hrest
              have hfound : error.isNotFound = false := scanRecords_found hscan
              refine ⟨exchange (.listRecords zoneId recordType name page recordPageSize) outcome,
                ?_, fun step => uncached_exchange⟩
              simp [hfound]
          | ok exactMatch' =>
              simp only [hscan] at hrest
              split at hrest
              · obtain ⟨asking, rfl, hquiet⟩ := ih hrest
                refine ⟨exchange (.listRecords zoneId recordType name page recordPageSize)
                  outcome ++ asking, (List.append_assoc _ _ _).symm, ?_⟩
                exact List.forall_mem_append.mpr ⟨fun step => uncached_exchange, hquiet⟩
              · simp only [Program.pure_eq, runs_done_iff] at hrest
                obtain ⟨rfl, rfl⟩ := hrest
                exact ⟨_, rfl, fun step => uncached_exchange⟩

end CloudflareClient

/-- The program of a call. -/
def ClientCall.run (client : CloudflareClient) :
    (call : ClientCall) → M (Except CloudflareError call.Value)
  | .resolveZoneId zoneName explicitZoneId => client.resolveZoneId zoneName explicitZoneId
  | .findRecord zoneId recordType name => client.findRecord zoneId recordType name
  | .updateRecord zoneId recordId payload => client.updateRecord zoneId recordId payload
  | .createRecord zoneId payload => client.createRecord zoneId payload
  | .probeRecordEdit zoneId record => client.probeRecordEdit zoneId record

/-- A call that a client has made. -/
structure CallRun (client : CloudflareClient) where
  call : ClientCall
  trace : List Step
  result : Except CloudflareError call.Value
  runs : Runs (call.run client) trace result

/-- The steps of calls made one after another. -/
def callSteps {client : CloudflareClient} (calls : List (CallRun client)) : List Step :=
  calls.flatMap CallRun.trace

/-- The calls about zones give ids of 32 hexadecimal digits, if they give any. -/
def ClientCall.Hex : ClientCall → Prop
  | .resolveZoneId _ explicitZoneId => HexExplicit explicitZoneId
  | _ => True

omit [Externals] in
/-- What the cache keeps after the steps of a client's life. -/
def cacheOf (history : List Step) : String → Option String :=
  history.foldl cacheAfter fun _ => none

/-- The cache is read as it is. -/
def readsCache (cache : String → Option String) : Step → Prop
  | ⟨.act (.cacheGet key), answer⟩ => answer = cache key
  | _ => True

/-- In all of a history the cache is read as it is. -/
def CacheAnswers (history : List Step) : Prop :=
  CoherentFrom readsCache cacheAfter (fun _ => none) history

/-- The zone that a call has found to be gone. -/
def CallRun.lostZone {client : CloudflareClient} (run : CallRun client) : Option String :=
  match run.result with
  | .error error => if error.isNotFound then run.call.recordZone else none
  | .ok _ => none

/-- The id that a call to resolve a zone returns. -/
def CallRun.returns {client : CloudflareClient} : CallRun client → Option String
  | ⟨.resolveZoneId _ _, _, .ok zoneId, _⟩ => some zoneId
  | _ => none

omit [Externals] in
theorem foldl_uncached {steps : List Step} (h : ∀ step ∈ steps, UncachedOp step.op)
    (cache : String → Option String) : steps.foldl cacheAfter cache = cache := by
  induction steps generalizing cache with
  | nil => rfl
  | cons step rest ih =>
      have hstep : cacheAfter cache step = cache := by
        have hop := h step List.mem_cons_self
        unfold cacheAfter
        split
        · exact hop.elim
        · exact hop.elim
        · rfl
      rw [List.foldl_cons, hstep]
      exact ih (fun other member => h other (List.mem_cons_of_mem _ member)) cache

/-- A call on the records of a zone, as it runs. -/
theorem CallRun.recordSteps {client : CloudflareClient} (run : CallRun client)
    {zoneId : String} (hzone : run.call.recordZone = some zoneId) :
    ∃ asking, run.trace = asking ++ evictions zoneId run.result ∧
      ∀ step ∈ asking, UncachedOp step.op := by
  obtain ⟨call, trace, result, hrun⟩ := run
  cases call with
  | resolveZoneId => cases hzone
  | findRecord =>
      cases hzone
      exact client.runs_recordPages hrun
  | updateRecord =>
      cases hzone
      obtain ⟨outcome, htrace, -⟩ := client.runs_updateRecord hrun
      exact ⟨_, htrace, fun step => uncached_exchange⟩
  | createRecord =>
      cases hzone
      obtain ⟨outcome, htrace, -⟩ := client.runs_createRecord hrun
      exact ⟨_, htrace, fun step => uncached_exchange⟩
  | probeRecordEdit =>
      cases hzone
      obtain ⟨outcome, htrace, -⟩ := client.runs_probeRecordEdit hrun
      exact ⟨_, htrace, fun step => uncached_exchange⟩

/-- The cache after a call on records: without its zone, if that is gone. -/
theorem CallRun.foldl_recordSteps {client : CloudflareClient} (run : CallRun client)
    {zoneId : String} (hzone : run.call.recordZone = some zoneId)
    (cache : String → Option String) :
    run.trace.foldl cacheAfter cache =
      match run.lostZone with
      | some zoneId => fun key => (cache key).filter fun cached =>
          !eqIgnoreAsciiCase cached zoneId
      | none => cache := by
  obtain ⟨asking, htrace, hquiet⟩ := run.recordSteps hzone
  rw [htrace, List.foldl_append, foldl_uncached hquiet]
  unfold lostZone
  cases hresult : run.result with
  | ok value => rfl
  | error error =>
      simp only [evictions]
      split
      · simp only [hzone]
        rfl
      · rfl

/-- The cache after a call to resolve a zone, which has read it as it is: it keeps what
the call returns. -/
theorem foldl_resolveSteps {client : CloudflareClient} {zoneName : String}
    {explicitZoneId : Option String} {trace : List Step}
    {result : Except CloudflareError String}
    (hrun : Runs (client.resolveZoneId zoneName explicitZoneId) trace result)
    {cache : String → Option String} (hreads : CoherentFrom readsCache cacheAfter cache trace) :
    trace.foldl cacheAfter cache =
      match result with
      | .ok zoneId => Function.update cache (zoneCacheKey zoneName explicitZoneId) (some zoneId)
      | .error _ => cache := by
  rcases client.runs_resolveZoneId hrun with ⟨zoneId, rfl, rfl⟩ | ⟨asking, rfl, hquiet, -, -⟩
  · have hcached : some zoneId = cache (zoneCacheKey zoneName explicitZoneId) := hreads.1
    simp only [List.foldl_cons, List.foldl_nil]
    rw [hcached, Function.update_eq_self]
    rfl
  · have hget : cacheAfter cache
        ⟨.act (.cacheGet (zoneCacheKey zoneName explicitZoneId)), none⟩ = cache := rfl
    rw [List.foldl_cons, hget, List.foldl_append, foldl_uncached hquiet]
    cases result <;> rfl

/-- What the cache keeps after a call it has kept before, or the call returns it. -/
theorem CallRun.entry {client : CloudflareClient} (run : CallRun client)
    {cache : String → Option String} (hreads : CoherentFrom readsCache cacheAfter cache run.trace)
    {key zoneId : String} (h : run.trace.foldl cacheAfter cache key = some zoneId) :
    cache key = some zoneId ∨ run.call.cacheKey = some key ∧ run.returns = some zoneId := by
  cases hzone : run.call.recordZone with
  | some lost =>
      rw [run.foldl_recordSteps hzone] at h
      cases hlost : run.lostZone with
      | some gone =>
          rw [hlost] at h
          exact .inl (Option.filter_eq_some_iff.mp h).1
      | none =>
          rw [hlost] at h
          exact .inl h
  | none =>
      obtain ⟨call, trace, result, hrun⟩ := run
      cases call with
      | resolveZoneId zoneName explicitZoneId =>
          rw [foldl_resolveSteps hrun hreads] at h
          cases result with
          | error error => exact .inl h
          | ok found =>
              by_cases hkey : key = zoneCacheKey zoneName explicitZoneId
              · subst hkey
                simp only [Function.update_self] at h
                exact .inr ⟨rfl, h⟩
              · simp only [Function.update_of_ne hkey] at h
                exact .inl h
      | _ => cases hzone

/-- What the cache keeps after calls it has kept before, or one of them returns it. -/
theorem entry_of_calls {client : CloudflareClient} {calls : List (CallRun client)}
    {cache : String → Option String}
    (hreads : CoherentFrom readsCache cacheAfter cache (callSteps calls))
    {key zoneId : String} (h : (callSteps calls).foldl cacheAfter cache key = some zoneId) :
    cache key = some zoneId ∨
      ∃ run ∈ calls, run.call.cacheKey = some key ∧ run.returns = some zoneId := by
  induction calls generalizing cache with
  | nil => exact .inl h
  | cons run rest ih =>
      have hsteps : callSteps (run :: rest) = run.trace ++ callSteps rest := by
        simp [callSteps]
      rw [hsteps] at hreads h
      rw [List.foldl_append] at h
      obtain ⟨hfirst, hrest⟩ := coherentFrom_append.mp hreads
      rcases ih hrest h with hkept | ⟨other, member, hother⟩
      · rcases run.entry hfirst hkept with hbefore | hreturned
        · exact .inl hbefore
        · exact .inr ⟨run, List.mem_cons_self, hreturned⟩
      · exact .inr ⟨other, List.mem_cons_of_mem _ member, hother⟩

theorem CallRun.zone_of_lost {client : CloudflareClient} (run : CallRun client) {lost : String}
    (h : run.lostZone = some lost) : ∃ zoneId, run.call.recordZone = some zoneId := by
  unfold lostZone at h
  split at h
  · split at h
    · exact ⟨lost, h⟩
    · cases h
  · cases h

/-- What the history of a client has confirmed of everything that its cache keeps. -/
def CacheConfirmed (apiToken : String) (history : List Step) : Prop :=
  ∀ key zoneId, cacheOf history key = some zoneId →
    ∃ zoneName explicitZoneId, HexExplicit explicitZoneId ∧
      key = zoneCacheKey zoneName explicitZoneId ∧
      ∃ step ∈ history, Confirms apiToken zoneName explicitZoneId zoneId step

/-- An id that a call returns has been confirmed, by a response to it or before it. -/
theorem resolve_confirmed {client : CloudflareClient} {history : List Step}
    (h : CacheConfirmed client.apiToken history) {zoneName : String}
    {explicitZoneId : Option String} (hhex : HexExplicit explicitZoneId) {trace : List Step}
    {zoneId : String}
    (hrun : Runs (client.resolveZoneId zoneName explicitZoneId) trace (.ok zoneId))
    (hreads : CoherentFrom readsCache cacheAfter (cacheOf history) trace) :
    ∃ step ∈ history ++ trace, Confirms client.apiToken zoneName explicitZoneId zoneId step := by
  rcases client.runs_resolveZoneId hrun with ⟨cached, rfl, heq⟩ | ⟨asking, rfl, -, -, hconfirms⟩
  · cases heq
    have hcached : some zoneId = cacheOf history (zoneCacheKey zoneName explicitZoneId) :=
      hreads.1
    obtain ⟨zoneName', explicitZoneId', hhex', hkey, step, member, hstep⟩ :=
      h _ _ hcached.symm
    obtain ⟨hname, hexplicit⟩ := zoneCacheKey_inj hhex' hhex hkey.symm
    exact ⟨step, List.mem_append_left _ member, hstep.congr hname hexplicit⟩
  · obtain ⟨step, member, hstep⟩ := hconfirms zoneId rfl
    refine ⟨step, ?_, hstep⟩
    simp only [List.mem_append, List.mem_cons]
    exact .inr (.inr (.inl member))

theorem callSteps_append {client : CloudflareClient} (first second : List (CallRun client)) :
    callSteps (first ++ second) = callSteps first ++ callSteps second :=
  List.flatMap_append

theorem callSteps_cons {client : CloudflareClient} (run : CallRun client)
    (rest : List (CallRun client)) : callSteps (run :: rest) = run.trace ++ callSteps rest :=
  rfl

@[simp] theorem callSteps_singleton {client : CloudflareClient} (run : CallRun client) :
    callSteps [run] = run.trace := by
  simp [callSteps]

/-- The cache of a client keeps confirmed ids only. -/
theorem calls_confirmed {client : CloudflareClient} {calls : List (CallRun client)}
    (hhex : ∀ run ∈ calls, run.call.Hex) (hreads : CacheAnswers (callSteps calls)) :
    CacheConfirmed client.apiToken (callSteps calls) := by
  induction calls using List.reverseRecOn with
  | nil =>
      intro key zoneId hcached
      cases hcached
  | append_singleton calls run ih =>
      rw [callSteps_append, callSteps_singleton] at hreads ⊢
      obtain ⟨hbefore, hrun⟩ := coherentFrom_append.mp hreads
      have hconfirmed := ih (fun other member => hhex other (List.mem_append_left _ member))
        hbefore
      intro key zoneId hcached
      unfold cacheOf at hcached
      rw [List.foldl_append] at hcached
      rcases run.entry hrun hcached with hkept | ⟨hkey, hreturned⟩
      · obtain ⟨zoneName, explicitZoneId, hexplicit, hkey, step, member, hstep⟩ :=
          hconfirmed key zoneId hkept
        exact ⟨zoneName, explicitZoneId, hexplicit, hkey, step, List.mem_append_left _ member,
          hstep⟩
      · have hexplicit := hhex run (List.mem_append_right _ List.mem_cons_self)
        obtain ⟨call, trace, result, hruns⟩ := run
        cases call with
        | resolveZoneId zoneName explicitZoneId =>
            cases result with
            | error error => cases hreturned
            | ok found =>
                cases hkey
                cases hreturned
                exact ⟨zoneName, explicitZoneId, hexplicit, rfl,
                  resolve_confirmed hconfirmed hexplicit hruns hrun⟩
        | _ => cases hkey

/-- A call that finds nothing in the cache asks the server. -/
theorem asks_of_uncached {client : CloudflareClient} {zoneName : String}
    {explicitZoneId : Option String} {trace : List Step}
    {result : Except CloudflareError String}
    (hrun : Runs (client.resolveZoneId zoneName explicitZoneId) trace result)
    {cache : String → Option String} (hreads : CoherentFrom readsCache cacheAfter cache trace)
    (hcache : ∀ zoneId, cache (zoneCacheKey zoneName explicitZoneId) = some zoneId →
      result ≠ .ok zoneId) : ∃ step ∈ trace, (sent step).isSome = true := by
  rcases client.runs_resolveZoneId hrun with ⟨zoneId, rfl, rfl⟩ | ⟨asking, rfl, -, hasks, -⟩
  · have hcached : some zoneId = cache (zoneCacheKey zoneName explicitZoneId) := hreads.1
    exact absurd rfl (hcache zoneId hcached.symm)
  · obtain ⟨step, member, hsent⟩ := hasks
    refine ⟨step, ?_, hsent⟩
    simp only [List.mem_cons, List.mem_append]
    exact .inr (.inl member)

/-- The ids that a client resolves are confirmed ones, and a zone that is not found any
more leaves its cache until the server shows it again. -/
theorem zone_cache_heals (client : CloudflareClient) {calls : List (CallRun client)}
    (hhex : ∀ run ∈ calls, run.call.Hex) (hreads : CacheAnswers (callSteps calls)) :
    (∀ before zoneName explicitZoneId trace zoneId hrun after,
      calls = before ++ ⟨.resolveZoneId zoneName explicitZoneId, trace, .ok zoneId, hrun⟩ ::
        after →
      ∃ step ∈ callSteps before ++ trace,
        Confirms client.apiToken zoneName explicitZoneId zoneId step) ∧
    ∀ before run after lost, calls = before ++ run :: after → run.lostZone = some lost →
      (∀ key zoneId, cacheOf (callSteps (before ++ [run])) key = some zoneId →
        eqIgnoreAsciiCase zoneId lost = false) ∧
      (∀ key zoneId, eqIgnoreAsciiCase zoneId lost = false →
        (cacheOf (callSteps (before ++ [run])) key = some zoneId ↔
          cacheOf (callSteps before) key = some zoneId)) ∧
      (∀ between zoneName explicitZoneId trace result hrun rest cached,
        after = between ++ ⟨.resolveZoneId zoneName explicitZoneId, trace, result, hrun⟩ ::
          rest →
        cacheOf (callSteps before) (zoneCacheKey zoneName explicitZoneId) = some cached →
        eqIgnoreAsciiCase cached lost = true →
        (∀ other ∈ between,
          other.call.cacheKey ≠ some (zoneCacheKey zoneName explicitZoneId)) →
        ∃ step ∈ trace, (sent step).isSome = true) ∧
      ∀ between zoneName explicitZoneId trace zoneId hrun rest,
        after = between ++ ⟨.resolveZoneId zoneName explicitZoneId, trace, .ok zoneId, hrun⟩ ::
          rest →
        eqIgnoreAsciiCase zoneId lost = true →
        (∀ other ∈ between, ∀ zoneId', other.returns = some zoneId' →
          eqIgnoreAsciiCase zoneId' lost = false) →
        ∃ step ∈ trace, (sent step).isSome = true := by
  constructor
  · rintro before zoneName explicitZoneId trace zoneId hrun after rfl
    rw [callSteps_append, callSteps_cons] at hreads
    obtain ⟨hbefore, hafter⟩ := coherentFrom_append.mp hreads
    have hconfirmed := calls_confirmed
      (fun other member => hhex other (List.mem_append_left _ member)) hbefore
    have hexplicit := hhex _ (List.mem_append_right _ List.mem_cons_self)
    exact resolve_confirmed hconfirmed hexplicit hrun (coherentFrom_append.mp hafter).1
  · rintro before run after lost rfl hlost
    have hcache : ∀ key, cacheOf (callSteps (before ++ [run])) key =
        (cacheOf (callSteps before) key).filter fun cached =>
          !eqIgnoreAsciiCase cached lost := by
      intro key
      obtain ⟨zoneId, hzone⟩ := run.zone_of_lost hlost
      unfold cacheOf
      rw [callSteps_append, callSteps_singleton, List.foldl_append,
        run.foldl_recordSteps hzone, hlost]
    have hgone : ∀ key zoneId, cacheOf (callSteps (before ++ [run])) key = some zoneId →
        eqIgnoreAsciiCase zoneId lost = false := by
      intro key zoneId hcached
      rw [hcache] at hcached
      simpa using (Option.filter_eq_some_iff.mp hcached).2
    have hsteps : callSteps (before ++ run :: after) =
        callSteps (before ++ [run]) ++ callSteps after := by
      rw [← callSteps_append, List.append_assoc]
      rfl
    rw [hsteps] at hreads
    have hafter := (coherentFrom_append.mp hreads).2
    refine ⟨hgone, fun key zoneId hother => ?_, ?_, ?_⟩
    · rw [hcache, Option.filter_eq_some_iff]
      simp [hother]
    · rintro between zoneName explicitZoneId trace result hrun rest cached rfl hcached hsame
        hbetween
      rw [callSteps_append between, callSteps_cons] at hafter
      obtain ⟨hfirst, hrest⟩ := coherentFrom_append.mp hafter
      apply asks_of_uncached hrun (coherentFrom_append.mp hrest).1
      intro zoneId hkept
      rcases entry_of_calls hfirst hkept with hbefore | ⟨other, member, hkey, -⟩
      · have hempty := hcache (zoneCacheKey zoneName explicitZoneId)
        rw [hcached] at hempty
        simp only [Option.filter_some, hsame, Bool.not_true, Bool.false_eq_true,
          if_false] at hempty
        exact absurd (hempty.symm.trans hbefore) (by simp)
      · exact absurd hkey (hbetween other member)
    · rintro between zoneName explicitZoneId trace zoneId hrun rest rfl hsame hbetween
      rw [callSteps_append between, callSteps_cons] at hafter
      obtain ⟨hfirst, hrest⟩ := coherentFrom_append.mp hafter
      apply asks_of_uncached hrun (coherentFrom_append.mp hrest).1
      rintro zoneId' hkept heq
      cases heq
      have hother : eqIgnoreAsciiCase zoneId lost = false := by
        rcases entry_of_calls hfirst hkept with hbefore | ⟨other, member, -, hreturned⟩
        · exact hgone _ _ hbefore
        · exact hbetween other member zoneId hreturned
      rw [hother] at hsame
      cases hsame

end

section

attribute [local instance] exampleExternals

/-- A zone that is shown but whose records are not found. -/
def lostZoneScenario : Scenario where
  server := fun _ request =>
    match request with
    | .listZones _ _ _ => delivered 200 exampleZonesBody
    | _ => delivered 404 exampleNoRecordsBody
  provider := fun _ => none
  cached := cacheOf

theorem lostZoneScenario_reads (past : List Step) (op : Op) :
    readsCache (cacheOf past) ⟨op, lostZoneScenario.strategy past op⟩ := by
  cases op with
  | act action => cases action <;> first | rfl | trivial
  | finish wait => trivial
  | finishBefore deadline wait => trivial

/-- A call of the example client in that scenario. -/
def lostZoneCall (past : List Step) (call : ClientCall) : CallRun exampleUpdater.cloudflare where
  call := call
  trace := (execute lostZoneScenario.strategy past (call.run exampleUpdater.cloudflare)).1
  result := (execute lostZoneScenario.strategy past (call.run exampleUpdater.cloudflare)).2
  runs := execute_runs _ _ _

theorem lostZoneCall_reads (past : List Step) (call : ClientCall) :
    CoherentFrom readsCache cacheAfter (cacheOf past) (lostZoneCall past call).trace :=
  execute_coherent lostZoneScenario_reads past _

/-- The calls that resolve a zone, lose it and resolve it once more. -/
def lostZoneCalls : List (CallRun exampleUpdater.cloudflare) :=
  let resolved := lostZoneCall [] (.resolveZoneId "example.com" none)
  let lost := lostZoneCall resolved.trace (.findRecord "023e" "A" "home.example.com")
  [resolved, lost,
    lostZoneCall (resolved.trace ++ lost.trace) (.resolveZoneId "example.com" none)]

theorem zone_cache_heals_lost :
    ∃ run, lostZoneCalls[2]? = some run ∧ ∃ step ∈ run.trace, (sent step).isSome = true := by
  have hhex : ∀ run ∈ lostZoneCalls, run.call.Hex := by
    intro run member
    simp only [lostZoneCalls, List.mem_cons, List.not_mem_nil, or_false] at member
    rcases member with rfl | rfl | rfl
    · exact fun zoneId heq => by cases heq
    · trivial
    · exact fun zoneId heq => by cases heq
  have hreads : CacheAnswers (callSteps lostZoneCalls) := by
    have hlast (first second : List Step) (call : ClientCall) :
        CoherentFrom readsCache cacheAfter (second.foldl cacheAfter (cacheOf first))
          ((lostZoneCall (first ++ second) call).trace ++ []) := by
      have hreads := lostZoneCall_reads (first ++ second) call
      unfold cacheOf at hreads ⊢
      rw [List.foldl_append] at hreads
      rw [List.append_nil]
      exact hreads
    apply coherentFrom_append.mpr
    exact ⟨lostZoneCall_reads [] _,
      coherentFrom_append.mpr ⟨lostZoneCall_reads _ _, hlast _ _ _⟩⟩
  obtain ⟨-, hheals⟩ := zone_cache_heals exampleUpdater.cloudflare hhex hreads
  obtain ⟨-, -, hasks, -⟩ := hheals [_] _ [_] "023e" rfl (by decide +kernel)
  exact ⟨_, rfl, hasks [] "example.com" none _ _ _ [] "023e" rfl (by decide +kernel)
    (by decide +kernel) (fun _ member => absurd member List.not_mem_nil)⟩

end

end Cirrusync
