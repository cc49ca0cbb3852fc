import Cirrusync.CheckMutations
import Cirrusync.Store

/-!
An edit probe against edits from elsewhere. A timeline is the steps of a check, the
moments at which the server handles the requests that the check has begun, maybe long
after, and the edits of others; the store with the probes is held against the one that
the edits alone make.
-/

namespace Cirrusync

open Effect Text

/-- An edit of a record from elsewhere: any of its fields take new values. -/
structure ExternalEdit (X : Type) where
  zoneId : String
  recordId : String
  recordType : Option String
  name : Option String
  content : Option String
  ttl : Option Nat
  proxied : Option Bool
  unmanaged : Option X

section

variable {X : Type}

def StoredRecord.applied (stored : StoredRecord X) (edit : ExternalEdit X) : StoredRecord X :=
  { record :=
      { id := stored.record.id
        recordType := edit.recordType.getD stored.record.recordType
        name := edit.name.getD stored.record.name
        content := edit.content.getD stored.record.content
        ttl := edit.ttl.getD stored.record.ttl
        proxied := edit.proxied.getD stored.record.proxied }
    unmanaged := edit.unmanaged.getD stored.unmanaged }

/-- The records after an edit from elsewhere. -/
def applyRecords (stored : List (StoredRecord X)) (edit : ExternalEdit X) :
    List (StoredRecord X) :=
  stored.map fun entry =>
    if entry.record.id = edit.recordId then entry.applied edit else entry

theorem ids_applyRecords (stored : List (StoredRecord X)) (edit : ExternalEdit X) :
    (applyRecords stored edit).map (fun entry => entry.record.id) =
      stored.map fun entry => entry.record.id := by
  unfold applyRecords
  rw [List.map_map]
  apply List.map_congr_left
  intro entry _
  simp only [Function.comp_apply]
  split <;> rfl

def Store.apply (store : Store X) (edit : ExternalEdit X) : Store X where
  zones := store.zones
  records := Function.update store.records (toAsciiLowercase edit.zoneId)
    (applyRecords (store.recordsOf edit.zoneId) edit)
  zones_distinct := store.zones_distinct
  ids_distinct := by
    intro other
    by_cases hzone : other = toAsciiLowercase edit.zoneId
    · subst hzone
      rw [Function.update_self, DistinctIds, ids_applyRecords]
      exact store.ids_distinct _
    · rw [Function.update_of_ne hzone]
      exact store.ids_distinct other

theorem Store.recordsOf_apply (store : Store X) (edit : ExternalEdit X) (other : String) :
    (store.apply edit).recordsOf other =
      if eqIgnoreAsciiCase other edit.zoneId = true then
        applyRecords (store.recordsOf edit.zoneId) edit
      else store.recordsOf other := by
  unfold recordsOf apply
  simp only [eqIgnoreAsciiCase_iff, Function.update_apply]
  rfl

/-- Two states of a record that differ at most in its type, name and ttl. -/
structure SameContent (stored stored' : StoredRecord X) : Prop where
  id : stored.record.id = stored'.record.id
  content : stored.record.content = stored'.record.content
  proxied : stored.record.proxied = stored'.record.proxied
  unmanaged : stored.unmanaged = stored'.unmanaged

/-- Two states of a store that differ at most in types, names and ttls. -/
structure Store.SameContents (store store' : Store X) : Prop where
  zones : store.zones = store'.zones
  records : ∀ key, List.Forall₂ SameContent (store.records key) (store'.records key)

theorem Store.sameContents_refl (store : Store X) : store.SameContents store := by
  refine ⟨rfl, fun key => ?_⟩
  exact List.forall₂_same.mpr fun stored _ => ⟨rfl, rfl, rfl, rfl⟩

theorem SameContent.applied {stored stored' : StoredRecord X} (h : SameContent stored stored')
    (edit : ExternalEdit X) : SameContent (stored.applied edit) (stored'.applied edit) := by
  constructor
  · exact h.id
  · simp only [StoredRecord.applied, h.content]
  · simp only [StoredRecord.applied, h.proxied]
  · simp only [StoredRecord.applied, h.unmanaged]

/-- The same edit from elsewhere on both sides. -/
theorem Store.SameContents.apply {store store' : Store X} (h : store.SameContents store')
    (edit : ExternalEdit X) : (store.apply edit).SameContents (store'.apply edit) := by
  refine ⟨h.zones, fun key => ?_⟩
  unfold Store.apply
  by_cases hzone : key = toAsciiLowercase edit.zoneId
  · subst hzone
    simp only [Function.update_self]
    unfold applyRecords
    rw [List.forall₂_map_left_iff, List.forall₂_map_right_iff]
    refine (h.records _).imp fun stored stored' hsame => ?_
    rw [hsame.id]
    split
    · exact hsame.applied edit
    · exact hsame
  · simp only [Function.update_of_ne hzone]
    exact h.records key

/-- A probe on one side. -/
theorem Store.SameContents.probe {store store' : Store X} (h : store.SameContents store')
    (zoneId recordId : String) (payload : EditProbePayload) :
    (store.patch zoneId recordId payload.edit).SameContents store' := by
  refine ⟨h.zones, fun key => ?_⟩
  unfold Store.patch
  by_cases hzone : key = toAsciiLowercase zoneId
  · subst hzone
    simp only [Function.update_self]
    unfold editRecords
    rw [List.forall₂_map_left_iff]
    refine (h.records _).imp fun stored stored' hsame => ?_
    split
    · exact ⟨hsame.id, hsame.content, hsame.proxied, hsame.unmanaged⟩
    · exact hsame
  · simp only [Function.update_of_ne hzone]
    exact h.records key

theorem Store.patch_eq_self {store : Store X} {zoneId recordId : String} {edit : RecordEdit}
    (h : ∀ entry ∈ store.recordsOf zoneId, entry.record.id = recordId →
      entry.merge edit = entry) : store.patch zoneId recordId edit = store := by
  have hrecords : editRecords (store.recordsOf zoneId) recordId edit =
      store.records (toAsciiLowercase zoneId) := by
    unfold editRecords
    calc (store.recordsOf zoneId).map
          (fun entry => if entry.record.id = recordId then entry.merge edit else entry)
        = (store.recordsOf zoneId).map id := by
          apply List.map_congr_left
          intro entry member
          split
          · rename_i hid
            exact h entry member hid
          · rfl
      _ = store.records (toAsciiLowercase zoneId) := List.map_id _
  unfold patch
  simp only [hrecords, Function.update_eq_self]

/-- An edit that gives a record another type, name or ttl than the one seen. -/
def ExternalEdit.Changes (edit : ExternalEdit X) (zoneId : String) (seen : DnsRecord) : Prop :=
  eqIgnoreAsciiCase zoneId edit.zoneId = true ∧ edit.recordId = seen.id ∧
    ¬ (edit.recordType.getD seen.recordType = seen.recordType ∧
      edit.name.getD seen.name = seen.name ∧ edit.ttl.getD seen.ttl = seen.ttl)

/-- The record with the id of one that was seen still has its type, name and ttl. -/
def Store.Keeps (store : Store X) (zoneId : String) (seen : DnsRecord) : Prop :=
  ∀ entry ∈ store.recordsOf zoneId, entry.record.id = seen.id →
    entry.record.recordType = seen.recordType ∧ entry.record.name = seen.name ∧
      entry.record.ttl = seen.ttl

theorem Store.keeps_of_mem {store : Store X} {zoneId : String} {entry : StoredRecord X}
    (h : entry ∈ store.recordsOf zoneId) : store.Keeps zoneId entry.record := by
  intro other member hid
  rw [Store.eq_of_same_id member h hid]
  exact ⟨rfl, rfl, rfl⟩

theorem Store.Keeps.apply {store : Store X} {zoneId : String} {seen : DnsRecord}
    (h : store.Keeps zoneId seen) {edit : ExternalEdit X}
    (hedit : ¬ edit.Changes zoneId seen) : (store.apply edit).Keeps zoneId seen := by
  intro entry member hid
  rw [Store.recordsOf_apply] at member
  split at member
  · rename_i hzone
    obtain ⟨old, hold, hentry⟩ := List.mem_map.mp member
    rw [← Store.recordsOf_congr hzone] at hold
    split at hentry
    · rename_i hrecord
      subst hentry
      obtain ⟨htype, hname, httl⟩ := h old hold hid
      have hsame : edit.recordType.getD seen.recordType = seen.recordType ∧
          edit.name.getD seen.name = seen.name ∧ edit.ttl.getD seen.ttl = seen.ttl := by
        by_contra hdiffers
        exact hedit ⟨hzone, hrecord.symm.trans hid, hdiffers⟩
      simp only [StoredRecord.applied, htype, hname, httl]
      exact hsame
    · subst hentry
      exact h old hold hid
  · exact h entry member hid

theorem Store.Keeps.foldl {zoneId : String} {seen : DnsRecord} {edits : List (ExternalEdit X)}
    (hedits : ∀ edit ∈ edits, ¬ edit.Changes zoneId seen) {store : Store X}
    (h : store.Keeps zoneId seen) : (edits.foldl Store.apply store).Keeps zoneId seen := by
  induction edits generalizing store with
  | nil => exact h
  | cons edit rest ih =>
      have hfirst := hedits edit List.mem_cons_self
      exact ih (fun other member => hedits other (List.mem_cons_of_mem _ member))
        (h.apply hfirst)

/-- A probe with the type, name and ttl that the record has does nothing. -/
theorem Store.Keeps.probe {store : Store X} {zoneId : String} {seen : DnsRecord}
    (h : store.Keeps zoneId seen) :
    store.patch zoneId seen.id
      (EditProbePayload.edit ⟨seen.recordType, seen.name, seen.ttl⟩) = store := by
  apply Store.patch_eq_self
  intro entry member hid
  obtain ⟨htype, hname, httl⟩ := h entry member hid
  simp only [StoredRecord.merge, DnsRecord.merge, EditProbePayload.edit, ← htype, ← hname,
    ← httl, Option.getD_none]

/-- The records that a step brings as the result of a listing, with its zone. -/
def listed [Externals] (apiToken : String) (step : Step) :
    Option (Request × String × List DnsRecord) :=
  match replied step with
  | some (.listRecords zoneId recordType name page perPage, outcome) =>
      match receive apiToken (.listRecords zoneId recordType name page perPage) outcome with
      | .ok response =>
          some (.listRecords zoneId recordType name page perPage, zoneId, response.result)
      | .error _ => none
  | _ => none

/-- What happens, one after the other: the check takes a step, the server handles a
request and leaves a store, or a record is edited from elsewhere. -/
inductive Moment (X : Type) where
  | step (step : Step)
  | handle (request : Request) (after : Store X)
  | edit (edit : ExternalEdit X)

/-- The steps of the check. -/
def stepsOf (timeline : List (Moment X)) : List Step :=
  timeline.filterMap fun
    | .step step => some step
    | _ => none

def editsOf (timeline : List (Moment X)) : List (ExternalEdit X) :=
  timeline.filterMap fun
    | .edit edit => some edit
    | _ => none

/-- The store, the requests that the server has still to handle, and those it has handled
since the last one began, each with the store it was handled in. -/
structure Race (X : Type) where
  store : Store X
  pending : List Request
  handled : List (Request × Store X)

namespace Race

def start (store : Store X) : Race X :=
  { store := store, pending := [], handled := [] }

def next (race : Race X) : Moment X → Race X
  | .step step =>
      match sent step with
      | some request => { race with pending := request :: race.pending, handled := [] }
      | none => race
  | .handle request after =>
      { store := after
        pending := race.pending.erase request
        handled := (request, race.store) :: race.handled }
  | .edit edit => { race with store := race.store.apply edit }

variable [Externals]

/-- The server handles a request once, some time after it began; a listing shows
records as they were when it was handled. -/
def legal (apiToken : String) (race : Race X) : Moment X → Prop
  | .step step =>
      ∀ request zoneId records, listed apiToken step = some (request, zoneId, records) →
        ∃ store, (request, store) ∈ race.handled ∧
          ∀ record ∈ records, ∃ entry ∈ store.recordsOf zoneId, entry.record = record
  | .handle request after => request ∈ race.pending ∧ Handles race.store request after
  | .edit _ => True

/-- Every moment is legal in the race that those before it lead to. -/
def LegalFrom (apiToken : String) : Race X → List (Moment X) → Prop
  | _, [] => True
  | race, moment :: rest => race.legal apiToken moment ∧ LegalFrom apiToken (race.next moment) rest

theorem LegalFrom.at {apiToken : String} {race : Race X} {past rest : List (Moment X)}
    {moment : Moment X} (h : LegalFrom apiToken race (past ++ moment :: rest)) :
    (past.foldl next race).legal apiToken moment := by
  induction past generalizing race with
  | nil => exact h.1
  | cons first past ih => exact ih h.2

theorem legalFrom_append {apiToken : String} {race : Race X} {first second : List (Moment X)}
    (hfirst : LegalFrom apiToken race first)
    (hsecond : LegalFrom apiToken (first.foldl next race) second) :
    LegalFrom apiToken race (first ++ second) := by
  induction first generalizing race with
  | nil => exact hsecond
  | cons moment first ih => exact ⟨hfirst.1, ih hfirst.2 hsecond⟩

end Race

def raceAfter (store : Store X) (timeline : List (Moment X)) : Race X :=
  timeline.foldl Race.next (.start store)

@[simp] theorem stepsOf_append (first second : List (Moment X)) :
    stepsOf (first ++ second) = stepsOf first ++ stepsOf second :=
  List.filterMap_append

@[simp] theorem editsOf_append (first second : List (Moment X)) :
    editsOf (first ++ second) = editsOf first ++ editsOf second :=
  List.filterMap_append

theorem mem_editsOf {timeline : List (Moment X)} {edit : ExternalEdit X} :
    edit ∈ editsOf timeline ↔ Moment.edit edit ∈ timeline := by
  unfold editsOf
  rw [List.mem_filterMap]
  constructor
  · rintro ⟨moment, member, hedit⟩
    cases moment with
    | edit other =>
        cases hedit
        exact member
    | step _ | handle _ _ => cases hedit
  · intro member
    exact ⟨_, member, rfl⟩

/-- A step of the check has its place in the timeline. -/
theorem stepsOf_split {timeline : List (Moment X)} {before after : List Step} {step : Step}
    (h : stepsOf timeline = before ++ step :: after) :
    ∃ first second, timeline = first ++ .step step :: second ∧ stepsOf first = before := by
  obtain ⟨first, rest, rfl, hfirst, hrest⟩ := List.filterMap_eq_append_iff.mp h
  obtain ⟨skipped, moment, second, rfl, hskipped, hstep, -⟩ :=
    List.filterMap_eq_cons_iff.mp hrest
  cases moment with
  | step other =>
      cases hstep
      refine ⟨first ++ skipped, second, by simp, ?_⟩
      have hnone : stepsOf skipped = [] := List.filterMap_eq_nil_iff.mpr hskipped
      rw [stepsOf_append, hnone, List.append_nil]
      exact hfirst
  | handle _ _ | edit _ => cases hstep

theorem raceAfter_concat (store : Store X) (timeline : List (Moment X)) (moment : Moment X) :
    raceAfter store (timeline ++ [moment]) = (raceAfter store timeline).next moment := by
  unfold raceAfter
  rw [List.foldl_append]
  rfl

/-- A request that the server has still to handle has begun. -/
theorem begun_of_pending {store : Store X} {timeline : List (Moment X)} {request : Request}
    (h : request ∈ (raceAfter store timeline).pending) :
    ∃ first step second, timeline = first ++ .step step :: second ∧
      sent step = some request := by
  induction timeline using List.reverseRecOn with
  | nil => cases h
  | append_singleton timeline moment ih =>
      have hearlier : request ∈ (raceAfter store timeline).pending →
          ∃ first step second, timeline ++ [moment] = first ++ .step step :: second ∧
            sent step = some request := by
        intro hpending
        obtain ⟨first, step, second, rfl, hsent⟩ := ih hpending
        exact ⟨first, step, second ++ [moment], by simp, hsent⟩
      rw [raceAfter_concat] at h
      cases moment with
      | step step =>
          simp only [Race.next] at h
          split at h
          · rename_i begun hsent
            rcases List.mem_cons.mp h with rfl | hpending
            · exact ⟨timeline, step, [], rfl, hsent⟩
            · exact hearlier hpending
          · exact hearlier h
      | handle other after => exact hearlier (List.mem_of_mem_erase h)
      | edit edit => exact hearlier h

/-- What has been handled was handled at a moment, in the store of that moment. -/
theorem handled_at {store seen : Store X} {timeline : List (Moment X)} {request : Request}
    (h : (request, seen) ∈ (raceAfter store timeline).handled) :
    ∃ first after second, timeline = first ++ .handle request after :: second ∧
      (raceAfter store first).store = seen := by
  induction timeline using List.reverseRecOn with
  | nil => cases h
  | append_singleton timeline moment ih =>
      have hearlier : (request, seen) ∈ (raceAfter store timeline).handled →
          ∃ first after second, timeline ++ [moment] =
            first ++ .handle request after :: second ∧ (raceAfter store first).store = seen := by
        intro hhandled
        obtain ⟨first, after, second, rfl, hseen⟩ := ih hhandled
        exact ⟨first, after, second ++ [moment], by simp, hseen⟩
      rw [raceAfter_concat] at h
      cases moment with
      | step step =>
          simp only [Race.next] at h
          split at h
          · cases h
          · exact hearlier h
      | handle other after =>
          rcases List.mem_cons.mp h with heq | hhandled
          · cases heq
            exact ⟨timeline, after, [], rfl, rfl⟩
          · exact hearlier hhandled
      | edit edit => exact hearlier h

/-- A moment at which the server reads a record of a zone for a listing. -/
inductive Shows (store : Store X) (zoneId : String) (seen : DnsRecord)
    (past : List (Moment X)) : Moment X → Prop where
  | listing (recordType name : String) (page perPage : Nat) (after : Store X)
      {entry : StoredRecord X} :
      entry ∈ (raceAfter store past).store.recordsOf zoneId → entry.record = seen →
      Shows store zoneId seen past
        (.handle (.listRecords zoneId recordType name page perPage) after)

/-- From the last listing that shows a record to the moment at which its probe is
handled, no edit from elsewhere changes its type, name or ttl. -/
def Undisturbed (store : Store X) (timeline : List (Moment X)) : Prop :=
  ∀ zoneId seen past listing between after rest,
    timeline = past ++ listing ::
      (between ++ .handle (CloudflareClient.probeRequest zoneId seen) after :: rest) →
    Shows store zoneId seen past listing →
    (∀ first moment second, between = first ++ moment :: second →
      ¬ Shows store zoneId seen (past ++ listing :: first) moment) →
    ∀ edit, .edit edit ∈ between → ¬ edit.Changes zoneId seen

/-- The last place of a list with a property of the place and what is before it. -/
theorem exists_last {α : Type} {holds : List α → α → Prop} (past : List α) (value : α)
    (rest : List α) (h : holds past value) :
    ∃ past' value' rest', past ++ value :: rest = past' ++ value' :: rest' ∧
      holds past' value' ∧
      ∀ first other second, rest' = first ++ other :: second →
        ¬ holds (past' ++ value' :: first) other := by
  induction hlength : rest.length using Nat.strong_induction_on generalizing past value rest with
  | _ length ih =>
      by_cases hlater : ∃ first other second, rest = first ++ other :: second ∧
          holds (past ++ value :: first) other
      · obtain ⟨first, other, second, rfl, hother⟩ := hlater
        have hshorter : second.length < length := by
          simp only [List.length_append, List.length_cons] at hlength
          omega
        obtain ⟨past', value', rest', heq, hholds, hlast⟩ :=
          ih second.length hshorter (past ++ value :: first) other second hother rfl
        refine ⟨past', value', rest', ?_, hholds, hlast⟩
        rw [← heq]
        simp
      · refine ⟨past, value, rest, rfl, h, ?_⟩
        intro first other second heq hother
        exact hlater ⟨first, other, second, heq, hother⟩

end

theorem scanRecords_finds {recordType name : String} {entries : List DnsRecord}
    {exactMatch : Option DnsRecord} {found : DnsRecord}
    (h : scanRecords recordType name entries exactMatch = .ok (some found)) :
    exactMatch = some found ∨ found ∈ entries := by
  rw [scanRecords_eq, recordVerdict_ok_iff] at h
  have member : found ∈ exactMatch.toList ++
      entries.filter (DnsRecord.isExactMatch recordType name) := by
    rw [h]
    exact List.mem_singleton_self found
  rcases List.mem_append.mp member with hmatch | hentry
  · exact .inl (Option.mem_toList.mp hmatch)
  · exact .inr (List.mem_filter.mp hentry).1

section

variable [Externals]

/-- The record that a lookup returns is on a page that it was sent. -/
theorem CloudflareClient.recordPages_shows (client : CloudflareClient)
    {zoneId recordType name : String} {left page : Nat} {exactMatch : Option DnsRecord}
    {trace : List Step} {found : DnsRecord}
    (hrun : Runs (client.recordPages zoneId recordType name left page exactMatch) trace
      (.ok (some found))) (hnew : exactMatch ≠ some found) :
    ∃ page outcome response,
      (⟨.finish (.http (.listRecords zoneId recordType name page recordPageSize)), outcome⟩ :
        Step) ∈ trace ∧
      receive client.apiToken (.listRecords zoneId recordType name page recordPageSize)
        outcome = .ok response ∧ found ∈ response.result := by
  induction left generalizing page exactMatch trace with
  | zero =>
      simp only [recordPages, Program.pure_eq, runs_done_iff] at hrun
      cases hrun.2
  | succ left ih =>
      simp only [recordPages, runs_bind_iff] at hrun
      obtain ⟨_, after, _, rfl, hsend, hrest⟩ := hrun
      obtain ⟨outcome, rfl, rfl⟩ := (client.runs_sendInZone_iff _ _ _ _).mp hsend
      cases hreceive : receive client.apiToken
          (.listRecords zoneId recordType name page recordPageSize) outcome with
      | error error =>
          simp only [hreceive, Program.pure_eq, runs_done_iff] at hrest
          cases hrest.2
      | ok response =>
          simp only [hreceive, evictions, List.append_nil] at hrest ⊢
          cases hscan : scanRecords recordType name response.result exactMatch with
          | error error =>
              simp only [hscan, Program.pure_eq, runs_done_iff] at hrest
              cases hrest.2
          | ok exactMatch' =>
              simp only [hscan] at hrest
              by_cases hfound : exactMatch' = some found
              · subst hfound
                have member := (scanRecords_finds hscan).resolve_left hnew
                exact ⟨page, outcome, response,
                  List.mem_append_left _ (by simp [exchange]), hreceive, member⟩
              · split at hrest
                · obtain ⟨page', outcome', response', member, hlater⟩ := ih hrest hfound
                  exact ⟨page', outcome', response', List.mem_append_right _ member, hlater⟩
                · simp only [Program.pure_eq, runs_done_iff, Except.ok.injEq] at hrest
                  exact absurd hrest.2.symm hfound

/-- The server handles what the check sends it, as a store of merged PATCHes. -/
def Served {X : Type} (apiToken : String) (store : Store X) (timeline : List (Moment X)) :
    Prop :=
  (Race.start store).LegalFrom apiToken timeline

namespace Updater

variable {self : Updater} {X : Type} {store : Store X} {timeline : List (Moment X)}
  {report : CheckReport}

/-- A page that a timed lookup was sent, on the timeline that the lookup is part of. -/
theorem shown_of_lookup {zoneId recordType name : String} {deadline : Instant}
    {earlier lookup later : List Step} {seen : DnsRecord} {past rest : List (Moment X)}
    (hserved : Served self.cloudflare.apiToken store (past ++ rest))
    (hlookup : Runs (timeoutAt deadline (self.cloudflare.findRecord zoneId recordType name))
      lookup (some (.ok (some seen)))) (hsteps : stepsOf past = earlier ++ lookup ++ later) :
    ∃ first listing second, past = first ++ listing :: second ∧
      Shows store zoneId seen first listing := by
  obtain ⟨lookup', hrun, hmeets⟩ := runs_timeoutAt_some hlookup
  obtain ⟨page, outcome, response, hfinish, hreceive, hseen⟩ :=
    self.cloudflare.recordPages_shows hrun (by simp)
  obtain ⟨_, _, rfl⟩ := List.append_of_mem hfinish
  obtain ⟨before, _, rfl, -, hrest⟩ := forall₂_split hmeets
  obtain ⟨step, after, hmeet, -, rfl⟩ := List.forall₂_cons_right_iff.mp hrest
  have hlisted : listed self.cloudflare.apiToken step =
      some (.listRecords zoneId recordType name page recordPageSize, zoneId,
        response.result) := by
    rcases hmeet with rfl | ⟨wait, answer, rfl, hstep⟩
    · simp only [listed, replied, hreceive]
    · cases hstep
      simp only [listed, replied, hreceive]
  have hplace : stepsOf past = (earlier ++ before) ++ step :: (after ++ later) := by
    rw [hsteps]
    simp
  obtain ⟨first, second, rfl, -⟩ := stepsOf_split hplace
  rw [List.append_assoc] at hserved
  obtain ⟨shown, hhandled, hrecords⟩ := hserved.at _ _ _ hlisted
  obtain ⟨entry, hentry, hrecord⟩ := hrecords seen hseen
  obtain ⟨opening, handled, between, rfl, rfl⟩ := handled_at hhandled
  have hshows : Shows store zoneId seen opening
      (.handle (.listRecords zoneId recordType name page recordPageSize) handled) :=
    .listing _ _ _ _ _ hentry hrecord
  exact ⟨opening, _, between ++ .step step :: second, List.append_assoc _ _ _, hshows⟩

/-- The server has no mutation of a check without creation to handle but probes of
records that it has shown. -/
theorem probe_of_pending (hrun : Runs (self.check false true) (stepsOf timeline) report)
    (hserved : Served self.cloudflare.apiToken store timeline) {past rest : List (Moment X)}
    (hsplit : timeline = past ++ rest) {request : Request}
    (hpending : request ∈ (raceAfter store past).pending)
    (hmutation : request.isMutation = true) :
    ∃ zoneId seen first listing second,
      request = CloudflareClient.probeRequest zoneId seen ∧
      past = first ++ listing :: second ∧ Shows store zoneId seen first listing := by
  obtain ⟨deadline, hallowed⟩ := check_allowed hrun
  have hsteps := coherentFrom_iff.mp hallowed
  simp only [foldl_concat, List.nil_append] at hsteps
  obtain ⟨before, step, after, rfl, hsent⟩ := begun_of_pending hpending
  subst hsplit
  have hbegun : begunMutation step = some request := by
    simp [begunMutation, hsent, hmutation]
  have hstep := (hsteps (stepsOf before) step (stepsOf after ++ stepsOf rest)
    (by simp [stepsOf])).mutation request hbegun
  generalize hpast : stepsOf before = done at hstep
  cases hstep with
  | creation hcreate => cases hcreate
  | @probe record zoneId seen now earlier lookup _ _ hlookup _ =>
      rw [List.append_assoc before] at hserved
      obtain ⟨first, listing, second, rfl, hshows⟩ := shown_of_lookup hserved hlookup hpast
      exact ⟨zoneId, seen, first, listing, second ++ .step step :: after, rfl, by simp, hshows⟩

/-- With and without the probes the records have the same contents. -/
theorem race_sameContents (hrun : Runs (self.check false true) (stepsOf timeline) report)
    (hserved : Served self.cloudflare.apiToken store timeline) {past rest : List (Moment X)}
    (hsplit : timeline = past ++ rest) :
    (raceAfter store past).store.SameContents ((editsOf past).foldl Store.apply store) := by
  induction past using List.reverseRecOn generalizing rest with
  | nil => exact store.sameContents_refl
  | append_singleton past moment ih =>
      have hsplit' : timeline = past ++ moment :: rest := by simp [hsplit]
      have hbefore := ih hsplit'
      have hlegal := (hsplit' ▸ hserved).at
      rw [raceAfter_concat, editsOf_append, List.foldl_append]
      cases moment with
      | step step =>
          simp only [Race.next]
          split <;> exact hbefore
      | edit edit => exact hbefore.apply edit
      | handle request after =>
          obtain ⟨hpending, hhandles⟩ := hlegal
          by_cases hmutation : request.isMutation = true
          · obtain ⟨zoneId, seen, _, _, _, rfl, -, -⟩ :=
              probe_of_pending hrun hserved hsplit' hpending hmutation
            cases hhandles with
            | read hread => cases hread
            | probe => exact hbefore.probe _ _ _
          · have hsame := hhandles.of_read (Bool.eq_false_iff.mpr hmutation)
            subst hsame
            exact hbefore

/-- Where no window is disturbed the probes do nothing. -/
theorem race_undisturbed (hrun : Runs (self.check false true) (stepsOf timeline) report)
    (hserved : Served self.cloudflare.apiToken store timeline)
    (hquiet : Undisturbed store timeline) {past rest : List (Moment X)}
    (hsplit : timeline = past ++ rest) :
    (raceAfter store past).store = (editsOf past).foldl Store.apply store := by
  induction hlength : past.length using Nat.strong_induction_on generalizing past rest with
  | _ length ih =>
      rcases List.eq_nil_or_concat past with rfl | ⟨past, moment, rfl⟩
      · rfl
      rw [List.concat_eq_append] at hsplit hlength ⊢
      have hsplit' : timeline = past ++ moment :: rest := by simp [hsplit]
      have hbefore := ih past.length (by simp [← hlength]) hsplit' rfl
      have hlegal := (hsplit' ▸ hserved).at
      rw [raceAfter_concat, editsOf_append, List.foldl_append, ← hbefore]
      cases moment with
      | step step =>
          simp only [Race.next]
          split <;> rfl
      | edit edit => rfl
      | handle request after =>
          obtain ⟨hpending, hhandles⟩ := hlegal
          change after = (raceAfter store past).store
          by_cases hmutation : request.isMutation = true
          · obtain ⟨zoneId, seen, first, listing, second, rfl, rfl, hshown⟩ :=
              probe_of_pending hrun hserved hsplit' hpending hmutation
            obtain ⟨first, listing, second, heq, hshows, hlast⟩ :=
              exists_last first listing second hshown
            rw [heq] at hsplit' hbefore hlength hhandles ⊢
            have hearlier : timeline = first ++ listing :: (second ++
                .handle (CloudflareClient.probeRequest zoneId seen) after :: rest) := by
              simp [hsplit']
            have hedits : ∀ edit ∈ editsOf second, ¬ edit.Changes zoneId seen := by
              intro edit member
              exact hquiet zoneId seen first listing second after rest hearlier hshows hlast
                edit (mem_editsOf.mp member)
            have hopening := ih first.length (by simp [← hlength]) hearlier rfl
            have hkeeps : (raceAfter store (first ++ listing :: second)).store.Keeps
                zoneId seen := by
              obtain ⟨_, _, _, _, _, hentry, rfl⟩ := hshows
              have hlater := (Store.keeps_of_mem hentry).foldl hedits
              rw [hopening, ← List.foldl_append] at hlater
              rw [hbefore, editsOf_append]
              exact hlater
            cases hhandles with
            | read hread => cases hread
            | probe => exact hkeeps.probe
          · exact hhandles.of_read (Bool.eq_false_iff.mpr hmutation)

end Updater

open Updater

/-- Whatever comes between the steps of a check that only probes, the contents of every
record are those that the edits from elsewhere leave; and where none of these disturbs a
probe, they alone make the store. -/
theorem probe_restores_nothing (self : Updater) {X : Type} (store : Store X)
    (timeline : List (Moment X)) {report : CheckReport}
    (hrun : Runs (self.check false true) (stepsOf timeline) report)
    (hserved : Served self.cloudflare.apiToken store timeline) :
    (raceAfter store timeline).store.SameContents
        ((editsOf timeline).foldl Store.apply store) ∧
      (Undisturbed store timeline →
        (raceAfter store timeline).store = (editsOf timeline).foldl Store.apply store) :=
  ⟨race_sameContents hrun hserved (List.append_nil timeline).symm,
    fun hquiet => race_undisturbed hrun hserved hquiet (List.append_nil timeline).symm⟩

end

section

variable {X : Type}

/-- A server that handles each request as it begins, in a store that stays. -/
def attended (store : Store X) (trace : List Step) : List (Moment X) :=
  trace.flatMap fun step => .step step :: (sent step).toList.map (Moment.handle · store)

theorem stepsOf_attended (store : Store X) (trace : List Step) :
    stepsOf (attended store trace) = trace := by
  induction trace with
  | nil => rfl
  | cons step rest ih =>
      have hfirst : stepsOf (Moment.step step :: (sent step).toList.map (Moment.handle · store)) =
          [step] := by
        cases sent step <;> rfl
      unfold attended at ih ⊢
      rw [List.flatMap_cons, stepsOf_append, hfirst, ih]
      rfl

theorem editsOf_attended (store : Store X) (trace : List Step) :
    editsOf (attended store trace) = [] := by
  apply List.eq_nil_iff_forall_not_mem.mpr
  intro edit member
  rw [mem_editsOf] at member
  obtain ⟨step, -, hmoment⟩ := List.mem_flatMap.mp member
  cases hsent : sent step <;> simp [hsent] at hmoment

/-- The same with one edit on the way. -/
def edited (store : Store X) (edit : ExternalEdit X) (n : Nat) (trace : List Step) :
    List (Moment X) :=
  attended store (trace.take n) ++ .edit edit :: attended (store.apply edit) (trace.drop n)

theorem stepsOf_edited (store : Store X) (edit : ExternalEdit X) (n : Nat) (trace : List Step) :
    stepsOf (edited store edit n trace) = trace := by
  unfold edited
  rw [← List.singleton_append, stepsOf_append, stepsOf_append, stepsOf_attended,
    stepsOf_attended]
  exact List.take_append_drop n trace

theorem editsOf_edited (store : Store X) (edit : ExternalEdit X) (n : Nat) (trace : List Step) :
    editsOf (edited store edit n trace) = [edit] := by
  unfold edited
  rw [← List.singleton_append, editsOf_append, editsOf_append, editsOf_attended,
    editsOf_attended]
  rfl

variable [Externals]

/-- What the listings of a trace show is what there is to show. -/
def listsOnly (apiToken : String) (records : List DnsRecord) :
    Option Request → List Step → Bool
  | _, [] => true
  | last, step :: rest =>
      (match listed apiToken step with
        | some (request, _, shown) => last == some request && shown.all (· ∈ records)
        | none => true) &&
      listsOnly apiToken records ((sent step).or last) rest

/-- Where each request is handled as it begins and leaves the store as it is, the race is legal
and ends in the same store. The induction is on the steps, with the request that was handled last
to answer for the response that comes next. -/
theorem attended_legal {apiToken : String} {records : List DnsRecord} {store : Store X}
    (hrecords : ∀ zoneId, ∀ record ∈ records, ∃ entry ∈ store.recordsOf zoneId,
      entry.record = record) {trace : List Step} {race : Race X} {last : Option Request}
    (hstore : race.store = store)
    (hlast : ∀ request, last = some request → (request, store) ∈ race.handled)
    (hstays : ∀ request ∈ trace.filterMap sent, Handles store request store)
    (hlists : listsOnly apiToken records last trace = true) :
    race.LegalFrom apiToken (attended store trace) ∧
      ((attended store trace).foldl Race.next race).store = store := by
  induction trace generalizing race last with
  | nil => exact ⟨trivial, hstore⟩
  | cons step rest ih =>
      rw [listsOnly, Bool.and_eq_true] at hlists
      have hstep : race.legal apiToken (.step step) := by
        intro request zoneId shown hlisted
        have hlisted' := hlists.1
        rw [hlisted] at hlisted'
        simp only [Bool.and_eq_true, beq_iff_eq, List.all_eq_true, decide_eq_true_eq] at hlisted'
        exact ⟨store, hlast request hlisted'.1,
          fun record member => hrecords zoneId record (hlisted'.2 record member)⟩
      cases hsent : sent step with
      | none =>
          rw [hsent, Option.none_or] at hlists
          rw [List.filterMap_cons_none hsent] at hstays
          have hsame : race.next (.step step) = race := by
            simp only [Race.next, hsent]
          obtain ⟨hrest, hend⟩ := ih hstore hlast hstays hlists.2
          have hhere : attended store (step :: rest) = .step step :: attended store rest := by
            simp [attended, hsent]
          rw [hhere, List.foldl_cons, Race.LegalFrom, hsame]
          exact ⟨⟨hstep, hrest⟩, hend⟩
      | some request =>
          rw [hsent, Option.some_or] at hlists
          rw [List.filterMap_cons_some hsent, List.forall_mem_cons] at hstays
          have hhere : attended store (step :: rest) =
              .step step :: .handle request store :: attended store rest := by
            simp [attended, hsent]
          have hnext : race.next (.step step) =
              { race with pending := request :: race.pending, handled := [] } := by
            simp only [Race.next, hsent]
          have hstore' : ((race.next (.step step)).next (.handle request store)).store = store :=
            rfl
          have hlast' : ∀ other, some request = some other →
              (other, store) ∈ ((race.next (.step step)).next (.handle request store)).handled := by
            intro other heq
            cases heq
            rw [hnext]
            simp [Race.next, hstore]
          obtain ⟨hrest, hend⟩ := ih hstore' hlast' hstays.2 hlists.2
          have hhandle : (race.next (.step step)).legal apiToken (.handle request store) := by
            rw [hnext]
            refine ⟨List.mem_cons_self, ?_⟩
            rw [hstore]
            exact hstays.1
          rw [hhere, List.foldl_cons, List.foldl_cons]
          exact ⟨⟨hstep, hhandle, hrest⟩, hend⟩

end

section

/-- A zone with the record: a check probes it. -/
def probeScenario : Scenario where
  server := fun _ request =>
    match request with
    | .listZones _ _ _ => delivered 200 exampleZonesBody
    | .listRecords _ _ _ _ _ => delivered 200 exampleFoundBody
    | .probeRecord _ _ _ => delivered 200 exampleRecordBody
    | _ => .failed "connection refused"
  provider := fun _ => some (delivered 200 "93.184.216.34")

def recordStore : Store Unit where
  zones := [exampleZone]
  records := fun _ => [⟨exampleStored, ()⟩]
  zones_distinct := zone_distinct exampleZone
  ids_distinct := fun _ => List.nodup_singleton _

/-- Another address from elsewhere. -/
def exampleEdit : ExternalEdit Unit where
  zoneId := "023e"
  recordId := "372e"
  recordType := none
  name := none
  content := some "198.51.100.7"
  ttl := none
  proxied := none
  unmanaged := none

attribute [local instance] exampleExternals

def probeTrace : List Step := probeScenario.trace (exampleUpdater.check false true)

/-- The edit comes between the lookup and the probe. -/
def probeTimeline : List (Moment Unit) :=
  attended recordStore (probeTrace.take 17) ++
    .edit exampleEdit :: attended (recordStore.apply exampleEdit) (probeTrace.drop 17)

theorem stepsOf_probeTimeline : stepsOf probeTimeline = probeTrace :=
  stepsOf_edited recordStore exampleEdit 17 probeTrace

theorem editsOf_probeTimeline : editsOf probeTimeline = [exampleEdit] :=
  editsOf_edited recordStore exampleEdit 17 probeTrace

/-- The requests and the listings of the probing check, evaluated once. -/
theorem probeTrace_exchanges :
    (∀ request ∈ probeTrace.filterMap sent, request.isMutation = false ∨
      request = CloudflareClient.probeRequest "023e" exampleStored) ∧
    listsOnly "token" [exampleStored] none (probeTrace.take 17) = true ∧
    listsOnly "token" [] none (probeTrace.drop 17) = true ∧
    CloudflareClient.probeRequest "023e" exampleStored ∈
      (probeTrace.drop 17).filterMap sent := by
  decide +kernel

/-- Nothing else of a trace matters to what serves it. -/
theorem edited_served {trace : List Step}
    (hsends : ∀ request ∈ trace.filterMap sent, request.isMutation = false ∨
      request = CloudflareClient.probeRequest "023e" exampleStored)
    (hlists : listsOnly "token" [exampleStored] none (trace.take 17) = true)
    (hlists' : listsOnly "token" [] none (trace.drop 17) = true) :
    Served "token" recordStore (edited recordStore exampleEdit 17 trace) := by
  have hstays : ∀ {store : Store Unit}, store.Keeps "023e" exampleStored →
      ∀ {part : List Step}, (∀ step ∈ part, step ∈ trace) →
      ∀ request ∈ part.filterMap sent, Handles store request store := by
    intro store hkeeps part hpart request member
    obtain ⟨step, hstep, hsent⟩ := List.mem_filterMap.mp member
    have hin : request ∈ trace.filterMap sent :=
      List.mem_filterMap.mpr ⟨step, hpart step hstep, hsent⟩
    rcases hsends request hin with hread | rfl
    · exact .read hread
    · have hprobe : Handles store (CloudflareClient.probeRequest "023e" exampleStored)
          (store.patch "023e" exampleStored.id (EditProbePayload.edit
            ⟨exampleStored.recordType, exampleStored.name, exampleStored.ttl⟩)) :=
        .probe _ _ _
      rw [hkeeps.probe] at hprobe
      exact hprobe
  have hkeeps : recordStore.Keeps "023e" exampleStored := by
    intro entry member _
    rw [List.mem_singleton.mp member]
    exact ⟨rfl, rfl, rfl⟩
  have hkeeps' : (recordStore.apply exampleEdit).Keeps "023e" exampleStored := by
    apply hkeeps.apply
    rintro ⟨-, -, hchanges⟩
    exact hchanges ⟨rfl, rfl, rfl⟩
  have hnone : ∀ {race : Race Unit} {store : Store Unit} (request : Request),
      (none : Option Request) = some request → (request, store) ∈ race.handled := by
    intro race store request heq
    cases heq
  have hrecords : ∀ zoneId, ∀ record ∈ [exampleStored],
      ∃ entry ∈ recordStore.recordsOf zoneId, entry.record = record := by
    intro zoneId record member
    rw [List.mem_singleton.mp member]
    exact ⟨⟨exampleStored, ()⟩, List.mem_singleton_self _, rfl⟩
  have hstart : (Race.start recordStore).store = recordStore := rfl
  obtain ⟨hfirst, hstore⟩ := attended_legal hrecords hstart hnone
    (hstays hkeeps fun step member => List.mem_of_mem_take member) hlists
  refine Race.legalFrom_append hfirst ⟨trivial, ?_⟩
  have hedited : (((attended recordStore (trace.take 17)).foldl Race.next
      (.start recordStore)).next (.edit exampleEdit)).store =
      recordStore.apply exampleEdit := by
    simp only [Race.next, hstore]
  exact (attended_legal (fun _ _ member => absurd member List.not_mem_nil) hedited hnone
    (hstays hkeeps' fun step member => List.mem_of_mem_drop member) hlists').1

theorem probeTimeline_served : Served "token" recordStore probeTimeline :=
  edited_served probeTrace_exchanges.1 probeTrace_exchanges.2.1 probeTrace_exchanges.2.2.1

/-- An edit between a lookup and its probe stays. -/
theorem probe_restores_nothing_edit :
    (raceAfter recordStore probeTimeline).store.SameContents
        (recordStore.apply exampleEdit) ∧
      CloudflareClient.probeRequest "023e" exampleStored ∈
        (probeTrace.drop 17).filterMap sent := by
  have hrun : Runs (exampleUpdater.check false true) (stepsOf probeTimeline)
      (probeScenario.result (exampleUpdater.check false true)) := by
    rw [stepsOf_probeTimeline]
    exact probeScenario.runs _
  have hcontents := (probe_restores_nothing exampleUpdater recordStore probeTimeline hrun
    probeTimeline_served).1
  rw [editsOf_probeTimeline] at hcontents
  exact ⟨hcontents, probeTrace_exchanges.2.2.2⟩

end

end Cirrusync
