import Cirrusync.Effect.Simulation
import Cirrusync.Scenario
import Cirrusync.StoreRules

/-!
At most one creation. Processes that share a lock directory run cycles, checks and
daemons against one store, one task after the other and in any interleaving. A
lost response leaves its record in the store, where the next lookup of any process
finds it.
-/

namespace Cirrusync

open Effect Text RuntimeLockIdentity StoreView

/-- What a process is asked to do. -/
inductive Command where
  | idle
  | cycle
  | check (allowCreate allowEditProbe : Bool)
  | daemon (iterations : Nat)

/-- A command for the updater of a process. -/
structure CloudTask where
  updater : Updater
  command : Command

section

variable [Externals]

def CloudTask.code (task : CloudTask) : M Unit :=
  match task.command with
  | .idle => return ()
  | .cycle => do
      let _ ← task.updater.runCycle
      return ()
  | .check allowCreate allowEditProbe => do
      let _ ← task.updater.check allowCreate allowEditProbe
      return ()
  | .daemon iterations => do
      let _ ← task.updater.runDaemon iterations
      return ()

/-- Every process goes on with its updater, and with any command. -/
def cloudTasks : Tasks Ans CloudTask Unit where
  code := CloudTask.code
  follows := fun task _ task' => task'.updater = task.updater

abbrev CloudPool (ι X : Type) := Pool Ans ι (Cloud ι X) CloudTask Unit

/-- Processes that have done nothing yet. -/
def startCloud {ι X : Type} (store : Store X) (updaters : ι → Updater) : CloudPool ι X where
  world :=
    { store := store
      locks := fun _ => none
      caches := fun _ _ => none
      inFlight := fun _ => false
      slots := fun _ => none }
  task := fun i => { updater := updaters i, command := .idle }
  rest := fun _ => .done ()

/-- An updater of an accepted configuration, with the locks of its records. -/
def Prepared (updater : Updater) : Prop :=
  updater.config.validate = .ok () ∧ ∃ installed temporaryLockRoot,
    updater.runtimeLock = forConfig installed temporaryLockRoot updater.config

theorem Prepared.valid {updater : Updater} (h : Prepared updater) :
    ∀ record ∈ updater.config.records, ValidRecord record :=
  (Config.validate_ok h.1).1

/-- The locks of a prepared updater are those of its records. -/
theorem Prepared.locked {updater : Updater} (h : Prepared updater) (parent : String) :
    ∀ record ∈ updater.config.records, lockPath parent (resourceLockHash record) ∈
      lockSet parent updater.runtimeLock.resourceHashes := by
  obtain ⟨-, installed, temporaryLockRoot, hlock⟩ := h
  intro record member
  refine ⟨resourceLockHash record, ?_, rfl⟩
  rw [hlock]
  exact (mem_forConfig_iff installed temporaryLockRoot updater.config _).mpr
    ⟨record, member, rfl⟩

section

variable {X : Type} {parent : String} {origin : Store X} {updater : Updater}
  (hprepared : Prepared updater)

include hprepared

/-- A cycle under the locks of its records. -/
theorem runCycleLocked_settles {s : StoreView X}
    (hs : s.Settled (lockSet parent updater.runtimeLock.resourceHashes) origin false) :
    Holds (contract parent) (fun _ s' =>
      s'.Settled (lockSet parent updater.runtimeLock.resourceHashes) origin false)
      updater.runCycleLocked s :=
  updater.runCycleLocked_keeps (storeLookupRule updater hprepared.valid)
    (storeMutationRule updater (hprepared.locked parent)) hs

theorem checkUntil_settles {locks : Set String} (allowCreate allowEditProbe : Bool)
    (hlocks : allowCreate = true ∨ allowEditProbe = true →
      locks = lockSet parent updater.runtimeLock.resourceHashes) (deadline : Instant)
    {s : StoreView X} (hs : s.Settled locks origin false) :
    Holds (contract parent) (fun _ s' => s'.Settled locks origin false)
      (updater.checkUntil allowCreate allowEditProbe deadline) s := by
  apply updater.checkUntil_keeps (storeLookupRule updater hprepared.valid) _ deadline hs
  apply storeCheckRule
  intro hallowed
  rw [hlocks hallowed]
  exact hprepared.locked parent

omit hprepared in
/-- A task under the runtime lock: refused, or run and followed by the drop. -/
theorem underLock_settles {α β : Type} {run : M α} {refused : RuntimeLockError → β}
    {finish : α → β}
    (hrun : ∀ {s : StoreView X},
      s.Settled (lockSet parent updater.runtimeLock.resourceHashes) origin false →
      Holds (contract parent) (fun _ s' =>
        s'.Settled (lockSet parent updater.runtimeLock.resourceHashes) origin false) run s)
    {s : StoreView X} (hs : s.Settled ∅ origin false) :
    Holds (contract parent) (fun _ s' => s'.Settled ∅ origin false)
      (do
        match ← updater.runtimeLock.acquire with
        | .error error => return refused error
        | .ok lock => do
            let result ← run
            lock.drop
            return finish result) s := by
  apply holds_bind
  refine holds_mono (acquire_acquires updater.runtimeLock hs) ?_
  rintro acquired s' ⟨hs', hlocked⟩
  cases acquired with
  | error error => exact fun _ h => hs'.interferes h
  | ok lock =>
      apply holds_bind
      refine holds_mono (hrun (hlocked lock rfl)) ?_
      intro result s'' hs''
      apply holds_bind
      refine holds_mono (lockOps_settle (drop_uses lock) hs'') ?_
      intro _ t ht
      exact fun _ h => ht.interferes h

theorem runCycle_settles {s : StoreView X} (hs : s.Settled ∅ origin false) :
    Holds (contract parent) (fun _ s' => s'.Settled ∅ origin false) updater.runCycle s := by
  simp only [Updater.runCycle, act_eq, Program.ask_bind, Program.done_bind]
  have hrule : LookupRule updater (contract parent) (Settled ∅ origin false)
      (fun record zoneId => origin.Names record.zone zoneId) (Found parent ∅) :=
    storeLookupRule updater hprepared.valid
  refine updater.holds_quiet_ask hrule (by trivial) hs fun _ s' _ hs' => ?_
  exact underLock_settles (runCycleLocked_settles hprepared) hs'

theorem check_settles (allowCreate allowEditProbe : Bool) {s : StoreView X}
    (hs : s.Settled ∅ origin false) :
    Holds (contract parent) (fun _ s' => s'.Settled ∅ origin false)
      (updater.check allowCreate allowEditProbe) s := by
  have hrun : ∀ {locks : Set String} {s : StoreView X},
      (allowCreate = true ∨ allowEditProbe = true →
        locks = lockSet parent updater.runtimeLock.resourceHashes) →
      s.Settled locks origin false →
      Holds (contract parent) (fun _ s' => s'.Settled locks origin false)
        (do
          let now ← act .now
          updater.checkUntil allowCreate allowEditProbe (now + checkTimeout)) s := by
    intro locks s hlocks hs
    simp only [act_eq, Program.ask_bind, Program.done_bind]
    refine updater.holds_quiet_ask (storeLookupRule updater hprepared.valid) (by trivial) hs
      fun now s' _ hs' => ?_
    exact checkUntil_settles hprepared allowCreate allowEditProbe hlocks _ hs'
  unfold Updater.check
  split
  · exact underLock_settles (fun hs' => hrun (fun _ => rfl) hs') hs
  · rename_i hnone
    refine hrun (fun hallowed => absurd ?_ hnone) hs
    simpa using hallowed

theorem runDaemon_settles (iterations : Nat) {s : StoreView X} (hs : s.Settled ∅ origin false) :
    Holds (contract parent) (fun _ s' => s'.Settled ∅ origin false)
      (updater.runDaemon iterations) s :=
  underLock_settles (fun hs' => updater.runLoopFrom_keeps storeLoopRule
    (runCycleLocked_settles hprepared) iterations 0 0 hs') hs

end

/-- What every task leaves. -/
def cloudPost {X : Type} (origin : Store X) (task : CloudTask) (_ : Unit) (s : StoreView X) :
    Prop :=
  Prepared task.updater ∧ s.Settled ∅ origin false

theorem cloudTask_settles {X : Type} {parent : String} {origin : Store X} {task : CloudTask}
    (hprepared : Prepared task.updater) {s : StoreView X} (hs : s.Settled ∅ origin false) :
    Holds (contract parent) (cloudPost origin task) task.code s := by
  have hdone : ∀ {s : StoreView X}, s.Settled ∅ origin false →
      Holds (contract parent) (cloudPost origin task) (.done ()) s :=
    fun hs _ h => ⟨hprepared, hs.interferes h⟩
  obtain ⟨updater, command⟩ := task
  cases command with
  | idle => exact hdone hs
  | cycle => exact holds_bind (holds_mono (runCycle_settles hprepared hs) fun _ _ => hdone)
  | check allowCreate allowEditProbe =>
      exact holds_bind (holds_mono (check_settles hprepared allowCreate allowEditProbe hs)
        fun _ _ => hdone)
  | daemon iterations =>
      exact holds_bind (holds_mono (runDaemon_settles hprepared iterations hs) fun _ _ => hdone)

variable {ι X : Type} [DecidableEq ι]

theorem cloudRely (parent : String) (origin : Store X) :
    Rely cloudTasks (cloudWorld (ι := ι) parent) (contract parent) (cloudPost origin)
      (CloudAgrees parent origin) := by
  refine ⟨fun {w views i op answer w'} hagree hpermits hanswers => ?_,
    fun {task value task' s} hfollows hpost => ?_, fun hagree hmoves => agrees_moves hagree hmoves⟩
  · obtain ⟨hanswers, rfl⟩ := hanswers
    refine ⟨_, agrees_after hagree hpermits hanswers, ?_, fun j hj => ?_⟩
    · rw [Function.update_self]
      exact ⟨agrees_coherent hagree hpermits hanswers, rfl⟩
    · rw [Function.update_of_ne hj]
      exact Interferes.refl _
  · have hprepared : Prepared task'.updater := by
      rw [hfollows]
      exact hpost.1
    exact cloudTask_settles hprepared hpost.2

omit [DecidableEq ι] in
theorem startCloud_verified (parent : String) (store : Store X) (updaters : ι → Updater)
    (hprepared : ∀ i, Prepared (updaters i)) :
    Verified (contract parent) (cloudPost store) (CloudAgrees parent store)
      (startCloud store updaters) := by
  have hstart : (⟨store, ∅, fun _ => none, false, none⟩ : StoreView X).Settled ∅ store false := by
    have hidle : ¬ (⟨store, ∅, fun _ => none, false, none⟩ : StoreView X).Mutating := by
      rintro ⟨request, hpending, -⟩
      cases hpending
    exact ⟨⟨subset_rfl, rfl, fun _ _ h => (by cases h), fun h => absurd h hidle⟩, hidle, rfl⟩
  refine ⟨fun _ => ⟨store, ∅, fun _ => none, false, none⟩, ?_, fun i s' h =>
    ⟨hprepared i, hstart.interferes h⟩⟩
  refine ⟨fun _ => rfl, fun i path => ⟨fun h => h.elim, fun h => ?_⟩, fun _ => rfl,
    fun _ => rfl, fun _ _ h => ?_, fun _ _ h => ?_, rfl, fun _ _ _ => le_max_right _ _⟩
  all_goals cases h

omit [Externals] [DecidableEq ι] in
/-- A record is written only where a query for it selects at most one. -/
theorem single_of_permits {parent : String} {s : StoreView X} {request : Request}
    {zoneId : String} {payload : RecordPayload}
    (hpermits : s.permits parent (.act (.begin (.http request))))
    (hwrites : (∃ recordId, request = .updateRecord zoneId recordId payload) ∨
      request = .createRecord zoneId payload) :
    (s.store.listing zoneId payload.recordType payload.name).length ≤ 1 := by
  have hauthorized := hpermits.2.1
  rcases hwrites with ⟨recordId, rfl⟩ | rfl
  · cases hauthorized with
    | read hread => cases hread
    | update hguards hlisting htype hname =>
        rw [htype, hname, ← Store.listingOf, hlisting]
        exact le_refl 1
  · cases hauthorized with
    | read hread => cases hread
    | create hguards hlisting htype hname =>
        rw [htype, hname, ← Store.listingOf, hlisting]
        exact Nat.zero_le 1

/-- At most one creation. Processes with accepted configurations and one lock
directory run cycles, checks and daemons in any order and interleaving, and are the
only writers of a store. A request is handled by the server once or never, and its
outcome tells or not. Then of no key there come to be more records than one, or
than there were; and where there are two, no record payload is sent for the key. -/
theorem creation_at_most_one (parent : String) (store : Store X) (updaters : ι → Updater)
    (hprepared : ∀ i, Prepared (updaters i)) (st : CloudPool ι X)
    (hreach : PoolReaches cloudTasks (cloudWorld parent) (startCloud store updaters) st) :
    (∀ zoneId recordType name,
      (st.world.store.matching zoneId recordType name).length ≤
        max 1 (store.matching zoneId recordType name).length) ∧
    (∀ i request next zoneId payload, st.rest i = .ask (.act (.begin (.http request))) next →
      ((∃ recordId, request = .updateRecord zoneId recordId payload) ∨
        request = .createRecord zoneId payload) →
      ¬ 2 ≤ (st.world.store.matching zoneId payload.recordType payload.name).length) := by
  obtain ⟨views, hagree, hholds⟩ := verified_of_reaches (cloudRely parent store)
    (startCloud_verified parent store updaters hprepared) hreach
  refine ⟨fun zoneId recordType name => ?_, fun i request next zoneId payload hrest hwrites => ?_⟩
  · have hbounded := hagree.bounded zoneId recordType name
    rwa [Store.length_listing, Store.length_listing] at hbounded
  · have hsingle := single_of_permits (permits_of_ask hholds hrest) hwrites
    rw [hagree.store i, Store.length_listing] at hsingle
    omega

end

section

attribute [local instance] exampleExternals

theorem exampleUpdater_prepared : Prepared exampleUpdater := ⟨exampleConfig_valid, true, "", rfl⟩

/-- The zone of the example, without records. -/
def exampleStore : Store Unit where
  zones := [exampleZone]
  records := fun _ => []
  zones_distinct := zone_distinct exampleZone
  ids_distinct := fun _ => List.nodup_nil

/-- The record that a store keeps of a POST. -/
def keptRecord (payload : RecordPayload) : StoredRecord Unit := ⟨payload.record "372e", ()⟩

theorem fresh_of_all {store : Store Unit} {zoneId : String} {payload : RecordPayload}
    (h : ((store.recordsOf zoneId).all fun entry => entry.record.id != "372e") = true) :
    ∀ entry ∈ store.recordsOf zoneId, entry.record.id ≠ (keptRecord payload).record.id := by
  intro entry member
  exact bne_iff_ne.mp (List.all_eq_true.mp h entry member)

/-- What the server makes of the store, with one id for what it creates. -/
def Store.serve (store : Store Unit) : Request → Option (Store Unit)
  | .updateRecord zoneId recordId payload => some (store.patch zoneId recordId payload.edit)
  | .probeRecord zoneId recordId payload => some (store.patch zoneId recordId payload.edit)
  | .createRecord zoneId payload =>
      if h : ((store.recordsOf zoneId).all fun entry => entry.record.id != "372e") = true then
        some (store.add zoneId (keptRecord payload) (fresh_of_all h))
      else none
  | _ => some store

theorem Store.serve_handles {store store' : Store Unit} {request : Request}
    (h : store.serve request = some store') : Handles store request store' := by
  cases request with
  | updateRecord zoneId recordId payload =>
      cases h
      exact .update zoneId recordId payload
  | probeRecord zoneId recordId payload =>
      cases h
      exact .probe zoneId recordId payload
  | createRecord zoneId payload =>
      simp only [Store.serve] at h
      split at h
      · rename_i hall
        cases h
        exact .create zoneId payload () (fresh_of_all hall)
      · cases h
  | _ =>
      cases h
      exact .read rfl

/-- What a body may say of the store. -/
def Store.shown (store : Store Unit) (slot : Option Slot) :
    (request : Request) → ApiResponse request.kind.Value → Bool
  | .getZone _, response => store.zones.contains response.result
  | .listZones _ _ _, response => response.result.all fun zone => store.zones.contains zone
  | .listRecords zoneId recordType name number perPage, response =>
      match slot with
      | some ⟨request, some listing⟩ =>
          request == .listRecords zoneId recordType name number perPage &&
            response.result == Paging.page listing perPage number
      | _ => false
  | _, _ => true

theorem Store.delivers_of_shown {store : Store Unit} {slot : Option Slot} {request : Request}
    {response : ApiResponse request.kind.Value}
    (h : store.shown slot request response = true) : store.Delivers slot request response := by
  cases request with
  | getZone zoneId => exact List.contains_iff_mem.mp h
  | listZones zone number perPage =>
      intro shown member
      exact List.contains_iff_mem.mp (List.all_eq_true.mp h shown member)
  | listRecords zoneId recordType name number perPage =>
      obtain _ | ⟨request, _ | listing⟩ := slot
      · cases h
      · cases h
      · simp only [Store.shown, Bool.and_eq_true, beq_iff_eq] at h
        exact ⟨listing, by rw [h.1], h.2⟩
  | _ => trivial

/-- A response that the client reads, and that is true of the store. -/
def Store.tells (store : Store Unit) (slot : Option Slot) (request : Request)
    (outcome : HttpOutcome) : Bool :=
  match receive "" request outcome with
  | .error _ => false
  | .ok response => store.shown slot request response

/-- The first of some bodies that is true of the store; of a mutation nothing is heard. -/
def Store.returned (store : Store Unit) (slot : Option Slot) (request : Request) : HttpOutcome :=
  (([exampleZonesBody, exampleNoRecordsBody, exampleFoundBody].map (delivered 200)).find?
    (store.tells slot request)).getD (.failed "connection reset")

theorem Store.returned_delivers (store : Store Unit) (slot : Option Slot) (request : Request)
    {apiToken : String} {response : ApiResponse request.kind.Value}
    (h : receive apiToken request (store.returned slot request) = .ok response) :
    store.Delivers slot request response := by
  unfold Store.returned at h
  cases hfind : ([exampleZonesBody, exampleNoRecordsBody, exampleFoundBody].map
      (delivered 200)).find? (store.tells slot request) with
  | none =>
      rw [hfind] at h
      cases h
  | some outcome =>
      rw [hfind] at h
      have htells := List.find?_some hfind
      have hreceived : receive "" request outcome = .ok response := receive_ok_of_ok h
      simp only [Store.tells, hreceived] at htells
      exact delivers_of_shown htells

section

variable {ι : Type} [DecidableEq ι] (parent : String) (address : ι → String)

/-- The server handles the open request of a process, if there is one. -/
def Cloud.serve (w : Cloud ι Unit) (i : ι) : Cloud ι Unit :=
  match w.slots i with
  | some ⟨request, none⟩ =>
      match w.store.serve request with
      | some store =>
          { w with
            store := store
            slots := Function.update w.slots i (some ⟨request, some (w.store.selected request)⟩) }
      | none => w
  | _ => w

theorem Cloud.serve_moves (w : Cloud ι Unit) (i : ι) :
    Relation.ReflTransGen (cloudWorld parent).moves w (w.serve i) := by
  unfold Cloud.serve
  split
  · rename_i request hslot
    cases hserve : w.store.serve request with
    | none => exact .refl
    | some store => exact .single (.handle hslot (Store.serve_handles hserve))
  · exact .refl

/-- The answers to a process: the locks and the cache as they are, the responses of the
server, an address of its own, and all else as in the example of a creation. -/
def Cloud.answer (w : Cloud ι Unit) (i : ι) : (op : Op) → Ans op
  | .act (.cacheGet key) => w.caches i key
  | .act .mutationInFlight => w.inFlight i
  | .act (.prepareLockParent _ _) => .ok parent
  | .act (.tryLock path) => if w.locks path = none then .ok () else .error .contended
  | .finish (.http request) => w.store.returned (w.slots i) request
  | .finishBefore _ (.http request) => some (w.store.returned (w.slots i) request)
  | .finish (.query _ _) => some (delivered 200 (address i))
  | .finishBefore _ (.query _ _) => some (some (delivered 200 (address i)))
  | op => creationScenario.strategy [] op

def cloudResponder (i : ι) : Responder Ans (Cloud ι Unit) := fun w op =>
  let served := w.serve i
  let answer := served.answer parent address i op
  (answer, served.after i ⟨op, answer⟩)

omit [DecidableEq ι] in
/-- What the world of the example answers is one of the answers that it may give, for every
operation of every process. -/
theorem Cloud.answer_given (w : Cloud ι Unit) (i : ι) (op : Op) :
    w.answers parent i ⟨op, w.answer parent address i op⟩ := by
  cases op with
  | act action =>
      cases action with
      | tryLock path =>
          by_cases hfree : w.locks path = none
          · have hanswer : w.answer parent address i (.act (.tryLock path)) = .ok () := if_pos hfree
            rw [hanswer]
            exact hfree
          · have hanswer : w.answer parent address i (.act (.tryLock path)) = .error .contended :=
              if_neg hfree
            rw [hanswer]
            intro request outcome hreplied
            cases hreplied
      | cacheGet key => rfl
      | mutationInFlight => rfl
      | prepareLockParent root temporary => rfl
      | _ =>
          intro request outcome hreplied
          cases hreplied
  | finish wait =>
      intro request outcome hreplied apiToken response hreceived
      cases wait with
      | http asked =>
          cases hreplied
          exact w.store.returned_delivers _ _ hreceived
      | _ => cases hreplied
  | finishBefore deadline wait =>
      intro request outcome hreplied apiToken response hreceived
      cases wait with
      | http asked =>
          cases hreplied
          exact w.store.returned_delivers _ _ hreceived
      | _ => cases hreplied

theorem cloudResponder_plays (i : ι) :
    Plays (cloudWorld parent) i (cloudResponder parent address i) := fun w _ =>
  ⟨w.serve i, w.serve_moves parent i, (w.serve i).answer_given parent address i _, rfl⟩

end

/-- What the processes take for their address: it changes between them. -/
def seenAddress (i : Fin 2) : String := if i.val = 0 then "93.184.216.34" else "93.184.216.35"

def movedPayload : RecordPayload where
  recordType := "A"
  name := "home.example.com"
  content := "93.184.216.35"
  ttl := 120
  proxied := false

/-- Two processes start a cycle on an empty zone. The first takes the lock, at which the second
is refused; it creates the record and does not hear of it. In its next cycle the second finds
that record and is about to change it, and does not create another. -/
theorem creation_at_most_one_lost : ∃ st : CloudPool (Fin 2) Unit,
    st.world.store.matching "023e" "A" "home.example.com" = [⟨exampleStored, ()⟩] ∧
    (st.rest 1).front = some (.act (.begin (.http (.updateRecord "023e" "372e" movedPayload)))) ∧
    (∀ zoneId recordType name, (st.world.store.matching zoneId recordType name).length ≤
      max 1 (exampleStore.matching zoneId recordType name).length) ∧
    ¬ 2 ≤ (st.world.store.matching "023e" "A" "home.example.com").length := by
  let parent := "/var/lib/cirrusync/locks"
  let respond := cloudResponder parent seenAddress
  let cycle : CloudTask := ⟨exampleUpdater, .cycle⟩
  let start := startCloud exampleStore fun _ : Fin 2 => exampleUpdater
  let begun := (start.takeUp cloudTasks 0 cycle).takeUp cloudTasks 1 cycle
  let created := begun.interleave respond [(0, 5), (1, 8), (0, 21)]
  let st := (created.takeUp cloudTasks 1 cycle).interleave respond [(1, 19)]
  have hplays := cloudResponder_plays parent seenAddress
  have hbegun : PoolReaches cloudTasks (cloudWorld parent) start begun :=
    (poolReaches_takeUp rfl rfl).trans (poolReaches_takeUp rfl rfl)
  have hcreated : PoolReaches cloudTasks (cloudWorld parent) start created :=
    hbegun.trans (poolReaches_interleave hplays _ _)
  have hrefused : (created.rest 1).value = some () := by
    decide +kernel
  have hreach : PoolReaches cloudTasks (cloudWorld parent) start st :=
    (hcreated.trans (poolReaches_takeUp hrefused rfl)).trans (poolReaches_interleave hplays _ _)
  have hstore : st.world.store.matching "023e" "A" "home.example.com" = [⟨exampleStored, ()⟩] := by
    decide +kernel
  have hfront : (st.rest 1).front =
      some (.act (.begin (.http (.updateRecord "023e" "372e" movedPayload)))) := by
    decide +kernel
  obtain ⟨hbounded, hsingle⟩ := creation_at_most_one parent exampleStore (fun _ => exampleUpdater)
    (fun _ => exampleUpdater_prepared) st hreach
  obtain ⟨next, hrest⟩ := Program.front_eq_some hfront
  have hone := hsingle 1 _ next "023e" movedPayload hrest (.inl ⟨"372e", rfl⟩)
  exact ⟨st, hstore, hfront, hbounded, hone⟩

end

end Cirrusync
