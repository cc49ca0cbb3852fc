import Cirrusync.CycleConvergence
import Cirrusync.Scenario

/-!
Whole calls of `run_cycle`, with the runtime lock around the cycle. A call on a
faithful API converges, the store that it reaches does not depend on the cursor, and
the next call finds nothing to do.
-/

namespace Cirrusync

open Effect Text Sequence Service

section

variable [Externals] {X : Type}

/-- A call of `run_cycle` that gets its lock, in its parts. -/
structure Updater.LockedCycle (updater : Updater) where
  acquisition : List Step
  guard : RuntimeLockGuard
  started : Instant
  cycle : updater.CycleRun
  release : List Step
  acquires : Runs updater.runtimeLock.acquire acquisition (.ok guard)
  deadline_eq : cycle.deadline = started + seconds updater.config.intervalSeconds
  releases : Runs guard.drop release ()

namespace Updater

variable {self : Updater}

def LockedCycle.setup (call : self.LockedCycle) : List Step :=
  ⟨.act .newControl, ()⟩ :: (call.acquisition ++ [⟨.act .now, call.started⟩])

def LockedCycle.trace (call : self.LockedCycle) : List Step :=
  call.setup ++ (call.cycle.trace ++ call.release)

theorem LockedCycle.runs (call : self.LockedCycle) :
    Runs self.runCycle call.trace call.cycle.report := by
  have hcycle : Runs self.runCycleLocked (⟨.act .now, call.started⟩ :: call.cycle.trace)
      call.cycle.report := by
    have huntil := call.cycle.runs
    rw [call.deadline_eq] at huntil
    exact (runs_ask_iff _ _ _ _).mpr ⟨call.started, _, rfl, huntil⟩
  simp only [runCycle, act_eq, Program.ask_bind, Program.done_bind]
  refine (runs_ask_iff _ _ _ _).mpr ⟨(), _, rfl, ?_⟩
  refine (runs_bind_iff _ _ _ _).mpr ⟨call.acquisition, _, .ok call.guard, ?_, call.acquires,
    (runs_bind_iff _ _ _ _).mpr ⟨_, _, call.cycle.report, rfl, hcycle,
      (runs_bind_iff _ _ _ _).mpr ⟨call.release, [], (), rfl, call.releases, .done _⟩⟩⟩
  simp

/-- A call of `run_cycle` gets its lock, or fails for want of it. -/
theorem runCycle_locked {trace : List Step} {report : CycleReport}
    (hrun : Runs self.runCycle trace report) :
    (∃ call : self.LockedCycle, call.trace = trace ∧ call.cycle.report = report) ∨
      ∃ error, report = CycleReport.push { records := self.config.records.length }
        (coordinationFailure error) := by
  simp only [runCycle, act_eq, Program.ask_bind, Program.done_bind] at hrun
  obtain ⟨⟨⟩, _, rfl, hrest⟩ := (runs_ask_iff _ _ _ _).mp hrun
  obtain ⟨acquisition, _, acquired, rfl, hacquire, hgoes⟩ := (runs_bind_iff _ _ _ _).mp hrest
  cases acquired with
  | error error =>
      cases hgoes
      exact .inr ⟨error, rfl⟩
  | ok guard =>
      obtain ⟨_, _, report', rfl, hcycle, hclose⟩ := (runs_bind_iff _ _ _ _).mp hgoes
      obtain ⟨started, cycle, rfl, huntil⟩ := (runs_ask_iff _ _ _ _).mp hcycle
      obtain ⟨release, _, ⟨⟩, rfl, hdrop, hend⟩ := (runs_bind_iff _ _ _ _).mp hclose
      obtain ⟨rfl, rfl⟩ := (runs_done_iff _ _ _).mp hend
      refine .inl ⟨{
        acquisition := acquisition
        guard := guard
        started := started
        cycle := ⟨_, cycle, _, huntil⟩
        release := release
        acquires := hacquire
        deadline_eq := rfl
        releases := hdrop
      }, ?_, rfl⟩
      simp [LockedCycle.trace, LockedCycle.setup]

end Updater

/-- A call on a faithful API, whose discovery finds the addresses. -/
structure Updater.FaithfulCall (updater : Updater) (server : ApiServer X)
    (addresses : DiscoveredAddresses) (s : Service X) extends updater.LockedCycle where
  served : s.Serves server updater.cloudflare.apiToken cycle.deadline toLockedCycle.trace
  found : cycle.Discovers addresses

namespace Updater

variable {self : Updater} {server : ApiServer X} {addresses : DiscoveredAddresses}
  {s : Service X}

/-- The service after a call. -/
def FaithfulCall.after (call : self.FaithfulCall server addresses s) : Service X :=
  s.after server self.cloudflare.apiToken call.trace

theorem locking_unchanged {deadline : Instant} {α : Type} {p : M α} (huses : Uses LockOp p)
    {trace : List Step} {value : α} (hrun : Runs p trace value)
    (hserves : s.Serves server self.cloudflare.apiToken deadline trace) :
    s.after server self.cloudflare.apiToken trace = s := by
  have hquiet : Holds (contract server self.cloudflare.apiToken deadline False)
      (fun _ s' => s' = s) p s := by
    refine holds_unchanged huses fun op hop => ⟨?_, fun answer => ⟨?_, fun cache => ?_⟩⟩
    · rintro request rfl
      exact hop.elim
    · unfold LockOp at hop
      split at hop <;> first | rfl | exact hop.elim
    · unfold LockOp at hop
      split at hop <;> first | rfl | exact hop.elim
  exact track_run hquiet hrun hserves

/-- The lock around a cycle is of no concern to the API. -/
theorem FaithfulCall.around (call : self.FaithfulCall server addresses s) :
    s.Serves server self.cloudflare.apiToken call.cycle.deadline call.cycle.trace ∧
      call.after = s.after server self.cloudflare.apiToken call.cycle.trace ∧
      mutationsOf call.trace = mutationsOf call.cycle.trace := by
  obtain ⟨hsetup, hrest⟩ := coherentFrom_append.mp call.served
  obtain ⟨-, hacquisition⟩ := hsetup
  obtain ⟨hacquisition, -⟩ := coherentFrom_append.mp hacquisition
  have hcontrol : s.next server self.cloudflare.apiToken ⟨.act .newControl, ()⟩ = s :=
    next_steady rfl rfl
  rw [hcontrol] at hacquisition
  have hacquired := locking_unchanged (acquire_uses self.runtimeLock) call.acquires hacquisition
  have hready : call.setup.foldl (next server self.cloudflare.apiToken) s = s := by
    unfold Service.after at hacquired
    unfold LockedCycle.setup
    rw [List.foldl_cons, hcontrol, List.foldl_append, hacquired]
    change s.next server self.cloudflare.apiToken ⟨.act .now, call.started⟩ = s
    exact next_steady rfl rfl
  rw [hready] at hrest
  obtain ⟨hcycle, hrelease⟩ := coherentFrom_append.mp hrest
  refine ⟨hcycle, ?_, ?_⟩
  · have hreleased := locking_unchanged (drop_uses call.guard) call.releases hrelease
    unfold FaithfulCall.after Service.after LockedCycle.trace
    rw [List.foldl_append, hready, List.foldl_append]
    exact hreleased
  · have hquiet : ∀ {α : Type} {p : M α} {trace : List Step} {value : α}, Uses LockOp p →
        Runs p trace value → mutationsOf trace = [] := fun huses hrun =>
      mutationsOf_quiet fun step member => sent_of_lock (uses_runs huses hrun step member)
    have hbegin : mutationsOf call.setup = [] := by
      unfold LockedCycle.setup
      rw [mutationsOf_cons, mutationsOf_append,
        hquiet (acquire_uses self.runtimeLock) call.acquires]
      rfl
    unfold LockedCycle.trace
    rw [mutationsOf_append, mutationsOf_append, hbegin,
      hquiet (drop_uses call.guard) call.releases, List.nil_append, List.append_nil]

end Updater

/-- Synchronization converges and is idempotent. Every run of `run_cycle` fails for want of
its lock or is a locked cycle. On a faithful API whose zones are all active, with one of them
for each configured record and at most one stored record for it, a call of `run_cycle` that
finds every address leaves the store reconciled with the configuration: a record that was up
to date is as it was, another has the fields of its PATCH, a missing one is made if that is
allowed, and all others are untouched. The report says just that, and the call succeeds if no
record is missing that may not be made. Another call on the same store, with any cursor, makes
the same store but for what the API chooses for new records; and a call on the store that was
reached mutates nothing. -/
theorem calls_converge (self : Updater) (hvalid : self.config.validate = .ok ())
    {server : ApiServer X} {addresses : DiscoveredAddresses} {s : Service X} (hs : s.Sound)
    (hresolvable : Resolvable self.config.records s.store)
    (haddressed : Addressed self.config.records addresses)
    (call : self.FaithfulCall server addresses s) :
    (Runs self.runCycle call.trace call.cycle.report ∧
      ∀ trace report, Runs self.runCycle trace report →
        (∃ locked : self.LockedCycle, locked.trace = trace ∧ locked.cycle.report = report) ∨
          ∃ error, report = CycleReport.push { records := self.config.records.length }
            (coordinationFailure error)) ∧
      (CycleReported addresses s.store self.config.records call.cycle.report ∧
        (call.cycle.report.isSuccess = true ↔
          ∀ record ∈ self.config.records, s.store.manages record = true)) ∧
      Converged (StoredRecord.settle addresses) (StoredRecord.MadeFor addresses)
        (self.config.records.filter s.store.manages) s.store call.after.store ∧
      (∀ record ∈ self.config.records, s.store.manages record = true →
        Synchronized addresses call.after.store record) ∧
      call.after.Sound ∧
      (∀ (server' : ApiServer X) (s' : Service X) (other : self.FaithfulCall server' addresses s'),
        s'.store = s.store → s'.Sound → ∀ zoneId,
          SameUpToMade (StoredRecord.MadeFor addresses) (call.after.store.recordsOf zoneId)
            (other.after.store.recordsOf zoneId)) ∧
      ∀ (server' : ApiServer X) (s' : Service X) (again : self.FaithfulCall server' addresses s'),
        s'.store = call.after.store → s'.Sound →
          again.cycle.report.unchanged = self.config.records.countP s.store.manages ∧
          again.cycle.report.updated = 0 ∧ again.cycle.report.created = 0 ∧
          again.cycle.report.isSuccess = call.cycle.report.isSuccess ∧
          mutationsOf again.trace = [] ∧
          ∀ zoneId, again.after.store.recordsOf zoneId = call.after.store.recordsOf zoneId := by
  have hdistinct := distinctRecords_of_validate hvalid
  obtain ⟨-, -, hnonempty⟩ := Config.validate_ok hvalid
  have hreaches : ∀ {server : ApiServer X} {s : Service X}
      (call : self.FaithfulCall server addresses s), s.Sound →
      Resolvable self.config.records s.store →
      CycleReported addresses s.store self.config.records call.cycle.report ∧
        Converged (StoredRecord.settle addresses) (StoredRecord.MadeFor addresses)
          (self.config.records.filter s.store.manages) s.store call.after.store ∧
        call.after.Sound := by
    intro server s call hs hresolvable
    obtain ⟨hserves, hafter, -⟩ := call.around
    rw [hafter]
    exact Updater.CycleRun.converges self hdistinct hnonempty hs hresolvable haddressed
      call.found hserves
  obtain ⟨hreport, hconverged, hsound⟩ := hreaches call hs hresolvable
  have hresolvable' := hconverged.resolvable hdistinct (settle_lawful addresses) hresolvable
    List.filter_sublist
  have hsynchronized : ∀ record ∈ self.config.records, s.store.manages record = true →
      Synchronized addresses call.after.store record :=
    fun record member => hconverged.synchronized hdistinct haddressed hresolvable member
  have hmanages : ∀ record ∈ self.config.records,
      call.after.store.manages record = s.store.manages record :=
    fun record member => hconverged.manages_eq hdistinct hresolvable member
  have houtcome : ∀ record ∈ self.config.records,
      call.after.store.outcome addresses record =
        if s.store.manages record then some .unchanged else none :=
    fun record member => hconverged.outcome_eq hdistinct haddressed hresolvable member
  refine ⟨⟨call.runs, fun _ _ => Updater.runCycle_locked⟩, ⟨hreport, hreport.isSuccess_iff⟩,
    hconverged, hsynchronized, hsound, ?_, ?_⟩
  · intro server' s' other hsame hs' zoneId
    obtain ⟨-, hother, -⟩ := hreaches other hs' (by rw [hsame]; exact hresolvable)
    rw [hsame] at hother
    exact (hconverged.reconciled zoneId).agree (hother.reconciled zoneId)
  · intro server' s' again hsame hs'
    rw [← hsame] at hsynchronized hmanages houtcome hresolvable'
    obtain ⟨hagain, hkept, -⟩ := hreaches again hs' hresolvable'
    obtain ⟨hserves, -, hmutations⟩ := again.around
    have hcounter : ∀ outcome, again.cycle.report.counter outcome =
        if outcome = .unchanged then self.config.records.countP s.store.manages else 0 := by
      intro outcome
      rw [hagain.counter_eq outcome]
      by_cases hunchanged : outcome = .unchanged
      · rw [if_pos hunchanged, hunchanged]
        refine List.countP_congr fun record member => ?_
        rw [houtcome record member]
        cases s.store.manages record <;> simp
      · rw [if_neg hunchanged, List.countP_eq_zero]
        intro record member
        rw [houtcome record member]
        cases s.store.manages record <;> simp [Ne.symm hunchanged]
    have hpermitted : Permitted False addresses s'.store self.config.records := by
      refine .inr fun record member outcome hfound => ?_
      rw [houtcome record member] at hfound
      split at hfound
      · exact (Option.some.inj hfound).symm
      · cases hfound
    refine ⟨hcounter .unchanged, hcounter .updated, hcounter .created, ?_, ?_, fun zoneId => ?_⟩
    · rw [Bool.eq_iff_iff, hagain.isSuccess_iff, hreport.isSuccess_iff]
      exact forall₂_congr fun record member => by rw [hmanages record member]
    · exact hmutations.trans (Updater.CycleRun.idle self hdistinct hnonempty hs' hresolvable'
        haddressed again.found hserves hpermitted)
    · rw [← hsame]
      refine hkept.unchanged (fun record hmember => ?_) zoneId
      obtain ⟨member, hmanaged⟩ := List.mem_filter.mp hmember
      exact hsynchronized record member (by rw [← hmanages record member]; exact hmanaged)

end

/-- A zone without records, and an empty cache. -/
def exampleService : Service Unit where
  store :=
    { zones := [exampleZone]
      records := fun _ => []
      zones_distinct := zone_distinct exampleZone
      ids_distinct := fun _ => List.nodup_nil }
  cache := fun _ => none

theorem exampleService_sound : exampleService.Sound := by
  rintro key zoneId ⟨⟩

theorem exampleService_resolvable : Resolvable exampleConfig.records exampleService.store := by
  refine ⟨?_, ?_, ?_⟩
  · intro zone member
    cases List.mem_singleton.mp member
    decide
  all_goals simp only [exampleConfig, List.forall_mem_singleton]
  · exact ⟨exampleZone, by decide⟩
  · exact fun zoneId _ => Nat.zero_le _

section

attribute [local instance] exampleExternals

theorem exampleService_manages :
    ∀ record ∈ exampleConfig.records, exampleService.store.manages record = true := by
  simp only [exampleConfig, List.forall_mem_singleton]
  rfl

theorem exampleConfig_addressed :
    Addressed exampleConfig.records ⟨some (.ok exampleAddress), none⟩ := by
  simp only [Addressed, exampleConfig, List.forall_mem_singleton]
  exact ⟨exampleAddress, rfl, by decide⟩

def exampleLockPaths : List String :=
  exampleUpdater.runtimeLock.lockPathsIn "/var/lib/cirrusync/locks"

def exampleCall : exampleUpdater.LockedCycle where
  acquisition := cachingScenario.trace exampleUpdater.runtimeLock.acquire
  guard := ⟨exampleLockPaths⟩
  started := 0
  cycle := exampleUpdater.executedCycle cachingScenario.strategy [] (0 + seconds 300)
  release := cachingScenario.trace (RuntimeLockGuard.drop ⟨exampleLockPaths⟩)
  acquires := cachingScenario.runs exampleUpdater.runtimeLock.acquire
  deadline_eq := rfl
  releases := cachingScenario.runs _

def exampleFaithfulCall :
    exampleUpdater.FaithfulCall ⟨false, fun _ => ()⟩ ⟨some (.ok exampleAddress), none⟩
      exampleService where
  toLockedCycle := exampleCall
  served := by decide +kernel
  found := Updater.executedCycle_discovers (by decide +kernel)

/-- The first call makes the record; a second one would leave it as it is. -/
theorem calls_converge_creation :
    exampleFaithfulCall.cycle.report.isSuccess = true ∧
      (∀ record ∈ exampleConfig.records, Synchronized ⟨some (.ok exampleAddress), none⟩
        exampleFaithfulCall.after.store record) ∧
      ∀ (server : ApiServer Unit) (s : Service Unit)
        (again : exampleUpdater.FaithfulCall server ⟨some (.ok exampleAddress), none⟩ s),
        s.store = exampleFaithfulCall.after.store → s.Sound →
          again.cycle.report.unchanged = 1 ∧ mutationsOf again.trace = [] := by
  obtain ⟨-, ⟨-, hsuccess⟩, -, hrecords, -, -, hagain⟩ := calls_converge exampleUpdater
    exampleConfig_valid exampleService_sound exampleService_resolvable exampleConfig_addressed
    exampleFaithfulCall
  refine ⟨hsuccess.mpr exampleService_manages, fun record member => hrecords record member
    (exampleService_manages record member), fun server s again hsame hs => ?_⟩
  obtain ⟨hunchanged, -, -, -, hidle, -⟩ := hagain server s again hsame hs
  exact ⟨hunchanged, hidle⟩

end

end Cirrusync
