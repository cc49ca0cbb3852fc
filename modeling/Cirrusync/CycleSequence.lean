import Cirrusync.Idempotence

/-!
Cycles after one another on a faithful API, while the addresses change. The cycles may
be those of one process or of several, each with a sound cache of its own. The store
follows the addresses: what was missing is made once, in the first cycle, and from then
on records are only settled.
-/

namespace Cirrusync

open Effect Text Sequence Service

section

variable [Externals] {X : Type}

/-- A stored record that is settled for one discovery after another. -/
def StoredRecord.settleAll (found : List DiscoveredAddresses) (record : RecordConfig)
    (entry : StoredRecord X) : StoredRecord X :=
  found.foldl (fun entry addresses => entry.settle addresses record) entry

/-- A record that is made for the first discovery and settled for the others. -/
def StoredRecord.MadeFirst : List DiscoveredAddresses → RecordConfig → StoredRecord X → Prop
  | [], _, _ => False
  | first :: rest, record, entry =>
      MadeThen (StoredRecord.MadeFor first) (StoredRecord.settleAll rest) record entry

theorem settleAll_concat (found : List DiscoveredAddresses) (addresses : DiscoveredAddresses) :
    StoredRecord.settleAll (found ++ [addresses]) = fun record (entry : StoredRecord X) =>
      (entry.settleAll found record).settle addresses record := by
  funext record entry
  unfold StoredRecord.settleAll
  rw [List.foldl_append, List.foldl_cons, List.foldl_nil]

theorem madeFirst_concat {found : List DiscoveredAddresses} (hfound : found ≠ [])
    (addresses : DiscoveredAddresses) :
    StoredRecord.MadeFirst (found ++ [addresses]) =
      MadeThen (StoredRecord.MadeFirst found) (StoredRecord.settle addresses (X := X)) := by
  obtain ⟨first, rest, rfl⟩ := List.exists_cons_of_ne_nil hfound
  funext record entry
  change MadeThen (StoredRecord.MadeFor first) (StoredRecord.settleAll (rest ++ [addresses]))
    record entry = MadeThen (MadeThen (StoredRecord.MadeFor first) (StoredRecord.settleAll rest))
      (StoredRecord.settle addresses) record entry
  rw [settleAll_concat, eq_iff_iff]
  constructor
  · rintro ⟨made, hmade, rfl⟩
    exact ⟨_, ⟨made, hmade, rfl⟩, rfl⟩
  · rintro ⟨_, ⟨made, hmade, rfl⟩, rfl⟩
    exact ⟨made, hmade, rfl⟩

/-- One cycle after another on the same store. Each finds its addresses, and starts with
any cache that is sound. -/
inductive Updater.FaithfulCycles (self : Updater) (s : Service X) :
    List (DiscoveredAddresses × self.CycleRun) → Service X → Prop where
  | start : FaithfulCycles self s [] s
  | cycle {cycles : List (DiscoveredAddresses × self.CycleRun)} {server : ApiServer X}
      {t t' : Service X} {addresses : DiscoveredAddresses} {run : self.CycleRun} :
      FaithfulCycles self s cycles t → t'.store = t.store → t'.Sound →
      Addressed self.config.records addresses → run.Discovers addresses →
      t'.Serves server self.cloudflare.apiToken run.deadline run.trace →
      FaithfulCycles self s (cycles ++ [(addresses, run)])
        (t'.after server self.cloudflare.apiToken run.trace)

/-- The service as a process finds it that has cached nothing. -/
def Service.uncached (s : Service X) : Service X := { s with cache := fun _ => none }

omit [Externals] in
theorem Service.uncached_sound (s : Service X) : s.uncached.Sound := by
  rintro key zoneId ⟨⟩

namespace Updater

variable {self : Updater} {s t : Service X}
  {cycles : List (DiscoveredAddresses × self.CycleRun)}

/-- One more cycle, in a process that has cached nothing. -/
theorem FaithfulCycles.uncached (h : self.FaithfulCycles s cycles t) {server : ApiServer X}
    {addresses : DiscoveredAddresses} {run : self.CycleRun}
    (haddressed : Addressed self.config.records addresses) (hfound : run.Discovers addresses)
    (hserves : t.uncached.Serves server self.cloudflare.apiToken run.deadline run.trace) :
    self.FaithfulCycles s (cycles ++ [(addresses, run)])
      (t.uncached.after server self.cloudflare.apiToken run.trace) :=
  .cycle h rfl t.uncached_sound haddressed hfound hserves

theorem FaithfulCycles.before {last : DiscoveredAddresses × self.CycleRun}
    (h : self.FaithfulCycles s (cycles ++ [last]) t) :
    ∃ (server : ApiServer X) (before before' : Service X), self.FaithfulCycles s cycles before ∧
      before'.store = before.store ∧ before'.Sound ∧
      Addressed self.config.records last.1 ∧ last.2.Discovers last.1 ∧
      before'.Serves server self.cloudflare.apiToken last.2.deadline last.2.trace ∧
      t = before'.after server self.cloudflare.apiToken last.2.trace := by
  generalize hall : cycles ++ [last] = all at h
  cases h with
  | start => simp at hall
  | @cycle cycles' server before before' addresses run hbefore hsame hsound haddressed hfound
      hserves =>
      obtain ⟨rfl, hlast⟩ := List.append_inj' hall rfl
      obtain rfl := List.cons.inj hlast |>.1
      exact ⟨server, before, before', hbefore, hsame, hsound, haddressed, hfound, hserves, rfl⟩

/-- The cycles up to any one of them. -/
theorem FaithfulCycles.up_to {later : List (DiscoveredAddresses × self.CycleRun)}
    (h : self.FaithfulCycles s (cycles ++ later) t) : ∃ t', self.FaithfulCycles s cycles t' := by
  induction later using List.reverseRecOn generalizing t with
  | nil => exact ⟨t, by simpa using h⟩
  | append_singleton later last ih =>
      rw [← List.append_assoc] at h
      obtain ⟨_, before, _, hbefore, -⟩ := h.before
      exact ih hbefore

variable (hdistinct : DistinctRecords self.config.records)
  (hnonempty : self.config.records ≠ []) (hresolvable : Resolvable self.config.records s.store)

include hdistinct hnonempty hresolvable

/-- Where the cycles have got to. -/
theorem FaithfulCycles.reaches (h : self.FaithfulCycles s cycles t) :
    (cycles = [] ∧ t.store = s.store) ∨
      cycles ≠ [] ∧ Lawful StoredRecord.isOf (StoredRecord.settleAll (cycles.map Prod.fst))
          (StoredRecord.MadeFirst (cycles.map Prod.fst)) (E := StoredRecord X) ∧
        Converged (StoredRecord.settleAll (cycles.map Prod.fst))
          (StoredRecord.MadeFirst (cycles.map Prod.fst))
          (self.config.records.filter s.store.manages) s.store t.store := by
  induction h with
  | start => exact .inl ⟨rfl, rfl⟩
  | @cycle cycles server t t' addresses run h hsame hsound haddressed hfound hserves ih =>
      refine .inr ⟨by simp, ?_⟩
      rw [List.map_append, List.map_singleton]
      rcases ih with ⟨rfl, hstore⟩ | ⟨hcycles, hlawful, hconverged⟩
      · rw [← hsame.trans hstore] at hresolvable ⊢
        obtain ⟨-, hstep, -⟩ := CycleRun.converges self hdistinct hnonempty hsound hresolvable
          haddressed hfound hserves
        have hmade : StoredRecord.MadeFirst [addresses] =
            StoredRecord.MadeFor addresses (X := X) := by
          funext record entry
          unfold StoredRecord.MadeFirst StoredRecord.settleAll
          rw [eq_iff_iff]
          constructor
          · rintro ⟨made, hmade, rfl⟩
            exact hmade
          · exact fun hmade => ⟨entry, hmade, rfl⟩
        rw [List.map_nil, List.nil_append, hmade]
        exact ⟨settle_lawful addresses, hstep⟩
      · have hfound' : cycles.map Prod.fst ≠ [] := by simpa using hcycles
        have hnext := hconverged.resolvable hdistinct hlawful hresolvable List.filter_sublist
        rw [← hsame] at hnext hconverged
        obtain ⟨-, hstep, -⟩ := CycleRun.converges self hdistinct hnonempty hsound hnext
          haddressed hfound hserves
        have hmanages : self.config.records.filter t'.store.manages =
            self.config.records.filter s.store.manages :=
          List.filter_congr fun record member =>
            hconverged.keeps_managed hdistinct hlawful hresolvable member
        rw [hmanages] at hstep
        rw [settleAll_concat, madeFirst_concat hfound']
        exact ⟨hlawful.trans (settle_lawful addresses),
          hconverged.trans (hdistinct.sublist List.filter_sublist) hlawful hstep⟩

/-- What the last cycle starts with. -/
theorem FaithfulCycles.ready (h : self.FaithfulCycles s cycles t) :
    Resolvable self.config.records t.store ∧
      ∀ record ∈ self.config.records, t.store.manages record = s.store.manages record := by
  rcases h.reaches hdistinct hnonempty hresolvable with ⟨-, hstore⟩ | ⟨-, hlawful, hconverged⟩
  · rw [hstore]
    exact ⟨hresolvable, fun _ _ => rfl⟩
  · exact ⟨hconverged.resolvable hdistinct hlawful hresolvable List.filter_sublist,
      fun record member => hconverged.keeps_managed hdistinct hlawful hresolvable member⟩

/-- Once there has been a cycle, nothing is missing that may be made. -/
theorem FaithfulCycles.nothing_missing (h : self.FaithfulCycles s cycles t) (hcycles : cycles ≠ [])
    {addresses : DiscoveredAddresses} {record : RecordConfig}
    (member : record ∈ self.config.records) :
    t.store.outcome addresses record ≠ some .created := by
  rcases h.reaches hdistinct hnonempty hresolvable with ⟨hnil, -⟩ | ⟨-, hlawful, hconverged⟩
  · exact absurd hnil hcycles
  · unfold Store.outcome
    by_cases hmanaged : s.store.manages record = true
    · obtain ⟨entry, hentry, -⟩ := hconverged.stored_chosen hdistinct hlawful hresolvable
        List.filter_sublist member (List.mem_filter.mpr ⟨member, hmanaged⟩)
      rw [hentry]
      cases addresses.forRecord record with
      | error message => simp
      | ok address =>
          by_cases hcurrent : isUpToDate record address entry.record = true <;> simp [hcurrent]
    · have hcreate : record.createIfMissing = false := by
        unfold Store.manages at hmanaged
        simp only [Bool.or_eq_true, not_or, Bool.not_eq_true] at hmanaged
        exact hmanaged.2
      rw [hcreate]
      cases addresses.forRecord record with
      | error message => simp
      | ok address =>
          cases t.store.stored record with
          | none => simp
          | some entry =>
              by_cases hcurrent : isUpToDate record address entry.record = true <;>
                simp [hcurrent]

/-- What the last cycle has reported and left behind. -/
theorem FaithfulCycles.last {last : DiscoveredAddresses × self.CycleRun}
    (h : self.FaithfulCycles s (cycles ++ [last]) t) :
    (last.2.report.isSuccess = true ↔
        ∀ record ∈ self.config.records, s.store.manages record = true) ∧
      (cycles = [] → CycleReported last.1 s.store self.config.records last.2.report) ∧
      (cycles ≠ [] → last.2.report.created = 0) ∧
      ∀ record ∈ self.config.records, s.store.manages record = true →
        Synchronized last.1 t.store record := by
  obtain ⟨addresses, run⟩ := last
  obtain ⟨server, before, before', hbefore, hsame, hsound, haddressed, hfound, hserves, rfl⟩ :=
    h.before
  obtain ⟨hresolvable', hmanages⟩ := hbefore.ready hdistinct hnonempty hresolvable
  rw [← hsame] at hresolvable' hmanages
  obtain ⟨hreport, hstep, -⟩ := CycleRun.converges self hdistinct hnonempty hsound hresolvable'
    haddressed hfound hserves
  refine ⟨?_, ?_, ?_, ?_⟩
  · rw [hreport.isSuccess_iff]
    exact forall₂_congr fun record member => by rw [hmanages record member]
  · rintro rfl
    rcases hbefore.reaches hdistinct hnonempty hresolvable with ⟨-, hstore⟩ | ⟨hcycles, -⟩
    · rw [← hstore, ← hsame]
      exact hreport
    · exact absurd rfl hcycles
  · intro hcycles
    refine (hreport.counter_eq .created).trans (List.countP_eq_zero.mpr fun record member => ?_)
    rw [hsame, beq_iff_eq]
    exact hbefore.nothing_missing hdistinct hnonempty hresolvable hcycles member
  · intro record member hmanaged
    exact hstep.synchronized hdistinct haddressed hresolvable' member
      ((hmanages record member).trans hmanaged)

/-- A cycle that finds the addresses of the one before it does nothing. -/
theorem FaithfulCycles.repeated {previous last : DiscoveredAddresses × self.CycleRun}
    (h : self.FaithfulCycles s (cycles ++ [previous] ++ [last]) t)
    (hsame : previous.1 = last.1) :
    last.2.report.updated = 0 ∧ mutationsOf last.2.trace = [] := by
  obtain ⟨addresses, run⟩ := last
  obtain ⟨server, before, before', hbefore, hstore, hsound, haddressed, hfound, hserves, rfl⟩ :=
    h.before
  obtain ⟨-, -, -, hsynchronized⟩ := hbefore.last hdistinct hnonempty hresolvable
  obtain ⟨hresolvable', hmanages⟩ := hbefore.ready hdistinct hnonempty hresolvable
  rw [hsame] at hsynchronized
  rw [← hstore] at hsynchronized hresolvable' hmanages
  have houtcome : ∀ record ∈ self.config.records, ∀ outcome,
      before'.store.outcome addresses record = some outcome → outcome = .unchanged := by
    intro record member outcome hfound
    cases hmanaged : s.store.manages record with
    | true =>
        rw [(hsynchronized record member hmanaged).outcome_eq hresolvable' member] at hfound
        exact (Option.some.inj hfound).symm
    | false =>
        rw [Store.outcome_unmanaged haddressed member
          ((hmanages record member).trans hmanaged)] at hfound
        cases hfound
  obtain ⟨hreport, -, -⟩ := CycleRun.converges self hdistinct hnonempty hsound hresolvable'
    haddressed hfound hserves
  refine ⟨?_, CycleRun.idle self hdistinct hnonempty hsound hresolvable' haddressed hfound
    hserves (.inr houtcome)⟩
  refine (hreport.counter_eq .updated).trans (List.countP_eq_zero.mpr fun record member => ?_)
  rw [beq_iff_eq]
  intro hupdated
  cases houtcome record member _ hupdated

end Updater

/-- What nobody but the API has a say in. -/
def StoredRecord.identity (entry : StoredRecord X) : String × X :=
  (entry.record.id, entry.unmanaged)

theorem settleAll_identity (found : List DiscoveredAddresses) (record : RecordConfig)
    (entry : StoredRecord X) : (entry.settleAll found record).identity = entry.identity := by
  unfold StoredRecord.settleAll
  induction found generalizing entry with
  | nil => rfl
  | cons addresses rest ih =>
      rw [List.foldl_cons, ih]
      unfold StoredRecord.settle
      cases addresses.forRecord record with
      | error message => rfl
      | ok address =>
          by_cases hcurrent : isUpToDate record address entry.record = true
          · simp [hcurrent]
          · simp only [hcurrent]
            rfl

/-- The store follows the addresses. Take any cycles one after another on a faithful API
whose zones are all active, with one of them for each configured record and at most one
stored record for it, with addresses that may change from cycle to cycle, in any processes
and with any sound caches. What the store holds after them is what it held, settled for one
discovery after another, and what was missing, made for the first discovery and settled for
the others; no record ever goes or loses its id or its unmanaged fields. The first cycle makes
what is missing, and no later one makes anything; each leaves every record that it manages as
it is configured, with the addresses that it has found; and one that finds the addresses of
the cycle before it mutates nothing. -/
theorem cycles_follow (self : Updater) (hvalid : self.config.validate = .ok ())
    {s t : Service X} {cycles : List (DiscoveredAddresses × self.CycleRun)}
    (hresolvable : Resolvable self.config.records s.store)
    (h : self.FaithfulCycles s cycles t) :
    (cycles ≠ [] → Converged (StoredRecord.settleAll (cycles.map Prod.fst))
        (StoredRecord.MadeFirst (cycles.map Prod.fst))
        (self.config.records.filter s.store.manages) s.store t.store) ∧
      (∀ zoneId, (s.store.recordsOf zoneId).map StoredRecord.identity <+:
        (t.store.recordsOf zoneId).map StoredRecord.identity) ∧
      ∀ earlier cycle later, cycles = earlier ++ cycle :: later →
        (cycle.2.report.isSuccess = true ↔
            ∀ record ∈ self.config.records, s.store.manages record = true) ∧
          (earlier = [] → CycleReported cycle.1 s.store self.config.records cycle.2.report) ∧
          (earlier ≠ [] → cycle.2.report.created = 0) ∧
          (later = [] → ∀ record ∈ self.config.records, s.store.manages record = true →
            Synchronized cycle.1 t.store record) ∧
          ∀ before previous, earlier = before ++ [previous] → previous.1 = cycle.1 →
            cycle.2.report.updated = 0 ∧ mutationsOf cycle.2.trace = [] := by
  have hdistinct := distinctRecords_of_validate hvalid
  obtain ⟨-, -, hnonempty⟩ := Config.validate_ok hvalid
  have hreached := h.reaches hdistinct hnonempty hresolvable
  refine ⟨fun hcycles => ?_, fun zoneId => ?_, ?_⟩
  · rcases hreached with ⟨hnil, -⟩ | ⟨-, -, hconverged⟩
    · exact absurd hnil hcycles
    · exact hconverged
  · rcases hreached with ⟨-, hstore⟩ | ⟨-, -, hconverged⟩
    · rw [hstore]
    · exact hconverged.keeps (settleAll_identity (cycles.map Prod.fst)) zoneId
  · rintro earlier cycle later rfl
    have hsplit : earlier ++ cycle :: later = (earlier ++ [cycle]) ++ later := by simp
    rw [hsplit] at h
    obtain ⟨t', hcycle⟩ := h.up_to
    obtain ⟨hsuccess, hfirst, hlater, -⟩ := hcycle.last hdistinct hnonempty hresolvable
    refine ⟨hsuccess, hfirst, hlater, ?_, ?_⟩
    · rintro rfl
      rw [List.append_nil] at h
      exact (h.last hdistinct hnonempty hresolvable).2.2.2
    · rintro before previous rfl hsame
      exact hcycle.repeated hdistinct hnonempty hresolvable hsame

end

section

attribute [local instance] exampleExternals

/-- The record is there, as the first cycle has made it, and the providers tell an address. -/
def movingScenario (address : String) : Scenario where
  server := fun _ request =>
    match request with
    | .listZones _ _ _ => delivered 200 exampleZonesBody
    | .listRecords _ _ _ _ _ => delivered 200 exampleFoundBody
    | .updateRecord _ _ _ => delivered 200 movedRecordBody
    | _ => .failed "connection refused"
  provider := fun _ => some (delivered 200 address)
  cached := cachingScenario.cached

def movingCycle (address : String) : exampleUpdater.CycleRun :=
  exampleUpdater.executedCycle (movingScenario address).strategy [] (seconds 300)

theorem movedConfig_addressed :
    Addressed exampleConfig.records ⟨some (.ok movedAddress), none⟩ := by
  simp only [Addressed, exampleConfig, List.forall_mem_singleton]
  exact ⟨movedAddress, rfl, by decide⟩

/-- Of three cycles in three processes the first makes the record, the second finds the same
address and mutates nothing, and the third settles the record for another address. -/
theorem cycles_follow_moved : ∃ t : Service Unit,
    exampleCall.cycle.report.created = 1 ∧
    ((movingCycle "93.184.216.34").report.updated = 0 ∧
      mutationsOf (movingCycle "93.184.216.34").trace = []) ∧
    ((movingCycle "93.184.216.35").report.created = 0 ∧
      (movingCycle "93.184.216.35").report.isSuccess = true ∧
      (mutationsOf (movingCycle "93.184.216.35").trace).length = 1) ∧
    ∀ record ∈ exampleConfig.records,
      Synchronized ⟨some (.ok movedAddress), none⟩ t.store record := by
  let server : ApiServer Unit := ⟨false, fun _ => ()⟩
  let same := movingCycle "93.184.216.34"
  let moved := movingCycle "93.184.216.35"
  let created := exampleService.after server "token" exampleCall.cycle.trace
  let kept := created.uncached.after server "token" same.trace
  have hfirst : exampleUpdater.FaithfulCycles exampleService
      ([] ++ [(⟨some (.ok exampleAddress), none⟩, exampleCall.cycle)]) created :=
    .cycle .start rfl exampleService_sound exampleConfig_addressed exampleFaithfulCall.found
      exampleFaithfulCall.around.1
  obtain ⟨hkept, hmoved⟩ : created.uncached.Serves server "token" same.deadline same.trace ∧
      kept.uncached.Serves server "token" moved.deadline moved.trace := by
    decide +kernel
  have hsecond := hfirst.uncached exampleConfig_addressed
    (Updater.executedCycle_discovers (by decide +kernel)) hkept
  have hthird := hsecond.uncached movedConfig_addressed
    (Updater.executedCycle_discovers (by decide +kernel)) hmoved
  obtain ⟨-, -, heach⟩ := cycles_follow exampleUpdater exampleConfig_valid
    exampleService_resolvable hthird
  obtain ⟨-, hcreated, -⟩ := heach [] _ _ rfl
  obtain ⟨-, -, -, -, hrepeated⟩ := heach [_] _ _ rfl
  obtain ⟨hsuccess, -, hlater, hlast, -⟩ := heach [_, _] _ [] rfl
  refine ⟨_, ?_, hrepeated [] _ rfl rfl, ⟨hlater (List.cons_ne_nil _ _),
    hsuccess.mpr exampleService_manages, by decide +kernel⟩, fun record member =>
      hlast rfl record member (exampleService_manages record member)⟩
  exact ((hcreated rfl).counter_eq .created).trans (by decide +kernel)

end

end Cirrusync
