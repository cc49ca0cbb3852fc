import Cirrusync.CycleCount
import Mathlib.Data.Nat.ModEq

/-!
The order in which the cycles of one updater take the records. A cycle that finds its
addresses takes the next start from the cursor, which wraps around after `2 ^ 64` of
them; what it visits is a prefix of the rotation from there.
-/

namespace Cirrusync

open Effect Text

/-- The cursor that a step reads. -/
def fetched : Step → Option Nat
  | ⟨.act .fetchAddCursor, (cursor : Nat)⟩ => some cursor
  | _ => none

/-- The cursor is read as it is. -/
def readsCursor (cursor : Nat) (step : Step) : Prop :=
  ∀ answer, fetched step = some answer → answer = cursor

/-- `fetch_add` wraps around. -/
def cursorAfter (cursor : Nat) (step : Step) : Nat :=
  if (fetched step).isSome then (cursor + 1) % 2 ^ 64 else cursor

theorem foldl_cursorAfter {steps : List Step} (h : ∀ step ∈ steps, fetched step = none)
    (cursor : Nat) : steps.foldl cursorAfter cursor = cursor := by
  induction steps with
  | nil => rfl
  | cons step rest ih =>
      rw [List.forall_mem_cons] at h
      have hstep : cursorAfter cursor step = cursor := by
        unfold cursorAfter
        rw [h.1]
        rfl
      rw [List.foldl_cons, hstep]
      exact ih h.2

theorem fetched_of_discovery {step : Step} (h : DiscoveryOp step.op) : fetched step = none := by
  unfold fetched
  split
  · exact h.elim
  · rfl

theorem fetched_of_lookup {step : Step} (h : LookupOp step.op) : fetched step = none := by
  unfold fetched
  split
  · exact h.elim
  · rfl

theorem fetched_of_exchange {request : Request} {outcome : HttpOutcome} {step : Step}
    (member : step ∈ exchange request outcome) : fetched step = none := by
  simp only [exchange, List.mem_cons, List.not_mem_nil, or_false] at member
  rcases member with rfl | rfl
  · rfl
  · rfl

theorem fetched_of_evictions {α : Type} {zoneId : String} {result : Except CloudflareError α}
    {step : Step} (member : step ∈ evictions zoneId result) : fetched step = none := by
  cases result with
  | ok _ => cases member
  | error error =>
      simp only [evictions] at member
      by_cases hfound : error.isNotFound = true
      · rw [if_pos hfound] at member
        obtain rfl := List.mem_singleton.mp member
        rfl
      · rw [if_neg hfound] at member
        cases member

theorem fetched_of_mutation {α : Type} {zoneId : String} {request : Request}
    {outcome : HttpOutcome} {result : Except CloudflareError α} {step : Step}
    (member : step ∈ mutationSteps zoneId request outcome result) : fetched step = none := by
  unfold mutationSteps at member
  rcases List.mem_append.mp member with member | member
  · rcases List.mem_cons.mp member with rfl | member
    · rfl
    · rcases List.mem_append.mp member with member | member
      · exact fetched_of_exchange member
      · exact fetched_of_evictions member
  · obtain rfl := List.mem_singleton.mp member
    rfl

/-- Exactly one of as many consecutive numbers is in each class. -/
theorem unique_turn {count index : Nat} (hindex : index < count) (first : Nat) :
    ∃! i, i < count ∧ (first + i) % count = index := by
  have hpos : 0 < count := by omega
  have hplace : (first + (index + (count - first % count)) % count) % count = index := by
    have hfirst := Nat.div_add_mod first count
    have hmod := Nat.mod_lt first hpos
    have hsum : first + (index + (count - first % count)) =
        index + count * (first / count + 1) := by
      rw [Nat.mul_succ]
      omega
    rw [Nat.add_mod_mod, hsum, Nat.add_mul_mod_self_left, Nat.mod_eq_of_lt hindex]
  refine ⟨_, ⟨Nat.mod_lt _ hpos, hplace⟩, ?_⟩
  rintro other ⟨hother, hclass⟩
  exact (Nat.ModEq.add_left_cancel' first (hclass.trans hplace.symm)).eq_of_lt_of_lt hother
    (Nat.mod_lt _ hpos)

/-- The entries at the places from one on, in cyclic order and no place twice. -/
structure CyclicPrefix {α : Type} (entries : List α) (start : Nat) (visited : List α) :
    Prop where
  length : visited.length ≤ entries.length
  places : ∀ offset < visited.length,
    visited[offset]? = entries[(start + offset) % entries.length]?
  once : ∀ i < visited.length, ∀ j < visited.length,
    (start + i) % entries.length = (start + j) % entries.length → i = j

/-- What stands at a place of a filtered list stands after as many that pass. -/
theorem split_of_filter {α : Type} {p : α → Bool} {entries : List α} {place : Nat} {entry : α}
    (h : (entries.filter p)[place]? = some entry) :
    ∃ before after, entries = before ++ entry :: after ∧ before.countP p = place ∧
      p entry = true := by
  induction entries generalizing place with
  | nil => cases h
  | cons first rest ih =>
      by_cases hfirst : p first = true
      · rw [List.filter_cons_of_pos hfirst] at h
        cases place with
        | zero =>
            cases h
            exact ⟨[], rest, rfl, rfl, hfirst⟩
        | succ place =>
            obtain ⟨before, after, rfl, hcount, hentry⟩ := ih h
            refine ⟨first :: before, after, rfl, ?_, hentry⟩
            rw [List.countP_cons_of_pos hfirst, hcount]
      · rw [List.filter_cons_of_neg hfirst] at h
        obtain ⟨before, after, rfl, hcount, hentry⟩ := ih h
        refine ⟨first :: before, after, rfl, ?_, hentry⟩
        rw [List.countP_cons_of_neg hfirst, hcount]

namespace Updater

theorem rotated_getElem? {records : List RecordConfig} {cursor offset : Nat}
    (hoffset : offset < records.length) :
    (rotated records cursor)[offset]? = records[(cursor + offset) % records.length]? := by
  rw [rotated_eq_rotate, List.getElem?_rotate hoffset, Nat.add_comm, Nat.mod_add_mod]

theorem cyclicPrefix_of_rotated {records visited : List RecordConfig} {cursor : Nat}
    (h : visited <+: rotated records cursor) : CyclicPrefix records cursor visited := by
  have hlength : visited.length ≤ records.length := by
    rw [← (rotated_perm records cursor).length_eq]
    exact h.length_le
  refine ⟨hlength, fun offset hoffset => ?_, fun i hi j hj hplace => ?_⟩
  · obtain ⟨later, hlater⟩ := h
    rw [← rotated_getElem? (by omega), ← hlater, List.getElem?_append_left hoffset]
  · exact (Nat.ModEq.add_left_cancel' cursor hplace).eq_of_lt_of_lt (by omega) (by omega)

end Updater

section

variable [Externals]

namespace Updater

variable {updater : Updater}

/-- The index of the record with which a cycle starts. -/
def CycleRun.startIndex (run : updater.CycleRun) : Option Nat :=
  (run.trace.findSome? fetched).map (· % updater.config.records.length)

/-- The records that the loop visits. -/
inductive Turns (updater : Updater) (deadline : Instant) (addresses : DiscoveredAddresses) :
    List RecordConfig → CycleReport → List Step → List RecordConfig → CycleReport → Prop where
  | done (report : CycleReport) : Turns updater deadline addresses [] report [] [] report
  | next {record : RecordConfig} {rest visited : List RecordConfig}
      {report report' final : CycleReport} {visit later : List Step} :
      updater.Visits deadline addresses record report visit (.next report') →
      Turns updater deadline addresses rest report' later visited final →
      Turns updater deadline addresses (record :: rest) report (visit ++ later)
        (record :: visited) final
  | stop {record : RecordConfig} {rest : List RecordConfig} {report final : CycleReport}
      {visit : List Step} :
      updater.Visits deadline addresses record report visit (.stop final) →
      Turns updater deadline addresses (record :: rest) report visit [record] final

theorem Turns.of_visitsAll {deadline : Instant} {addresses : DiscoveredAddresses}
    {records : List RecordConfig} {report final : CycleReport} {trace : List Step}
    (h : updater.VisitsAll deadline addresses records report trace final) :
    ∃ visited, Turns updater deadline addresses records report trace visited final := by
  induction h with
  | done report => exact ⟨[], .done report⟩
  | next hvisit _ ih =>
      obtain ⟨visited, hturns⟩ := ih
      exact ⟨_, .next hvisit hturns⟩
  | stop hvisit => exact ⟨_, .stop hvisit⟩

theorem Turns.visited_prefix {deadline : Instant} {addresses : DiscoveredAddresses}
    {records visited : List RecordConfig} {report final : CycleReport} {trace : List Step}
    (h : Turns updater deadline addresses records report trace visited final) :
    visited <+: records := by
  induction h with
  | done report => exact List.prefix_refl _
  | next _ _ ih => exact (List.prefix_cons_inj _).mpr ih
  | stop _ => exact ⟨_, rfl⟩

theorem planning_fetches_nothing {deadline : Instant} {record : RecordConfig}
    {address : IpAddr} {planning : List Step}
    {result : Option (Except (FailureStage × CloudflareError) RecordPlan)}
    (h : Runs (timeoutAt deadline (updater.planRecord record address)) planning result) :
    ∀ step ∈ planning, fetched step = none :=
  fun step member => fetched_of_lookup (uses_runs (uses_timeoutAt
    (fun _ => LookupOp.finishBefore) (updater.planRecord_uses record address)) h step member)

theorem executes_fetches_nothing {plan : RecordPlan} {mutation : List Step}
    {outcome : Except (FailureStage × CloudflareError) RecordOutcome}
    (h : updater.Executes plan mutation outcome) : ∀ step ∈ mutation, fetched step = none := by
  cases h with
  | unchanged =>
      intro step member
      cases member
  | update _ => exact fun step => fetched_of_mutation
  | create _ => exact fun step => fetched_of_mutation

theorem visits_fetches_nothing {deadline : Instant} {addresses : DiscoveredAddresses}
    {record : RecordConfig} {report : CycleReport} {trace : List Step}
    {flow : Flow CycleReport}
    (h : updater.Visits deadline addresses record report trace flow) :
    ∀ step ∈ trace, fetched step = none := by
  cases h with
  | stopped => exact List.forall_mem_singleton.mpr rfl
  | noAddress _ => exact List.forall_mem_singleton.mpr rfl
  | planExpired _ hplanning =>
      exact List.forall_mem_cons.mpr ⟨rfl, planning_fetches_nothing hplanning⟩
  | planFailed _ hplanning =>
      exact List.forall_mem_cons.mpr ⟨rfl, planning_fetches_nothing hplanning⟩
  | planLate _ hplanning _ =>
      exact List.forall_mem_cons.mpr ⟨rfl, List.forall_mem_append.mpr
        ⟨planning_fetches_nothing hplanning, List.forall_mem_singleton.mpr rfl⟩⟩
  | executed _ hplanning _ hexecutes =>
      exact List.forall_mem_cons.mpr ⟨rfl, List.forall_mem_append.mpr
        ⟨planning_fetches_nothing hplanning,
          List.forall_mem_cons.mpr ⟨rfl, executes_fetches_nothing hexecutes⟩⟩⟩

theorem turns_fetch_nothing {deadline : Instant} {addresses : DiscoveredAddresses}
    {records visited : List RecordConfig} {report final : CycleReport} {trace : List Step}
    (h : Turns updater deadline addresses records report trace visited final) :
    ∀ step ∈ trace, fetched step = none := by
  induction h with
  | done report =>
      intro step member
      cases member
  | next hvisit _ ih => exact List.forall_mem_append.mpr ⟨visits_fetches_nothing hvisit, ih⟩
  | stop hvisit => exact visits_fetches_nothing hvisit

/-- A cycle that has found its addresses and visits records from a place on. -/
structure CycleRun.Rotates (run : updater.CycleRun) (addresses : DiscoveredAddresses)
    (cursor : Nat) (discovery visits : List Step) (visited : List RecordConfig) : Prop where
  found : Runs (timeoutAt run.deadline updater.discoverRequiredAddresses) discovery
    (some addresses)
  trace : run.trace = discovery ++ ⟨.act .fetchAddCursor, cursor⟩ :: visits
  turns : Turns updater run.deadline addresses (rotated updater.config.records cursor)
    { records := updater.config.records.length, failures := addresses.discoveryFailures }
    visits visited run.report

theorem discovery_fetches_nothing {deadline : Instant} {discovery : List Step}
    {found : Option DiscoveredAddresses}
    (h : Runs (timeoutAt deadline updater.discoverRequiredAddresses) discovery found) :
    ∀ step ∈ discovery, fetched step = none :=
  fun step member => fetched_of_discovery (uses_runs (uses_timeoutAt
    (fun _ => DiscoveryOp.finishBefore) updater.discoverRequiredAddresses_uses) h step member)

/-- Every cycle over some records rotates, or does not get past discovery. -/
theorem CycleRun.rotates_or (run : updater.CycleRun) (hsome : updater.config.records ≠ []) :
    (∃ addresses cursor discovery visits visited,
      run.Rotates addresses cursor discovery visits visited) ∨
    Runs (timeoutAt run.deadline updater.discoverRequiredAddresses) run.trace none := by
  obtain ⟨deadline, trace, report, hrun⟩ := run
  cases updater.runCycleUntil_cycles hrun with
  | undiscovered hdiscovery => exact .inr hdiscovery
  | unmanaged _ hrecords => exact absurd hrecords hsome
  | visited hdiscovery _ hvisits =>
      obtain ⟨visited, hturns⟩ := Turns.of_visitsAll hvisits
      exact .inl ⟨_, _, _, _, visited, hdiscovery, rfl, hturns⟩

theorem CycleRun.Rotates.startIndex {run : updater.CycleRun} {addresses : DiscoveredAddresses}
    {cursor : Nat} {discovery visits : List Step} {visited : List RecordConfig}
    (h : run.Rotates addresses cursor discovery visits visited) :
    run.startIndex = some (cursor % updater.config.records.length) := by
  have hfirst : discovery.findSome? fetched = none :=
    List.findSome?_eq_none_iff.mpr (discovery_fetches_nothing h.found)
  unfold CycleRun.startIndex
  rw [h.trace, List.findSome?_append, hfirst, Option.none_or]
  rfl

theorem CycleRun.Rotates.cursorAfter {run : updater.CycleRun} {addresses : DiscoveredAddresses}
    {cursor : Nat} {discovery visits : List Step} {visited : List RecordConfig}
    (h : run.Rotates addresses cursor discovery visits visited) (start : Nat) :
    run.trace.foldl cursorAfter start = (start + 1) % 2 ^ 64 := by
  rw [h.trace, List.foldl_append, foldl_cursorAfter (discovery_fetches_nothing h.found),
    List.foldl_cons, foldl_cursorAfter (turns_fetch_nothing h.turns)]
  rfl

theorem CycleRun.startIndex_of_undiscovered {run : updater.CycleRun}
    (h : Runs (timeoutAt run.deadline updater.discoverRequiredAddresses) run.trace none) :
    run.startIndex = none := by
  unfold CycleRun.startIndex
  rw [List.findSome?_eq_none_iff.mpr (discovery_fetches_nothing h)]
  rfl

theorem CycleRun.not_discovers {run : updater.CycleRun}
    (h : Runs (timeoutAt run.deadline updater.discoverRequiredAddresses) run.trace none)
    (addresses : DiscoveredAddresses) : ¬ run.Discovers addresses := by
  rintro ⟨discovery, rest, htrace, hdiscovery⟩
  have hwhole := htrace.symm
  rw [← List.append_nil run.trace] at hwhole
  obtain ⟨-, hvalue, -⟩ := runs_unique hdiscovery h hwhole
  cases hvalue

/-- A cycle that got past discovery. -/
def CycleRun.passes (run : updater.CycleRun) : Bool := run.startIndex.isSome

theorem CycleRun.passes_iff (run : updater.CycleRun) (hsome : updater.config.records ≠ []) :
    run.passes = true ↔ ∃ addresses, run.Discovers addresses := by
  unfold CycleRun.passes
  rcases run.rotates_or hsome with ⟨addresses, cursor, discovery, visits, visited, hrotates⟩ |
    hundiscovered
  · rw [hrotates.startIndex]
    constructor
    · exact fun _ => ⟨addresses, discovery, _, hrotates.trace, hrotates.found⟩
    · exact fun _ => rfl
  · rw [CycleRun.startIndex_of_undiscovered hundiscovered]
    constructor
    · intro h
      cases h
    · rintro ⟨addresses, hdiscovers⟩
      exact absurd hdiscovers (CycleRun.not_discovers hundiscovered addresses)

/-- The cursor counts the cycles that got past discovery. -/
theorem foldl_cycles {runs : List updater.CycleRun} (hsome : updater.config.records ≠ [])
    {start : Nat} (hfew : start + runs.length < 2 ^ 64) :
    (runs.flatMap CycleRun.trace).foldl cursorAfter start =
      start + runs.countP CycleRun.passes := by
  induction runs generalizing start with
  | nil => rfl
  | cons run rest ih =>
      rw [List.length_cons] at hfew
      rw [List.flatMap_cons, List.foldl_append]
      rcases run.rotates_or hsome with
        ⟨addresses, cursor, discovery, visits, visited, hrotates⟩ | hundiscovered
      · have hpasses : run.passes = true := by
          unfold CycleRun.passes
          rw [hrotates.startIndex]
          rfl
        rw [hrotates.cursorAfter, Nat.mod_eq_of_lt (by omega), ih (by omega),
          List.countP_cons_of_pos hpasses]
        omega
      · have hpasses : ¬ run.passes = true := by
          rw [run.passes_iff hsome, not_exists]
          exact CycleRun.not_discovers hundiscovered
        rw [foldl_cursorAfter (discovery_fetches_nothing hundiscovered), ih (by omega),
          List.countP_cons_of_neg hpasses]

/-- A cycle that got past discovery starts where the earlier ones leave the cursor. -/
theorem rotates_of_cycles {runs before after : List updater.CycleRun} {run : updater.CycleRun}
    (hsome : updater.config.records ≠ []) (hfew : runs.length < 2 ^ 64)
    (hcursor : CoherentFrom readsCursor cursorAfter 0 (runs.flatMap CycleRun.trace))
    (hruns : runs = before ++ run :: after) {addresses : DiscoveredAddresses}
    (hdiscovers : run.Discovers addresses) :
    ∃ discovery visits visited, run.Rotates addresses (before.countP CycleRun.passes) discovery
      visits visited := by
  subst hruns
  rw [List.length_append, List.length_cons] at hfew
  rw [List.flatMap_append, List.flatMap_cons, coherentFrom_append, coherentFrom_append,
    foldl_cycles hsome (by omega), Nat.zero_add] at hcursor
  obtain ⟨-, hrun, -⟩ := hcursor
  rcases run.rotates_or hsome with ⟨addresses', cursor, discovery, visits, visited, hrotates⟩ |
    hundiscovered
  · have hfound : run.Discovers addresses' := ⟨_, _, hrotates.trace, hrotates.found⟩
    obtain rfl := CycleRun.discovers_unique hfound hdiscovers
    rw [hrotates.trace, coherentFrom_append,
      foldl_cursorAfter (discovery_fetches_nothing hrotates.found)] at hrun
    obtain rfl : cursor = before.countP CycleRun.passes := hrun.2.1 cursor rfl
    exact ⟨discovery, visits, visited, hrotates⟩
  · exact absurd hdiscovers (CycleRun.not_discovers hundiscovered addresses)

/-- The loop comes to a record after some steps. -/
inductive Reaches (updater : Updater) (deadline : Instant) (addresses : DiscoveredAddresses)
    (record : RecordConfig) : List RecordConfig → CycleReport → List Step → Prop where
  | here (rest : List RecordConfig) (report : CycleReport) :
      Reaches updater deadline addresses record (record :: rest) report []
  | next {other : RecordConfig} {rest : List RecordConfig} {report report' : CycleReport}
      {visit later : List Step} :
      updater.Visits deadline addresses other report visit (.next report') →
      Reaches updater deadline addresses record rest report' later →
      Reaches updater deadline addresses record (other :: rest) report (visit ++ later)

/-- After these steps the cycle begins to plan the record. -/
def CycleRun.Takes (run : updater.CycleRun) (record : RecordConfig) (before : List Step) : Prop :=
  ∃ addresses cursor discovery earlier,
    Runs (timeoutAt run.deadline updater.discoverRequiredAddresses) discovery (some addresses) ∧
    Reaches updater run.deadline addresses record (rotated updater.config.records cursor)
      { records := updater.config.records.length, failures := addresses.discoveryFailures }
      earlier ∧
    before = discovery ++ ⟨.act .fetchAddCursor, cursor⟩ :: (earlier ++
      [⟨.act .stopRequested, false⟩])

/-- The lookups and the mutation of a record succeed before the deadline whenever the cycle
tries them, and the record exists or may be created. The clock that is read before the
mutation belongs to it. -/
structure CycleRun.SucceedsWhenTried (run : updater.CycleRun) (record : RecordConfig) : Prop where
  zone : ∀ {before zone after : List Step} {result : Option (Except CloudflareError String)},
    run.Takes record before → run.trace = before ++ (zone ++ after) →
    Runs (timeoutAt run.deadline (updater.cloudflare.resolveZoneId record.zone record.zoneId)) zone
      result → ∃ zoneId, result = some (.ok zoneId)
  lookup : ∀ {before zone lookup after : List Step} {zoneId : String}
      {result : Option (Except CloudflareError (Option DnsRecord))},
    run.Takes record before → run.trace = before ++ (zone ++ (lookup ++ after)) →
    Runs (timeoutAt run.deadline (updater.cloudflare.resolveZoneId record.zone record.zoneId)) zone
      (some (.ok zoneId)) →
    Runs (timeoutAt run.deadline (updater.cloudflare.findRecord zoneId record.recordType.asStr
      record.name)) lookup result →
    ∃ found, result = some (.ok found) ∧ (found = none → record.createIfMissing = true)
  recheck : ∀ {before zone lookup recheck after : List Step} {zoneId : String}
      {result : Option (Except CloudflareError (Option DnsRecord))},
    run.Takes record before → run.trace = before ++ (zone ++ (lookup ++ (recheck ++ after))) →
    Runs (timeoutAt run.deadline (updater.cloudflare.resolveZoneId record.zone record.zoneId)) zone
      (some (.ok zoneId)) →
    Runs (timeoutAt run.deadline (updater.cloudflare.findRecord zoneId record.recordType.asStr
      record.name)) lookup (some (.ok none)) →
    Runs (timeoutAt run.deadline (updater.cloudflare.findRecord zoneId record.recordType.asStr
      record.name)) recheck result →
    ∃ found, result = some (.ok found)
  start : ∀ {before planning after : List Step} {address : IpAddr} {plan : RecordPlan}
      {now : Nat},
    run.Takes record before → run.trace = before ++ (planning ++ ⟨.act .now, now⟩ :: after) →
    Runs (timeoutAt run.deadline (updater.planRecord record address)) planning
      (some (.ok plan)) → now < run.deadline
  mutation : ∀ {before planning mutation after : List Step} {address : IpAddr}
      {plan : RecordPlan} {now : Nat}
      {result : Except (FailureStage × CloudflareError) RecordOutcome},
    run.Takes record before →
    run.trace = before ++ (planning ++ ⟨.act .now, now⟩ :: (mutation ++ after)) →
    Runs (timeoutAt run.deadline (updater.planRecord record address)) planning
      (some (.ok plan)) →
    updater.Executes plan mutation result → ∃ outcome, result = .ok outcome

/-- Planning succeeds where its lookups do. -/
theorem CycleRun.SucceedsWhenTried.plans {run : updater.CycleRun} {record : RecordConfig}
    (h : run.SucceedsWhenTried record) {before planning after : List Step} {address : IpAddr}
    {result : Option (Except (FailureStage × CloudflareError) RecordPlan)}
    (htakes : run.Takes record before) (htrace : run.trace = before ++ (planning ++ after))
    (hrun : Runs (timeoutAt run.deadline (updater.planRecord record address)) planning result) :
    ∃ plan, result = some (.ok plan) := by
  unfold planRecord at hrun
  rw [timeoutAt_bind] at hrun
  obtain ⟨zone, rest, zoneResult, rfl, hzone, hrest⟩ := (runs_bind_iff _ _ _ _).mp hrun
  rw [List.append_assoc] at htrace
  obtain ⟨zoneId, rfl⟩ := h.zone htakes htrace hzone
  simp only at hrest
  rw [timeoutAt_bind] at hrest
  obtain ⟨lookup, later, lookupResult, rfl, hlookup, hlater⟩ := (runs_bind_iff _ _ _ _).mp hrest
  rw [List.append_assoc] at htrace
  obtain ⟨found, rfl, hcreatable⟩ := h.lookup htakes htrace hzone hlookup
  cases found with
  | some existing =>
      obtain ⟨-, rfl⟩ := (runs_done_iff _ _ _).mp hlater
      exact ⟨_, rfl⟩
  | none =>
      simp only [hcreatable rfl, Bool.not_true, Bool.false_eq_true, if_false] at hlater
      rw [timeoutAt_bind] at hlater
      obtain ⟨recheck, last, recheckResult, rfl, hrecheck, hlast⟩ :=
        (runs_bind_iff _ _ _ _).mp hlater
      rw [List.append_assoc] at htrace
      obtain ⟨found, rfl⟩ := h.recheck htakes htrace hzone hlookup hrecheck
      cases found with
      | some existing =>
          obtain ⟨-, rfl⟩ := (runs_done_iff _ _ _).mp hlast
          exact ⟨_, rfl⟩
      | none =>
          obtain ⟨-, rfl⟩ := (runs_done_iff _ _ _).mp hlast
          exact ⟨_, rfl⟩

/-- A visit to a record that succeeds when it is tried handles the record. -/
theorem CycleRun.SucceedsWhenTried.handles {run : updater.CycleRun} {record : RecordConfig}
    (h : run.SucceedsWhenTried record) {before visit after : List Step}
    {addresses : DiscoveredAddresses} {report : CycleReport} {flow : Flow CycleReport}
    {address : IpAddr} (htakes : run.Takes record (before ++ [⟨.act .stopRequested, false⟩]))
    (haddress : addresses.forRecord record = .ok address)
    (hgoing : (⟨.act .stopRequested, true⟩ : Step) ∉ visit)
    (htrace : run.trace = before ++ (visit ++ after))
    (hvisit : updater.Visits run.deadline addresses record report visit flow) :
    ∃ outcome, flow = .next (report.handle outcome) := by
  cases hvisit with
  | stopped => exact absurd (List.mem_singleton.mpr rfl) hgoing
  | noAddress hmissing => cases haddress.symm.trans hmissing
  | @planExpired _ planning _ hplanning =>
      have hcut : run.trace = (before ++ [⟨.act .stopRequested, false⟩]) ++
          (planning ++ after) := by
        rw [htrace, List.append_assoc]
        rfl
      obtain ⟨plan, hplan⟩ := h.plans htakes hcut hplanning
      cases hplan
  | @planFailed _ planning _ _ hplanning =>
      have hcut : run.trace = (before ++ [⟨.act .stopRequested, false⟩]) ++
          (planning ++ after) := by
        rw [htrace, List.append_assoc]
        rfl
      obtain ⟨plan, hplan⟩ := h.plans htakes hcut hplanning
      cases hplan
  | @planLate _ planning plan now _ hplanning hlate =>
      have hcut : run.trace = (before ++ [⟨.act .stopRequested, false⟩]) ++
          (planning ++ ⟨.act .now, now⟩ :: after) := by
        rw [htrace, List.append_assoc, List.cons_append, List.append_assoc]
        rfl
      exact absurd (h.start htakes hcut hplanning) (Nat.not_lt.mpr hlate)
  | @executed _ planning mutation plan now outcome _ hplanning _ hexecutes =>
      have hcut : run.trace = (before ++ [⟨.act .stopRequested, false⟩]) ++
          (planning ++ ⟨.act .now, now⟩ :: (mutation ++ after)) := by
        rw [htrace, List.append_assoc, List.cons_append, List.append_assoc]
        rfl
      obtain ⟨outcome, rfl⟩ := h.mutation htakes hcut hplanning hexecutes
      cases outcome with
      | unchanged => exact ⟨.unchanged, rfl⟩
      | updated => exact ⟨.updated, rfl⟩
      | created => exact ⟨.created, rfl⟩

theorem Turns.visitsAll {deadline : Instant} {addresses : DiscoveredAddresses}
    {records visited : List RecordConfig} {report final : CycleReport} {trace : List Step}
    (h : Turns updater deadline addresses records report trace visited final) :
    updater.VisitsAll deadline addresses records report trace final := by
  induction h with
  | done report => exact .done report
  | next hvisit _ ih => exact .next hvisit ih
  | stop hvisit => exact .stop hvisit

/-- The first of the records is counted, if it succeeds when it is tried. -/
theorem Turns.counts_first {run : updater.CycleRun} {addresses : DiscoveredAddresses}
    {record : RecordConfig} {rest visited : List RecordConfig} {report final : CycleReport}
    {before visits : List Step}
    (hturns : Turns updater run.deadline addresses (record :: rest) report visits visited final)
    (htakes : run.Takes record (before ++ [⟨.act .stopRequested, false⟩]))
    (hneeded : ∀ record' ∈ record :: rest, ∃ address,
      addresses.forRecord record' = .ok address)
    (hgoing : (⟨.act .stopRequested, true⟩ : Step) ∉ visits)
    (htrace : run.trace = before ++ visits) (hsucceeds : run.SucceedsWhenTried record) :
    ∃ outcome, updater.Handled run.deadline addresses run.trace (record, outcome) ∧
      1 ≤ final.counter outcome := by
  obtain ⟨address, haddress⟩ := hneeded record List.mem_cons_self
  cases hturns with
  | @next _ _ _ _ report' _ visit later hvisit hlater =>
      have hvisiting : (⟨.act .stopRequested, true⟩ : Step) ∉ visit :=
        fun member => hgoing (List.mem_append_left _ member)
      obtain ⟨outcome, hflow⟩ := hsucceeds.handles htakes haddress hvisiting htrace hvisit
      obtain rfl : report' = report.handle outcome := by
        injection hflow
      obtain ⟨handled, -, -, hcounter, -⟩ := updater.visitsAll_counts hlater.visitsAll
        (fun record' member message hmissing => by
          obtain ⟨address', haddress'⟩ := hneeded record' (List.mem_cons_of_mem _ member)
          cases haddress'.symm.trans hmissing)
      refine ⟨outcome, ⟨visit, report, ⟨before, later, ?_⟩, hvisit⟩, ?_⟩
      · rw [htrace, List.append_assoc]
      · rw [hcounter, CycleReport.counter_handle, if_pos rfl]
        omega
  | stop hvisit =>
      have hcut : run.trace = before ++ (visits ++ []) := by
        rw [htrace, List.append_nil]
      obtain ⟨outcome, hflow⟩ := hsucceeds.handles htakes haddress hgoing hcut hvisit
      cases hflow

/-- The first record of a cycle is counted, if it succeeds when it is tried. -/
theorem CycleRun.Rotates.counts_first {run : updater.CycleRun} {addresses : DiscoveredAddresses}
    {cursor : Nat} {discovery visits : List Step} {visited : List RecordConfig}
    (h : run.Rotates addresses cursor discovery visits visited)
    (hneeded : ∀ record ∈ updater.config.records, ∃ address,
      addresses.forRecord record = .ok address)
    (hgoing : (⟨.act .stopRequested, true⟩ : Step) ∉ run.trace) {record : RecordConfig}
    (hfirst : updater.config.records[cursor % updater.config.records.length]? = some record)
    (hsucceeds : run.SucceedsWhenTried record) :
    ∃ outcome, updater.Handled run.deadline addresses run.trace (record, outcome) ∧
      1 ≤ run.report.counter outcome := by
  have hpos : 0 < updater.config.records.length := List.length_pos_of_mem
    (List.mem_of_getElem? hfirst)
  have hturns := h.turns
  have hhead : (rotated updater.config.records cursor)[0]? = some record := by
    rw [rotated_getElem? hpos, Nat.add_zero, hfirst]
  have hrotated : ∀ record' ∈ rotated updater.config.records cursor, ∃ address,
      addresses.forRecord record' = .ok address :=
    fun record' member => hneeded record' ((rotated_perm _ _).mem_iff.mp member)
  have htrace : run.trace = (discovery ++ [⟨.act .fetchAddCursor, cursor⟩]) ++ visits := by
    rw [h.trace, List.append_assoc]
    rfl
  cases hrecords : rotated updater.config.records cursor with
  | nil =>
      rw [hrecords] at hhead
      cases hhead
  | cons first rest =>
      have htakes : run.Takes first
          ((discovery ++ [⟨.act .fetchAddCursor, cursor⟩]) ++ [⟨.act .stopRequested, false⟩]) := by
        refine ⟨addresses, cursor, discovery, [], h.found, ?_, List.append_assoc _ _ _⟩
        rw [hrecords]
        exact .here rest _
      rw [hrecords] at hhead hturns hrotated
      obtain rfl := Option.some.inj hhead
      refine hturns.counts_first htakes hrotated (fun member => hgoing ?_) htrace hsucceeds
      rw [htrace]
      exact List.mem_append_right _ member

/-- The cycle stands in a history after as many that got past discovery as it says. -/
theorem CycleRun.startIndex_of_cycles {runs before after : List updater.CycleRun}
    {run : updater.CycleRun} (hsome : updater.config.records ≠ [])
    (hfew : runs.length < 2 ^ 64)
    (hcursor : CoherentFrom readsCursor Cirrusync.cursorAfter 0 (runs.flatMap CycleRun.trace))
    (hruns : runs = before ++ run :: after) (hpasses : run.passes = true) :
    run.startIndex =
      some (before.countP CycleRun.passes % updater.config.records.length) := by
  obtain ⟨addresses, hdiscovers⟩ := (run.passes_iff hsome).mp hpasses
  obtain ⟨discovery, visits, visited, hrotates⟩ :=
    rotates_of_cycles hsome hfew hcursor hruns hdiscovers
  exact hrotates.startIndex

/-- Among as many consecutive cycles past discovery as there are records, each record is
first in exactly one. -/
theorem first_once {runs before window after : List updater.CycleRun}
    (hsome : updater.config.records ≠ []) (hfew : runs.length < 2 ^ 64)
    (hcursor : CoherentFrom readsCursor Cirrusync.cursorAfter 0 (runs.flatMap CycleRun.trace))
    (hruns : runs.filter CycleRun.passes = before ++ (window ++ after))
    (hwindow : window.length = updater.config.records.length) {index : Nat}
    (hindex : index < updater.config.records.length) :
    ∃! i, i < window.length ∧ window[i]?.bind CycleRun.startIndex = some index := by
  have hstart : ∀ i < window.length, window[i]?.bind CycleRun.startIndex =
      some ((before.length + i) % updater.config.records.length) := by
    intro i hi
    have hplace : (runs.filter CycleRun.passes)[before.length + i]? = some window[i] := by
      rw [hruns, List.getElem?_append_right (Nat.le_add_right _ _), Nat.add_sub_cancel_left,
        List.getElem?_append_left hi, List.getElem?_eq_getElem hi]
    obtain ⟨earlier, later, hsplit, hcount, hpasses⟩ := split_of_filter hplace
    rw [List.getElem?_eq_getElem hi, Option.bind_some,
      CycleRun.startIndex_of_cycles hsome hfew hcursor hsplit hpasses, hcount]
  obtain ⟨turn, ⟨hturn, hclass⟩, hunique⟩ := unique_turn hindex before.length
  refine ⟨turn, ⟨by omega, ?_⟩, ?_⟩
  · rw [hstart turn (by omega), hclass]
  · rintro other ⟨hother, hfirst⟩
    rw [hstart other hother] at hfirst
    exact hunique other ⟨by omega, Option.some.inj hfirst⟩

/-- The cycles of one updater take turns: each visits a prefix of the records in cyclic order
from the number of earlier ones past discovery. Among as many as there are records, each
record is first once; one that succeeds when it is tried is therefore counted. -/
theorem cycles_rotate (updater : Updater) {runs : List updater.CycleRun}
    (hsome : updater.config.records ≠ []) (hfew : runs.length < 2 ^ 64)
    (hcursor : CoherentFrom readsCursor Cirrusync.cursorAfter 0
      (runs.flatMap CycleRun.trace)) :
    (∀ before run after, runs = before ++ run :: after →
      (run.passes = true ↔ ∃ addresses, run.Discovers addresses) ∧
      (∀ addresses, run.Discovers addresses →
        ∃ discovery visits visited,
          run.Rotates addresses (before.countP CycleRun.passes) discovery visits visited ∧
          CyclicPrefix updater.config.records (before.countP CycleRun.passes) visited) ∧
      ((¬ ∃ addresses, run.Discovers addresses) →
        ∀ cursor, run.trace.foldl Cirrusync.cursorAfter cursor = cursor)) ∧
    (∀ before window after, runs.filter CycleRun.passes = before ++ (window ++ after) →
      window.length = updater.config.records.length →
      ∀ index < updater.config.records.length,
        ∃! i, i < window.length ∧ window[i]?.bind CycleRun.startIndex = some index) ∧
    ∀ before window after, runs = before ++ (window ++ after) →
      window.length = updater.config.records.length →
      (∀ run ∈ window, (⟨.act .stopRequested, true⟩ : Step) ∉ run.trace ∧
        ∃ addresses, run.Discovers addresses ∧
          ∀ record ∈ updater.config.records, ∃ address,
            addresses.forRecord record = .ok address) →
      ∀ record ∈ updater.config.records, (∀ run ∈ window, run.SucceedsWhenTried record) →
        ∃ run ∈ window, ∃ addresses outcome, run.Discovers addresses ∧
          updater.Handled run.deadline addresses run.trace (record, outcome) ∧
          1 ≤ run.report.counter outcome := by
  refine ⟨fun before run after hruns => ⟨run.passes_iff hsome, ?_, ?_⟩,
    fun before window after hruns hwindow index hindex =>
      first_once hsome hfew hcursor hruns hwindow hindex, ?_⟩
  · intro addresses hdiscovers
    obtain ⟨discovery, visits, visited, hrotates⟩ :=
      rotates_of_cycles hsome hfew hcursor hruns hdiscovers
    exact ⟨discovery, visits, visited, hrotates,
      cyclicPrefix_of_rotated hrotates.turns.visited_prefix⟩
  · intro hundiscovered cursor
    rcases run.rotates_or hsome with
      ⟨addresses, _, discovery, visits, visited, hrotates⟩ | hdiscovery
    · exact absurd ⟨addresses, discovery, _, hrotates.trace, hrotates.found⟩ hundiscovered
    · exact foldl_cursorAfter (discovery_fetches_nothing hdiscovery) cursor
  · intro before window after hruns hwindow hneeded record member hsucceeds
    obtain ⟨index, hindex, hrecord⟩ := List.getElem_of_mem member
    have hpasses : ∀ run ∈ window, run.passes = true := by
      intro run hrun
      obtain ⟨-, addresses, hdiscovers, -⟩ := hneeded run hrun
      exact (run.passes_iff hsome).mpr ⟨addresses, hdiscovers⟩
    have hfilter : runs.filter CycleRun.passes =
        before.filter CycleRun.passes ++ (window ++ after.filter CycleRun.passes) := by
      rw [hruns, List.filter_append, List.filter_append, List.filter_eq_self.mpr hpasses]
    obtain ⟨turn, ⟨hturn, hfirst⟩, -⟩ := first_once hsome hfew hcursor hfilter hwindow hindex
    rw [List.getElem?_eq_getElem hturn, Option.bind_some] at hfirst
    have hrun : window[turn] ∈ window := List.getElem_mem hturn
    obtain ⟨hgoing, addresses, hdiscovers, haddresses⟩ := hneeded _ hrun
    rcases CycleRun.rotates_or window[turn] hsome with
      ⟨addresses', cursor, discovery, visits, visited, hrotates⟩ | hundiscovered
    · obtain rfl := CycleRun.discovers_unique
        ⟨discovery, _, hrotates.trace, hrotates.found⟩ hdiscovers
      have hcursor' : cursor % updater.config.records.length = index := by
        rw [hrotates.startIndex] at hfirst
        exact Option.some.inj hfirst
      have hplace : updater.config.records[cursor % updater.config.records.length]? =
          some record := by
        rw [hcursor', List.getElem?_eq_getElem hindex, hrecord]
      obtain ⟨outcome, hhandled, hcounted⟩ :=
        hrotates.counts_first haddresses hgoing hplace (hsucceeds _ hrun)
      exact ⟨_, hrun, addresses', outcome, hdiscovers, hhandled, hcounted⟩
    · rw [CycleRun.startIndex_of_undiscovered hundiscovered] at hfirst
      cases hfirst

end Updater

end

section

attribute [local instance] exampleExternals

/-- The first of two records meets a rate limit; the other is out of date. -/
def starvingScenario : Scenario where
  server := fun _ request =>
    match request with
    | .listZones _ _ _ => delivered 200 exampleZonesBody
    | .listRecords _ _ name _ _ =>
        if name = "home.example.com" then delivered 200 exampleFoundBody else delivered 429 ""
    | .updateRecord _ _ _ | .createRecord _ _ => delivered 200 exampleRecordBody
    | _ => .failed "connection refused"
  provider := fun _ => some (delivered 200 "93.184.216.35")

/-- The answers of the scenario, with a cursor that counts. -/
def starvingStrategy : Strategy Ans
  | past, .act .fetchAddCursor => past.foldl cursorAfter 0
  | past, op => starvingScenario.strategy past op

def starvingCycle (past : List Step) : pairUpdater.CycleRun :=
  pairUpdater.executedCycle starvingStrategy past (seconds 300)


/-- The answers are the same at all times, but for the cursor. -/
theorem starvingStrategy_answers {α : Type} {past : List Step} {p : M α} {step : Step}
    (member : step ∈ (execute starvingStrategy past p).1) (hstep : fetched step = none) :
    step.answer = starvingScenario.strategy [] step.op := by
  obtain ⟨earlier, hanswer⟩ := answer_of_mem_execute member
  obtain ⟨op, answer⟩ := step
  cases op with
  | act action =>
      cases action with
      | fetchAddCursor => cases hstep
      | _ => exact hanswer
  | finish wait => cases wait <;> exact hanswer
  | finishBefore deadline wait => cases wait <;> exact hanswer

theorem starvingCycle_answers {past : List Step} {step : Step}
    (member : step ∈ (starvingCycle past).trace) (hstep : fetched step = none) :
    step.answer = starvingScenario.strategy [] step.op :=
  starvingStrategy_answers member hstep

/-- What a lookup of such a cycle comes to does not depend on when it is made. -/
theorem starvingCycle_lookup {α : Type} {past before part after : List Step} {p : M α}
    {result : Option α} (hp : Uses LookupOp p)
    (htrace : (starvingCycle past).trace = before ++ (part ++ after))
    (hrun : Runs (timeoutAt (seconds 300) p) part result) :
    result = (execute (fun _ => starvingScenario.strategy []) []
      (timeoutAt (seconds 300) p)).2 := by
  apply runs_answered hrun
  intro step member
  apply starvingCycle_answers
  · rw [htrace]
    exact List.mem_append_right _ (List.mem_append_left _ member)
  · exact fetched_of_lookup (uses_runs (uses_timeoutAt (fun _ => LookupOp.finishBefore) hp) hrun
      step member)

theorem starvingCycle_zone {past before zone after : List Step}
    {result : Option (Except CloudflareError String)}
    (htrace : (starvingCycle past).trace = before ++ (zone ++ after))
    (hrun : Runs (timeoutAt (seconds 300)
      (pairUpdater.cloudflare.resolveZoneId "example.com" none)) zone result) :
    result = some (.ok "023e") :=
  (starvingCycle_lookup (CloudflareClient.resolveZoneId_uses _ _ _) htrace hrun).trans
    (by decide +kernel)

theorem starvingCycle_found {past before zone lookup after : List Step} {zoneId : String}
    {result : Option (Except CloudflareError (Option DnsRecord))}
    (htrace : (starvingCycle past).trace = before ++ (zone ++ (lookup ++ after)))
    (hzone : Runs (timeoutAt (seconds 300)
      (pairUpdater.cloudflare.resolveZoneId "example.com" none)) zone (some (.ok zoneId)))
    (hrun : Runs (timeoutAt (seconds 300)
      (pairUpdater.cloudflare.findRecord zoneId "A" "home.example.com")) lookup result) :
    result = some (.ok (some exampleStored)) := by
  cases starvingCycle_zone htrace hzone
  rw [← List.append_assoc] at htrace
  exact (starvingCycle_lookup (CloudflareClient.findRecord_uses _ _ _ _) htrace hrun).trans
    (by decide +kernel)

/-- A mutation is answered, whatever it sends. -/
theorem receive_recorded (request : Request) (hkind : request.kind = .record) :
    ∃ response, receive "token" request (delivered 200 exampleRecordBody) = .ok response := by
  have hparsed : ∃ envelope, fromSlice request.kind (bytes exampleRecordBody) = .ok envelope ∧
      envelope.success = true ∧ envelope.result.isSome = true := by
    rw [hkind]
    refine ⟨(bodyOf exampleRecordBody exampleStored).2, ?_, rfl, rfl⟩
    simp [fromSlice, exampleBodies, bodyOf]
  obtain ⟨envelope, hparsed, hsuccess, hresult⟩ := hparsed
  obtain ⟨result, hresult⟩ := Option.isSome_iff_exists.mp hresult
  have hsmall : (bytes exampleRecordBody).length ≤ maxResponseBytes := by
    decide +kernel
  exact ⟨_, receive_delivered hsmall hparsed hsuccess hresult⟩

/-- The second record is looked up and changed wherever a cycle comes to it. -/
theorem starvingCycle_succeeds (past : List Step) :
    (starvingCycle past).SucceedsWhenTried exampleRecord where
  zone := fun _ htrace hzone => ⟨"023e", starvingCycle_zone htrace hzone⟩
  lookup := fun _ htrace hzone hlookup =>
    ⟨some exampleStored, starvingCycle_found htrace hzone hlookup, fun hnone => by cases hnone⟩
  recheck := by
    intro before zone lookup recheck after zoneId result _ htrace hzone hlookup _
    cases starvingCycle_found htrace hzone hlookup
  start := by
    intro before planning after address plan now _ htrace _
    have member : (⟨.act .now, now⟩ : Step) ∈ (starvingCycle past).trace := by
      rw [htrace]
      simp
    obtain rfl : now = 0 := starvingCycle_answers member rfl
    exact Nat.zero_lt_succ _
  mutation := by
    intro before planning mutation after address plan now result _ htrace _ hexecutes
    have hanswered : ∀ step ∈ mutation, fetched step = none →
        step.answer = starvingScenario.strategy [] step.op := by
      intro step member hstep
      have hcycle : step ∈ (starvingCycle past).trace := by
        rw [htrace]
        simp [member]
      exact starvingCycle_answers hcycle hstep
    cases hexecutes with
    | unchanged => exact ⟨_, rfl⟩
    | @update zoneId recordId payload outcome result hresult =>
        have hfinish : (⟨.finish (.http (.updateRecord zoneId recordId payload)), outcome⟩ : Step) ∈
            mutationSteps zoneId (.updateRecord zoneId recordId payload) outcome result := by
          simp [mutationSteps, exchange]
        obtain rfl : outcome = delivered 200 exampleRecordBody := hanswered _ hfinish rfl
        obtain ⟨response, hreceived⟩ :=
          receive_recorded (.updateRecord zoneId recordId payload) rfl
        obtain rfl : result = .ok response.result :=
          hresult.trans (congrArg (Except.map ApiResponse.result) hreceived)
        exact ⟨_, rfl⟩
    | @create zoneId payload outcome result hresult =>
        have hfinish : (⟨.finish (.http (.createRecord zoneId payload)), outcome⟩ : Step) ∈
            mutationSteps zoneId (.createRecord zoneId payload) outcome result := by
          simp [mutationSteps, exchange]
        obtain rfl : outcome = delivered 200 exampleRecordBody := hanswered _ hfinish rfl
        obtain ⟨response, hreceived⟩ := receive_recorded (.createRecord zoneId payload) rfl
        obtain rfl : result = .ok response.result :=
          hresult.trans (congrArg (Except.map ApiResponse.result) hreceived)
        exact ⟨_, rfl⟩

theorem starvingCycle_discovers (past : List Step) :
    (starvingCycle past).Discovers ⟨some (.ok movedAddress), none⟩ := by
  have hrun := execute_runs starvingStrategy past
    (timeoutAt (seconds 300) pairUpdater.discoverRequiredAddresses)
  have hanswers : ∀ step ∈ (execute starvingStrategy past
      (timeoutAt (seconds 300) pairUpdater.discoverRequiredAddresses)).1,
      step.answer = starvingScenario.strategy [] step.op := fun step member =>
    starvingStrategy_answers member (Updater.discovery_fetches_nothing hrun step member)
  apply Updater.executedCycle_discovers
  rw [runs_answered hrun hanswers []]
  decide +kernel

theorem starvingCycle_readsCursor (past : List Step) :
    CoherentFrom readsCursor cursorAfter (past.foldl cursorAfter 0) (starvingCycle past).trace := by
  apply execute_coherent
  intro past op answer hanswer
  unfold fetched at hanswer
  split at hanswer
  · next cursor heq =>
      cases heq
      exact (Option.some.inj hanswer).symm
  · cases hanswer

/-- Two cycles, one after the other. -/
def starvingCycles : List pairUpdater.CycleRun :=
  [starvingCycle [], starvingCycle (starvingCycle []).trace]

/-- The cycles start with one record each. The first ends at the rate limit of its record, so
it is the second that changes the other. -/
theorem cycles_rotate_starving :
    (∃ addresses discovery visits visited,
      (starvingCycle (starvingCycle []).trace).Rotates addresses 1 discovery visits visited ∧
      CyclicPrefix pairUpdater.config.records 1 visited) ∧
    (∀ index < 2, ∃! i, i < starvingCycles.length ∧
      starvingCycles[i]?.bind Updater.CycleRun.startIndex = some index) ∧
    ∃ run ∈ starvingCycles, ∃ addresses outcome, run.Discovers addresses ∧
      pairUpdater.Handled run.deadline addresses run.trace (exampleRecord, outcome) ∧
      1 ≤ run.report.counter outcome := by
  have hcursor : CoherentFrom readsCursor cursorAfter 0
      (starvingCycles.flatMap Updater.CycleRun.trace) := by
    rw [starvingCycles, List.flatMap_cons, List.flatMap_singleton, coherentFrom_append]
    exact ⟨starvingCycle_readsCursor [], starvingCycle_readsCursor (starvingCycle []).trace⟩
  obtain ⟨hcycle, honce, hcounted⟩ := Updater.cycles_rotate pairUpdater (List.cons_ne_nil _ _)
    (by decide) hcursor
  have hcycles : ∀ run ∈ starvingCycles, ∃ past, run = starvingCycle past := by
    simp [starvingCycles]
  have hdiscovers : ∀ run ∈ starvingCycles, run.Discovers ⟨some (.ok movedAddress), none⟩ := by
    intro run member
    obtain ⟨past, rfl⟩ := hcycles run member
    exact starvingCycle_discovers past
  have hpasses : ∀ run ∈ starvingCycles, run.passes = true := fun run member =>
    (run.passes_iff (List.cons_ne_nil _ _)).mpr ⟨_, hdiscovers run member⟩
  have hneeded : ∀ run ∈ starvingCycles, (⟨.act .stopRequested, true⟩ : Step) ∉ run.trace ∧
      ∃ addresses, run.Discovers addresses ∧ ∀ record ∈ pairUpdater.config.records, ∃ address,
        addresses.forRecord record = .ok address := by
    intro run member
    refine ⟨fun hstop => ?_, _, hdiscovers run member, ?_⟩
    · obtain ⟨past, rfl⟩ := hcycles run member
      cases starvingCycle_answers hstop rfl
    · exact List.forall_mem_cons.mpr ⟨⟨movedAddress, rfl⟩,
        List.forall_mem_singleton.mpr ⟨movedAddress, rfl⟩⟩
  refine ⟨?_, ?_, ?_⟩
  · obtain ⟨-, hrotates, -⟩ := hcycle [starvingCycle []] _ [] rfl
    have hcount : [starvingCycle []].countP Updater.CycleRun.passes = 1 := by
      simp [hpasses (starvingCycle []) List.mem_cons_self]
    rw [hcount] at hrotates
    exact ⟨_, hrotates _ (starvingCycle_discovers _)⟩
  · exact honce [] starvingCycles [] (by simp [List.filter_eq_self.mpr hpasses]) rfl
  · refine hcounted [] starvingCycles [] (by simp) rfl hneeded exampleRecord
      (List.mem_cons_of_mem _ List.mem_cons_self) ?_
    intro run member
    obtain ⟨past, rfl⟩ := hcycles run member
    exact starvingCycle_succeeds past

end

end Cirrusync
