import Cirrusync.Effect.Simulation
import Cirrusync.LockProtocol
import Cirrusync.Scenario
import Mathlib.Data.Fintype.Basic
import Mathlib.Data.Fintype.EquivFin
import Mathlib.Data.Fintype.Lattice

/-!
What the runtime locks give. No two live guards cover a common resource, a
failed attempt keeps no lock, an attempt that meets no foreign lock succeeds,
and attempts that start together do not all fail.
-/

namespace Cirrusync

open Effect RuntimeLockIdentity

/-- What a process is doing with its locks. -/
inductive LockTask where
  | idle
  | acquire (config : Config)
  | hold (config : Config) (guard : RuntimeLockGuard)
  | drop (guard : RuntimeLockGuard)

/-- The life of a guard that an attempt has returned. -/
inductive GuardFollows :
    LockTask → Option (Except RuntimeLockError RuntimeLockGuard) → LockTask → Prop where
  | granted (config : Config) (guard : RuntimeLockGuard) :
      GuardFollows (.acquire config) (some (.ok guard)) (.hold config guard)
  | release (config : Config) (guard : RuntimeLockGuard) :
      GuardFollows (.hold config guard) none (.drop guard)
  | dropped (guard : RuntimeLockGuard) : GuardFollows (.drop guard) none .idle

/-- Attempts for any configurations, one after the other. -/
inductive SessionFollows :
    LockTask → Option (Except RuntimeLockError RuntimeLockGuard) → LockTask → Prop where
  | begin (config : Config) : SessionFollows .idle none (.acquire config)
  | refused (config : Config) (error : RuntimeLockError) :
      SessionFollows (.acquire config) (some (.error error)) .idle
  | guard {task task' : LockTask}
      {result : Option (Except RuntimeLockError RuntimeLockGuard)} :
      GuardFollows task result task' → SessionFollows task result task'

section

variable (installed : Bool) (temporaryLockRoot parent : String)

def lockCode : LockTask → M (Option (Except RuntimeLockError RuntimeLockGuard))
  | .idle => return none
  | .acquire config => do
      let result ← (forConfig installed temporaryLockRoot config).acquire
      return some result
  | .hold _ _ => return none
  | .drop guard => do
      guard.drop
      return none

/-- Which task a process may take up after a result. -/
abbrev LockFollows :=
  LockTask → Option (Except RuntimeLockError RuntimeLockGuard) → LockTask → Prop

def lockTasks (follows : LockFollows) :
    Tasks Ans LockTask (Option (Except RuntimeLockError RuntimeLockGuard)) :=
  { code := lockCode installed temporaryLockRoot
    follows := follows }

abbrev LockPool (ι : Type) :=
  Pool Ans ι (LockTable ι) LockTask (Option (Except RuntimeLockError RuntimeLockGuard))

/-- Where every process begins a task and no lock is held. -/
def startPool {ι : Type} (task : ι → LockTask) : LockPool ι :=
  { world := fun _ => none
    task := task
    rest := fun i => lockCode installed temporaryLockRoot (task i) }

/-- The lock files of a configuration. -/
def lockFilesOf (config : Config) : Set String :=
  lockSet parent (forConfig installed temporaryLockRoot config).resourceHashes

/-- A guard that `acquire` has returned and whose drop has not begun. -/
def LiveGuard {ι : Type} (st : LockPool ι) (i : ι) (config : Config)
    (guard : RuntimeLockGuard) : Prop :=
  st.task i = .hold config guard ∨
    (st.task i = .acquire config ∧ st.rest i = .done (some (.ok guard)))

/-- Two configurations with a record of the same zone, type and name. -/
def Overlaps (config config' : Config) : Prop :=
  ∃ record ∈ config.records, ∃ record' ∈ config'.records,
    canonicalLockName record.zone = canonicalLockName record'.zone ∧
    record.recordType = record'.recordType ∧
    canonicalLockName record.name = canonicalLockName record'.name

/-- What a process knows when it has finished a task. -/
def lockPost (contends : Set String → String → Prop) :
    LockTask → Option (Except RuntimeLockError RuntimeLockGuard) → LockView → Prop
  | .idle, _, s => s.held = ∅
  | .acquire config, result, s => ∃ attempt, result = some attempt ∧ ∃ taken,
      AttemptEnds parent contends
        (forConfig installed temporaryLockRoot config).resourceHashes taken attempt s
  | .hold config guard, _, s => s.held = { path | path ∈ guard.files } ∧
      s.held = lockFilesOf installed temporaryLockRoot parent config
  | .drop _, _, s => s.held = ∅

/-- The table holds what the processes know they hold, and a process is refused
only a lock that some process has taken. -/
structure LocksAgree {ι : Type} (table : LockTable ι) (views : ι → LockView) : Prop where
  held_iff : ∀ i path, path ∈ (views i).held ↔ table path = some i
  held_subset : ∀ i, (views i).held ⊆ (views i).taken
  refused_taken : ∀ i path, (views i).refused = some path → ∃ j, path ∈ (views j).taken

def anyContention : Set String → String → Prop := fun _ _ => True

variable {installed temporaryLockRoot parent}
variable {contends : Set String → String → Prop} {allowed : Set String}

theorem acquireCode_holds (config : Config) (s : LockView)
    (hallowed : lockFilesOf installed temporaryLockRoot parent config ⊆ allowed)
    (hheld : s.held = ∅) :
    Holds (lockContract parent contends allowed)
      (fun result s' => ∃ attempt, result = some attempt ∧
        AttemptEnds parent contends
          (forConfig installed temporaryLockRoot config).resourceHashes s.taken attempt s')
      (lockCode installed temporaryLockRoot (.acquire config)) s := by
  unfold lockCode
  apply holds_bind
  refine holds_mono (acquire_holds _ s hallowed hheld) ?_
  intro result s' hends
  rw [Program.pure_eq, lockContract, holds_solo_done]
  exact ⟨result, rfl, hends⟩

/-- Every task that may follow meets its contract. -/
theorem lockTurn_holds {task task' : LockTask}
    {result : Option (Except RuntimeLockError RuntimeLockGuard)} {s : LockView}
    (hfollows : SessionFollows task result task')
    (hpost : lockPost installed temporaryLockRoot parent contends task result s) :
    Holds (lockContract parent contends Set.univ)
      (lockPost installed temporaryLockRoot parent contends task')
      (lockCode installed temporaryLockRoot task') s := by
  cases hfollows with
  | begin config =>
      refine holds_mono (acquireCode_holds config s (Set.subset_univ _) hpost) ?_
      rintro _ s' ⟨attempt, rfl, hends⟩
      exact ⟨attempt, rfl, s.taken, hends⟩
  | refused config error =>
      obtain ⟨attempt, hattempt, taken, hends⟩ := hpost
      cases hattempt
      simpa [lockCode, lockContract, lockPost] using hends.1
  | guard hguard =>
      cases hguard with
      | granted config guard =>
          obtain ⟨attempt, hattempt, taken, hends⟩ := hpost
          cases hattempt
          obtain ⟨hfiles, hheld⟩ := hends
          simp only [lockCode, Program.pure_eq, lockContract, holds_solo_done]
          refine ⟨?_, hheld⟩
          rw [hheld, hfiles]
          ext path
          exact (mem_map_lockPath_iff parent path _).symm
      | release config guard =>
          unfold lockCode
          apply holds_bind
          refine holds_mono (drop_holds guard s hpost.1) ?_
          intro _ s' hempty
          simpa [lockContract, lockPost] using hempty
      | dropped guard => simpa [lockCode, lockContract, lockPost] using hpost

variable {ι : Type} [DecidableEq ι]

/-- A step of one process on the table keeps the agreement. The view of that process advances as
its contract says, and the views of all the others stay as they are. -/
theorem locksAgree_step {table table' : LockTable ι} {views : ι → LockView} {i : ι}
    {op : Op} {answer : Ans op} (hagree : LocksAgree table views)
    (hanswers : lockAnswers parent table i op answer table') :
    ∃ views', LocksAgree table' views' ∧
      lockAdvances parent anyContention (views i) op answer (views' i) ∧
      ∀ j, j ≠ i → views' j = views j := by
  obtain ⟨s', hadvances, hheld, hothers, hsubset, hgrows, hrefused⟩ :=
    advances_of_answers anyContention (hagree.held_iff i)
      (hagree.held_subset i) hanswers (fun _ _ _ => trivial)
  have hgrown : ∀ j, (views j).taken ⊆ (Function.update views i s' j).taken := by
    intro j
    by_cases hj : j = i
    · subst hj
      simpa using hgrows
    · simp [hj]
  refine ⟨Function.update views i s', ⟨fun j path => ?_, fun j => ?_, fun j path h => ?_⟩,
    by simpa using hadvances, fun j hj => by simp [hj]⟩
  · by_cases hj : j = i
    · subst hj
      simpa using hheld path
    · simp only [Function.update_of_ne hj]
      rw [hothers j hj path]
      exact hagree.held_iff j path
  · by_cases hj : j = i
    · subst hj
      simpa using hsubset
    · simpa [hj] using hagree.held_subset j
  · have hbefore : (∃ k, path ∈ (views k).taken) ∨ table path ≠ none := by
      by_cases hj : j = i
      · subst hj
        rw [Function.update_self] at h
        rcases hrefused path h with h | h
        · exact .inl (hagree.refused_taken j path h)
        · exact .inr h
      · rw [Function.update_of_ne hj] at h
        exact .inl (hagree.refused_taken j path h)
    rcases hbefore with ⟨k, member⟩ | hbusy
    · exact ⟨k, hgrown k member⟩
    · obtain ⟨k, hk⟩ := Option.ne_none_iff_exists'.mp hbusy
      have hheldBy := (hagree.held_iff k path).mpr hk
      exact ⟨k, hgrown k (hagree.held_subset k hheldBy)⟩

variable (installed temporaryLockRoot parent) in
theorem lockRely {follows : LockFollows}
    (hfollows : ∀ task result task', follows task result task' →
      SessionFollows task result task') :
    Rely (lockTasks installed temporaryLockRoot follows) (lockWorld (ι := ι) parent)
      (lockContract parent anyContention Set.univ)
      (lockPost installed temporaryLockRoot parent anyContention) LocksAgree := by
  refine ⟨fun {w views i op answer w'} hagree _ hanswers => ?_, fun h hpost => ?_,
    fun _ hmoves => hmoves.elim⟩
  · obtain ⟨views', hagree', hadvances, hothers⟩ := locksAgree_step hagree hanswers
    exact ⟨views', hagree', hadvances, fun j hj => (hothers j hj).symm⟩
  · exact lockTurn_holds (hfollows _ _ _ h) hpost

omit [DecidableEq ι] in
/-- The views of processes that have not touched a lock. -/
theorem locksAgree_start :
    LocksAgree (fun _ => none : LockTable ι) (fun _ => ⟨∅, ∅, none⟩) := by
  refine ⟨fun i path => ?_, fun i => subset_rfl, fun i path h => nomatch h⟩
  constructor
  · exact fun h => h.elim
  · exact fun h => nomatch h

variable (installed temporaryLockRoot parent) in
omit [DecidableEq ι] in
theorem startIdle_verified :
    Verified (lockContract parent anyContention Set.univ)
      (lockPost installed temporaryLockRoot parent anyContention) LocksAgree
      (startPool installed temporaryLockRoot (fun _ : ι => .idle)) := by
  refine ⟨_, locksAgree_start, fun i => ?_⟩
  simp [startPool, lockCode, lockContract, lockPost]

/-- A process that holds a guard asks nothing until it releases it. -/
theorem rest_of_hold {follows : LockFollows} {start st : LockPool ι}
    (hreach : PoolReaches (lockTasks installed temporaryLockRoot follows)
      (lockWorld parent) start st)
    (hstart : ∀ i config guard, start.task i = .hold config guard →
      start.rest i = .done none) :
    ∀ i config guard, st.task i = .hold config guard → st.rest i = .done none := by
  induction hreach with
  | refl => exact hstart
  | tail _ hstep ih =>
      intro i config guard htask
      cases hstep with
      | ask j answer w hrest hanswer =>
          have hi := ih i config guard htask
          have hne : i ≠ j := by
            rintro rfl
            rw [hi] at hrest
            cases hrest
          simpa [hne] using hi
      | turn j task hrest hfollows =>
          by_cases hij : i = j
          · subst hij
            simp only [Function.update_self] at htask ⊢
            rw [htask]
            rfl
          · simp only [Function.update_of_ne hij] at htask ⊢
            exact ih i config guard htask
      | move w hmoves => exact hmoves.elim

omit [DecidableEq ι] in
/-- A live guard holds the lock files of its configuration. -/
theorem held_of_liveGuard {st : LockPool ι} {views : ι → LockView}
    (hholds : ∀ i, Holds (lockContract parent anyContention Set.univ)
      (lockPost installed temporaryLockRoot parent anyContention (st.task i))
      (st.rest i) (views i))
    {i : ι} {config : Config} {guard : RuntimeLockGuard} (hlive : LiveGuard st i config guard)
    (hhold : ∀ config guard, st.task i = .hold config guard → st.rest i = .done none) :
    (views i).held = lockFilesOf installed temporaryLockRoot parent config := by
  rcases hlive with htask | ⟨htask, hrest⟩
  · have hpost := post_of_done hholds (hhold config guard htask)
    rw [htask] at hpost
    exact hpost.2
  · have hpost := post_of_done hholds hrest
    rw [htask] at hpost
    obtain ⟨attempt, hattempt, taken, hends⟩ := hpost
    cases hattempt
    exact hends.2

variable (installed temporaryLockRoot parent) in
/-- The lock file that two overlapping configurations have in common. -/
theorem overlaps_common_file {config config' : Config} (h : Overlaps config config') :
    ∃ path, path ∈ lockFilesOf installed temporaryLockRoot parent config ∧
      path ∈ lockFilesOf installed temporaryLockRoot parent config' := by
  obtain ⟨record, member, record', member', hzone, htype, hname⟩ := h
  have hsame := resourceLockHash_congr hzone htype hname
  refine ⟨lockPath parent (resourceLockHash record), ⟨_, ?_, rfl⟩, ⟨_, ?_, rfl⟩⟩
  · exact (mem_forConfig_iff installed temporaryLockRoot config _).mpr ⟨record, member, rfl⟩
  · exact (mem_forConfig_iff installed temporaryLockRoot config' _).mpr
      ⟨record', member', hsame.symm⟩

omit [DecidableEq ι] in
theorem guards_disjoint {st : LockPool ι} {views : ι → LockView}
    (hagree : LocksAgree st.world views)
    (hholds : ∀ i, Holds (lockContract parent anyContention Set.univ)
      (lockPost installed temporaryLockRoot parent anyContention (st.task i))
      (st.rest i) (views i))
    (hhold : ∀ i config guard, st.task i = .hold config guard → st.rest i = .done none)
    {i j : ι} {config config' : Config} {guard guard' : RuntimeLockGuard}
    (hi : LiveGuard st i config guard) (hj : LiveGuard st j config' guard')
    (hne : i ≠ j) : ¬ Overlaps config config' := by
  intro hoverlap
  obtain ⟨path, hpath, hpath'⟩ :=
    overlaps_common_file installed temporaryLockRoot parent hoverlap
  rw [← held_of_liveGuard hholds hi (hhold i), hagree.held_iff] at hpath
  rw [← held_of_liveGuard hholds hj (hhold j), hagree.held_iff] at hpath'
  rw [hpath] at hpath'
  exact hne (Option.some.inj hpath')

omit [DecidableEq ι] in
theorem failed_holds_nothing {st : LockPool ι} {views : ι → LockView}
    (hagree : LocksAgree st.world views)
    (hholds : ∀ i, Holds (lockContract parent anyContention Set.univ)
      (lockPost installed temporaryLockRoot parent anyContention (st.task i))
      (st.rest i) (views i))
    {i : ι} {config : Config} {error : RuntimeLockError}
    (htask : st.task i = .acquire config)
    (hrest : st.rest i = .done (some (.error error))) : ∀ path, st.world path ≠ some i := by
  have hpost := post_of_done hholds hrest
  rw [htask] at hpost
  obtain ⟨attempt, hattempt, taken, hends⟩ := hpost
  cases hattempt
  intro path hpath
  rw [← hagree.held_iff, hends.1] at hpath
  exact hpath

/-! An attempt that meets no foreign lock. -/

/-- A lock is refused to a process only when the process holds it itself. -/
def ownContention : Set String → String → Prop := fun held path => path ∈ held

/-- No other process holds a lock file of the configuration. -/
def Uncontended (installed : Bool) (temporaryLockRoot parent : String) (i : ι)
    (config : Config) (st : LockPool ι) : Prop :=
  ∀ path ∈ lockFilesOf installed temporaryLockRoot parent config, ∀ j, j ≠ i →
    st.world path ≠ some j

/-- A step of the pool in the course of one attempt of process `i`, taken where
the attempt is uncontended. -/
def QuietStep (installed : Bool) (temporaryLockRoot parent : String)
    (follows : LockFollows) (i : ι) (config : Config) (st st' : LockPool ι) : Prop :=
  PoolStep (lockTasks installed temporaryLockRoot follows) (lockWorld parent) st st' ∧
    st.task i = .acquire config ∧ st'.task i = .acquire config ∧
    Uncontended installed temporaryLockRoot parent i config st

/-- The pool in which an idle process has just begun an attempt. -/
def beginAttempt (installed : Bool) (temporaryLockRoot : String) (st : LockPool ι)
    (i : ι) (config : Config) : LockPool ι :=
  { st with
    task := Function.update st.task i (.acquire config)
    rest := Function.update st.rest i (lockCode installed temporaryLockRoot (.acquire config)) }

/-- Where an attempt is, when it was never contended. -/
structure QuietAttempt (installed : Bool) (temporaryLockRoot parent : String) (i : ι)
    (config : Config) (st : LockPool ι) (s : LockView) : Prop where
  held_iff : ∀ path, path ∈ s.held ↔ st.world path = some i
  held_subset : s.held ⊆ s.taken
  holds : Holds (lockContract parent ownContention
      (lockFilesOf installed temporaryLockRoot parent config))
    (lockPost installed temporaryLockRoot parent ownContention (.acquire config))
    (st.rest i) s

/-- An attempt that has met no contention so far meets none in the next step either, if the others
begin no attempt that overlaps with it. So it is where its code is, with the locks that it has
taken. -/
theorem quietAttempt_step {follows : LockFollows} {i : ι} {config : Config}
    {st st' : LockPool ι} {s : LockView}
    (hquiet : QuietAttempt installed temporaryLockRoot parent i config st s)
    (hstep : QuietStep installed temporaryLockRoot parent follows i config st st')
    (hturn : ∀ result task', follows (.acquire config) result task' →
      task' ≠ .acquire config) :
    ∃ s', QuietAttempt installed temporaryLockRoot parent i config st' s' := by
  obtain ⟨hstep, htask, htask', hfree⟩ := hstep
  cases hstep with
  | @ask j op next answer w hrest hanswer =>
      by_cases hj : j = i
      · subst hj
        have hi := hquiet.holds
        rw [hrest, lockContract, holds_solo_ask] at hi
        have hcontends : ∀ path, op = .act (.tryLock path) → st.world path ≠ none →
            ownContention s.held path := by
          rintro path rfl hbusy
          obtain ⟨k, hk⟩ := Option.ne_none_iff_exists'.mp hbusy
          by_cases hkj : k = j
          · subst hkj
            exact (hquiet.held_iff path).mpr hk
          · exact absurd hk (hfree path hi.1 k hkj)
        obtain ⟨s', hadvances, hheld, -, hsubset, -⟩ :=
          advances_of_answers ownContention hquiet.held_iff hquiet.held_subset hanswer
            hcontends
        exact ⟨s', hheld, hsubset, by simpa [lockContract] using hi.2 answer s' hadvances⟩
      · obtain ⟨-, -, -, hothers, -⟩ := advances_of_answers anyContention
          (i := j) (s := ⟨{ path | st.world path = some j }, Set.univ, none⟩)
          (fun _ => Iff.rfl) (Set.subset_univ _) hanswer (fun _ _ _ => trivial)
        refine ⟨s, fun path => ?_, hquiet.held_subset, ?_⟩
        · rw [hothers i (Ne.symm hj) path]
          exact hquiet.held_iff path
        · simpa [Ne.symm hj] using hquiet.holds
  | turn j task hrest hfollows =>
      have hne : j ≠ i := by
        rintro rfl
        rw [htask] at hfollows
        simp only [Function.update_self] at htask'
        exact hturn _ _ hfollows htask'
      refine ⟨s, hquiet.held_iff, hquiet.held_subset, ?_⟩
      simpa [Ne.symm hne] using hquiet.holds
  | move w hmoves => exact hmoves.elim

/-- An attempt that was never contended is not refused: the hashes before the
refused one are smaller, so that its file is not among those already locked. -/
theorem attempt_succeeds {config : Config} (hrecords : config.records ≠ [])
    {s : LockView} {attempt : Except RuntimeLockError RuntimeLockGuard} {taken : Set String}
    (hends : AttemptEnds parent ownContention
      (forConfig installed temporaryLockRoot config).resourceHashes taken attempt s) :
    ∃ guard, attempt = .ok guard := by
  cases attempt with
  | ok guard => exact ⟨guard, rfl⟩
  | error error =>
      have hsorted := sorted_forConfig installed temporaryLockRoot config
      rcases hends.2 with hempty | ⟨before, hash, after, hsplit, hcontends, -⟩
      · exact absurd hempty (resourceHashes_ne_nil hrecords)
      · obtain ⟨hash', member, hpath⟩ := hcontends
        rw [hsplit, List.pairwise_append] at hsorted
        have hless := hsorted.2.2 hash' member hash List.mem_cons_self
        rw [lockPath_injective hpath] at hless
        exact absurd hless (UInt64.lt_irrefl _)

theorem quietAttempt_reaches {follows : LockFollows} {i : ι} {config : Config}
    {st st' : LockPool ι}
    (hturn : ∀ result task', follows (.acquire config) result task' →
      task' ≠ .acquire config)
    (hreach : Relation.ReflTransGen
      (QuietStep installed temporaryLockRoot parent follows i config) st st')
    (hquiet : ∃ s, QuietAttempt installed temporaryLockRoot parent i config st s) :
    ∃ s, QuietAttempt installed temporaryLockRoot parent i config st' s := by
  induction hreach with
  | refl => exact hquiet
  | tail _ hstep ih =>
      obtain ⟨s, hs⟩ := ih
      exact quietAttempt_step hs hstep hturn

/-- Mutual exclusion of overlapping updaters. In every state that processes
reach which acquire and release locks again and again: live guards of two
processes belong to configurations without a common resource, a failed attempt
holds nothing, and an attempt in whose course no other process holds one of its
lock files returns a guard, whether or not hashes of its records collide. -/
theorem runtimeLock_exclusive (installed : Bool) (temporaryLockRoot parent : String)
    (st : LockPool ι)
    (hreach : PoolReaches (lockTasks installed temporaryLockRoot SessionFollows)
      (lockWorld parent) (startPool installed temporaryLockRoot fun _ => .idle) st) :
    (∀ i j config config' guard guard', i ≠ j → LiveGuard st i config guard →
      LiveGuard st j config' guard' → ¬ Overlaps config config') ∧
    (∀ i config error, st.task i = .acquire config →
      st.rest i = .done (some (.error error)) → ∀ path, st.world path ≠ some i) ∧
    (∀ i config st', config.records ≠ [] → st.task i = .idle → st.rest i = .done none →
      Relation.ReflTransGen
        (QuietStep installed temporaryLockRoot parent SessionFollows i config)
        (beginAttempt installed temporaryLockRoot st i config) st' →
      ∀ result, st'.rest i = .done result → ∃ guard, result = some (.ok guard)) := by
  obtain ⟨views, hagree, hholds⟩ := verified_of_reaches
    (lockRely installed temporaryLockRoot parent (fun _ _ _ h => h))
    (startIdle_verified installed temporaryLockRoot parent) hreach
  have hhold := rest_of_hold hreach (fun _ _ _ h => nomatch h)
  refine ⟨fun i j config config' guard guard' hne hi hj =>
      guards_disjoint hagree hholds hhold hi hj hne,
    fun i config error htask hrest => failed_holds_nothing hagree hholds htask hrest,
    fun i config st' hrecords htask hrest hquiet result hresult => ?_⟩
  have hstart : ∃ s, QuietAttempt installed temporaryLockRoot parent i config
      (beginAttempt installed temporaryLockRoot st i config) s := by
    have hempty := post_of_done hholds hrest
    rw [htask] at hempty
    refine ⟨views i, hagree.held_iff i, hagree.held_subset i, ?_⟩
    simp only [beginAttempt, Function.update_self]
    refine holds_mono (acquireCode_holds config (views i) subset_rfl hempty) ?_
    rintro _ s' ⟨attempt, rfl, hends⟩
    exact ⟨attempt, rfl, (views i).taken, hends⟩
  have hturn : ∀ result task', SessionFollows (.acquire config) result task' →
      task' ≠ .acquire config := by
    intro result task' hfollows
    cases hfollows with
    | refused => exact fun h => nomatch h
    | guard hguard =>
        cases hguard with
        | granted => exact fun h => nomatch h
  obtain ⟨s, hs⟩ := quietAttempt_reaches hturn hquiet hstart
  have hend := hs.holds
  rw [hresult, lockContract, holds_solo_done] at hend
  obtain ⟨attempt, rfl, taken, hends⟩ := hend
  obtain ⟨guard, rfl⟩ := attempt_succeeds hrecords hends
  exact ⟨guard, rfl⟩

/-- The one lock file of the example. -/
def exampleLockFile : String := lockPath "/var/lib/cirrusync/locks" (resourceLockHash exampleRecord)

/-- A configuration with two records, of which the example has one. -/
def widerConfig : Config :=
  { exampleConfig with records := [exampleRecord, { exampleRecord with recordType := .aaaa }] }

/-- The answers that the lock directory gives. -/
def lockResponder {ι : Type} [DecidableEq ι] (parent : String) (i : ι) :
    Responder Ans (LockTable ι)
  | table, .act (.prepareLockParent _ _) => (.ok parent, table)
  | table, .act (.openRuntimeLock _) => (.ok (), table)
  | table, .act (.tryLock path) =>
      if table path = none then (.ok (), Function.update table path (some i))
      else (.error .contended, table)
  | table, .act (.unlock path) => ((), table.release i path)
  | table, .act (.closeLock path) => ((), table.release i path)
  | table, op => (creationScenario.strategy [] op, table)

theorem lockResponder_plays {ι : Type} [DecidableEq ι] (parent : String) (i : ι) :
    Plays (lockWorld parent) i (lockResponder parent i) := by
  intro table op
  refine ⟨table, .refl, ?_⟩
  cases op with
  | act action =>
      cases action with
      | tryLock path =>
          by_cases hfree : table path = none
          · simp [lockResponder, lockWorld, lockAnswers, hfree]
          · simp [lockResponder, lockWorld, lockAnswers, hfree]
      | prepareLockParent root temporary => exact ⟨rfl, rfl⟩
      | openRuntimeLock path => exact ⟨rfl, rfl⟩
      | _ => rfl
  | finish wait => rfl
  | finishBefore deadline wait => rfl

/-- The first process has a guard for the example, and the second has been refused its wider
configuration after it had taken one of its locks. -/
theorem runtimeLock_exclusive_refused : ∃ st : LockPool (Fin 2),
    LiveGuard st 0 exampleConfig ⟨[exampleLockFile]⟩ ∧
    st.rest 1 = .done (some (.error (.alreadyRunning exampleLockFile))) ∧
    (∀ j config guard, j ≠ 0 → LiveGuard st j config guard → ¬ Overlaps exampleConfig config) ∧
    ∀ path, st.world path ≠ some 1 := by
  let code := lockTasks true "" SessionFollows
  let parent := "/var/lib/cirrusync/locks"
  let first := beginAttempt true "" (startPool true "" fun _ : Fin 2 => .idle) 0 exampleConfig
  let second := beginAttempt true "" first 1 widerConfig
  let st := second.interleave (lockResponder parent) [(1, 3), (0, 3), (1, 4)]
  have hfirst : PoolStep code (lockWorld parent) (startPool true "" fun _ => .idle) first :=
    .turn _ 0 _ rfl (SessionFollows.begin exampleConfig)
  have hsecond : PoolStep code (lockWorld parent) first second :=
    .turn _ 1 _ rfl (SessionFollows.begin widerConfig)
  have hreach : PoolReaches code (lockWorld parent) (startPool true "" fun _ => .idle) st :=
    .head hfirst (.head hsecond (poolReaches_interleave (lockResponder_plays parent) _ _))
  have hends : (st.rest 0).value = some (some (.ok ⟨[exampleLockFile]⟩)) ∧
      (st.rest 1).value = some (some (.error (.alreadyRunning exampleLockFile))) := by
    decide +kernel
  have hgranted : LiveGuard st 0 exampleConfig ⟨[exampleLockFile]⟩ :=
    .inr ⟨rfl, Program.eq_done_of_value hends.1⟩
  have hrefused := Program.eq_done_of_value hends.2
  obtain ⟨hexclusive, hfailed, -⟩ := runtimeLock_exclusive true "" parent st hreach
  exact ⟨st, hgranted, hrefused, fun j config guard hj hguard =>
    hexclusive 0 j _ config _ guard (Ne.symm hj) hgranted hguard, hfailed 1 _ _ rfl hrefused⟩

/-! Attempts that start together. -/

/-- After a single attempt the locks taken are those of that attempt. -/
def attemptPost (installed : Bool) (temporaryLockRoot parent : String) (task : LockTask)
    (result : Option (Except RuntimeLockError RuntimeLockGuard)) (s : LockView) : Prop :=
  lockPost installed temporaryLockRoot parent anyContention task result s ∧
    ∀ config, task = .acquire config → ∃ attempt, result = some attempt ∧
      AttemptEnds parent anyContention
        (forConfig installed temporaryLockRoot config).resourceHashes ∅ attempt s

theorem attemptRely : Rely (lockTasks installed temporaryLockRoot GuardFollows)
    (lockWorld (ι := ι) parent) (lockContract parent anyContention Set.univ)
    (attemptPost installed temporaryLockRoot parent) LocksAgree := by
  have hrely := lockRely (ι := ι) installed temporaryLockRoot parent (fun _ _ _ => .guard)
  refine ⟨hrely.ask, fun {task result task' s} hfollows hpost => ?_, hrely.move⟩
  refine holds_mono (lockTurn_holds (.guard hfollows) hpost.1) ?_
  intro result' s' hpost'
  refine ⟨hpost', fun config htask => ?_⟩
  subst htask
  cases hfollows

omit [DecidableEq ι] in
theorem startAttempts_verified (configs : ι → Config) :
    Verified (lockContract parent anyContention Set.univ)
      (attemptPost installed temporaryLockRoot parent) LocksAgree
      (startPool installed temporaryLockRoot (fun i => .acquire (configs i))) := by
  refine ⟨_, locksAgree_start, fun i => ?_⟩
  refine holds_mono (acquireCode_holds (configs i) _ (Set.subset_univ _) rfl) ?_
  rintro _ s' ⟨attempt, rfl, hends⟩
  refine ⟨⟨attempt, rfl, ∅, hends⟩, fun config htask => ?_⟩
  cases htask
  exact ⟨attempt, rfl, hends⟩

/-- A refused attempt took only locks of smaller hashes than that of its refusal. -/
theorem refused_hash {config : Config} (hrecords : config.records ≠ []) {s : LockView}
    {error : RuntimeLockError}
    (hends : AttemptEnds parent anyContention
      (forConfig installed temporaryLockRoot config).resourceHashes ∅ (.error error) s) :
    ∃ hash, s.refused = some (lockPath parent hash) ∧
      ∀ hash', lockPath parent hash' ∈ s.taken → hash' < hash := by
  have hsorted := sorted_forConfig installed temporaryLockRoot config
  rcases hends.2 with hempty | ⟨before, hash, after, hsplit, -, hrefused, htaken⟩
  · exact absurd hempty (resourceHashes_ne_nil hrecords)
  · refine ⟨hash, hrefused, fun hash' member => ?_⟩
    rw [htaken, Set.empty_union] at member
    obtain ⟨hash'', member, hpath⟩ := member
    rw [lockPath_injective hpath]
    rw [hsplit, List.pairwise_append] at hsorted
    exact hsorted.2.2 hash'' member hash List.mem_cons_self

/-- Lock attempts never all defeat one another. When processes that start
together with no lock held have all finished their attempts, one of them has
returned a guard; it may have gone on to hold or drop it, which is the only way
to leave the attempt. The attempt refused at the greatest hash would have met a
process that was refused at a greater one. -/
theorem runtimeLock_some_succeeds (installed : Bool) (temporaryLockRoot parent : String)
    (k : Nat) (hk : 0 < k) (configs : Fin k → Config)
    (hrecords : ∀ i, (configs i).records ≠ []) (st : LockPool (Fin k))
    (hreach : PoolReaches (lockTasks installed temporaryLockRoot GuardFollows)
      (lockWorld parent)
      (startPool installed temporaryLockRoot fun i => .acquire (configs i)) st)
    (hfinished : ∀ i, st.task i = .acquire (configs i) → ∃ result, st.rest i = .done result) :
    ∃ i, st.task i ≠ .acquire (configs i) ∨
      ∃ guard, st.rest i = .done (some (.ok guard)) := by
  obtain ⟨views, hagree, hholds⟩ :=
    verified_of_reaches attemptRely (startAttempts_verified configs) hreach
  by_contra hall
  have hrefused : ∀ i, ∃ hash, (views i).refused = some (lockPath parent hash) ∧
      ∀ hash', lockPath parent hash' ∈ (views i).taken → hash' < hash := by
    intro i
    have htask : st.task i = .acquire (configs i) :=
      by_contra fun h => hall ⟨i, .inl h⟩
    obtain ⟨result, hrest⟩ := hfinished i htask
    have hpost := post_of_done hholds hrest
    obtain ⟨attempt, rfl, hends⟩ := hpost.2 (configs i) htask
    cases attempt with
    | ok guard => exact absurd ⟨i, .inr ⟨guard, hrest⟩⟩ hall
    | error error => exact refused_hash (hrecords i) hends
  choose hash hrefused hless using hrefused
  have : Nonempty (Fin k) := ⟨⟨0, hk⟩⟩
  obtain ⟨i, hmax⟩ := Finite.exists_max (fun i => (hash i).toNat)
  obtain ⟨j, htaken⟩ := hagree.refused_taken i _ (hrefused i)
  have hlt := UInt64.lt_iff_toNat_lt.mp (hless j (hash i) htaken)
  have hle := hmax j
  omega

/-- Two processes of which each wants the lock of the example. -/
def rivals (i : Fin 2) : Config := if i = 0 then exampleConfig else widerConfig

/-- Of two attempts that overlap, one is refused when it has taken a lock, and the other is
granted. -/
theorem runtimeLock_some_succeeds_contended : ∃ st : LockPool (Fin 2),
    st.rest 1 = .done (some (.error (.alreadyRunning exampleLockFile))) ∧
    st.rest 0 = .done (some (.ok ⟨[exampleLockFile]⟩)) ∧
    ∃ i, st.task i ≠ .acquire (rivals i) ∨
      ∃ guard, st.rest i = .done (some (.ok guard)) := by
  let parent := "/var/lib/cirrusync/locks"
  let st := (startPool true "" fun i => .acquire (rivals i)).interleave (lockResponder parent)
    [(1, 3), (0, 3), (1, 4)]
  have hreach : PoolReaches (lockTasks true "" GuardFollows) (lockWorld parent)
      (startPool true "" fun i => .acquire (rivals i)) st :=
    poolReaches_interleave (lockResponder_plays parent) _ _
  have hends : (st.rest 0).value = some (some (.ok ⟨[exampleLockFile]⟩)) ∧
      (st.rest 1).value = some (some (.error (.alreadyRunning exampleLockFile))) := by
    decide +kernel
  have hgranted := Program.eq_done_of_value hends.1
  have hrefused := Program.eq_done_of_value hends.2
  have hrecords : ∀ i, (rivals i).records ≠ [] :=
    Fin.forall_fin_two.mpr ⟨List.cons_ne_nil _ _, List.cons_ne_nil _ _⟩
  have hfinished : ∀ i, st.task i = .acquire (rivals i) → ∃ result, st.rest i = .done result :=
    Fin.forall_fin_two.mpr ⟨fun _ => ⟨_, hgranted⟩, fun _ => ⟨_, hrefused⟩⟩
  exact ⟨st, hrefused, hgranted, runtimeLock_some_succeeds true "" parent 2 Nat.two_pos rivals
    hrecords st hreach hfinished⟩

end

end Cirrusync
