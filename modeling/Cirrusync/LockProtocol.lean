import Cirrusync.Effect.Pool
import Cirrusync.LockIdentity
import Mathlib.Data.Set.Insert

/-!
Processes that take their runtime locks in one prepared lock directory. The
operating system keeps a table of which process holds the lock of which file;
an attempt is many steps, between which the others take theirs. Each process
knows the locks it holds itself, the locks it has ever taken, and the file at
which its last attempt was refused.
-/

namespace Cirrusync

open Effect RuntimeLockIdentity

/-- Which process holds the exclusive lock of a file. -/
abbrev LockTable (ι : Type) := String → Option ι

section

variable {ι : Type} [DecidableEq ι]

def LockTable.release (table : LockTable ι) (i : ι) (path : String) : LockTable ι :=
  if table path = some i then Function.update table path none else table

/-- How the system answers process `i` where the lock directory is prepared as
`parent` and its files open. -/
def lockAnswers (parent : String) (table : LockTable ι) (i : ι) :
    (op : Op) → Ans op → LockTable ι → Prop
  | .act (.prepareLockParent _ _), answer, table' => answer = .ok parent ∧ table' = table
  | .act (.openRuntimeLock _), answer, table' => answer = .ok () ∧ table' = table
  | .act (.tryLock path), answer, table' =>
      if table path = none then
        answer = .ok () ∧ table' = Function.update table path (some i)
      else answer = .error .contended ∧ table' = table
  | .act (.unlock path), _, table' => table' = table.release i path
  | .act (.closeLock path), _, table' => table' = table.release i path
  | _, _, table' => table' = table

def lockWorld (parent : String) : World Ans ι (LockTable ι) :=
  { answers := lockAnswers parent
    moves := fun _ _ => False }

end

structure LockView where
  held : Set String
  taken : Set String
  refused : Option String

/-- How an answer changes what a process knows; `contends` says when a lock may
be refused to a process with these locks. -/
def lockAdvances (parent : String) (contends : Set String → String → Prop)
    (s : LockView) : (op : Op) → Ans op → LockView → Prop
  | .act (.prepareLockParent _ _), answer, s' => answer = .ok parent ∧ s' = s
  | .act (.openRuntimeLock _), answer, s' => answer = .ok () ∧ s' = s
  | .act (.tryLock path), .ok (), s' => path ∉ s.held ∧
      s' = { s with held := insert path s.held, taken := insert path s.taken }
  | .act (.tryLock path), .error fault, s' => fault = .contended ∧
      contends s.held path ∧ s' = { s with refused := some path }
  | .act (.unlock path), _, s' => s' = { s with held := s.held \ {path} }
  | .act (.closeLock path), _, s' => s' = { s with held := s.held \ {path} }
  | _, _, s' => s' = s

/-- The locks a process may try. -/
def lockPermits (allowed : Set String) : Op → Prop
  | .act (.tryLock path) => path ∈ allowed
  | _ => True

/-- No process touches the locks of another. -/
def lockContract (parent : String) (contends : Set String → String → Prop)
    (allowed : Set String) : Contract Ans LockView :=
  .solo (fun _ => lockPermits allowed) (lockAdvances parent contends)

/-- The lock files of some hashes. -/
def lockSet (parent : String) (hashes : List UInt64) : Set String :=
  { path | ∃ hash ∈ hashes, path = lockPath parent hash }

theorem lockSet_append_singleton (parent : String) (hashes : List UInt64)
    (hash : UInt64) :
    lockSet parent (hashes ++ [hash]) =
      insert (lockPath parent hash) (lockSet parent hashes) := by
  ext path
  simp only [lockSet, List.mem_append, List.mem_singleton, Set.mem_ofPred_eq,
    Set.mem_insert_iff]
  constructor
  · rintro ⟨hash', member | rfl, rfl⟩
    · exact .inr ⟨hash', member, rfl⟩
    · exact .inl rfl
  · rintro (rfl | ⟨hash', member, rfl⟩)
    · exact ⟨hash, .inr rfl, rfl⟩
    · exact ⟨hash', .inl member, rfl⟩

theorem mem_map_lockPath_iff (parent path : String) (hashes : List UInt64) :
    path ∈ hashes.map (lockPath parent) ↔ path ∈ lockSet parent hashes := by
  simp [lockSet, eq_comm]

section

variable {parent : String} {contends : Set String → String → Prop} {allowed : Set String}

theorem closeFiles_holds (files : List String) (s : LockView) :
    Holds (lockContract parent contends allowed)
      (fun _ s' => s' = { s with held := s.held \ { path | path ∈ files } })
      (closeFiles files) s := by
  induction files generalizing s with
  | nil => simp [closeFiles, lockContract]
  | cons file rest ih =>
      simp only [closeFiles, act_eq, Program.ask_bind, Program.done_bind,
        lockContract, holds_solo_ask, lockPermits, true_and]
      rintro ⟨⟩ _ rfl
      refine holds_mono (ih _) ?_
      rintro _ _ rfl
      congr 1
      ext path
      simp only [Set.mem_sdiff, Set.mem_singleton_iff, Set.mem_ofPred_eq, List.mem_cons]
      tauto

theorem unlockFiles_holds (files : List String) (s : LockView) :
    Holds (lockContract parent contends allowed)
      (fun _ s' => s' = { s with held := s.held \ { path | path ∈ files } })
      (RuntimeLockGuard.unlockFiles files) s := by
  induction files generalizing s with
  | nil => simp [RuntimeLockGuard.unlockFiles, lockContract]
  | cons file rest ih =>
      simp only [RuntimeLockGuard.unlockFiles, act_eq, Program.ask_bind,
        Program.done_bind, lockContract, holds_solo_ask, lockPermits, true_and]
      rintro ⟨⟩ _ rfl
      refine holds_mono (ih _) ?_
      rintro _ _ rfl
      congr 1
      ext path
      simp only [Set.mem_sdiff, Set.mem_singleton_iff, Set.mem_ofPred_eq, List.mem_cons]
      tauto

/-- Dropping the guard of all the locks a process holds leaves it none. -/
theorem drop_holds (guard : RuntimeLockGuard) (s : LockView)
    (hheld : s.held = { path | path ∈ guard.files }) :
    Holds (lockContract parent contends allowed) (fun _ s' => s'.held = ∅) guard.drop s := by
  unfold RuntimeLockGuard.drop
  apply holds_bind
  refine holds_mono (unlockFiles_holds guard.files s) ?_
  rintro _ _ rfl
  refine holds_mono (closeFiles_holds guard.files _) ?_
  rintro _ _ rfl
  simp [hheld]

/-- How an attempt on the files of `hashes` ends: it holds all of them, or none
and was refused one after it had taken those before. -/
def AttemptEnds (parent : String) (contends : Set String → String → Prop)
    (hashes : List UInt64) (taken : Set String) :
    Except RuntimeLockError RuntimeLockGuard → LockView → Prop
  | .ok guard, s => guard.files = hashes.map (lockPath parent) ∧
      s.held = lockSet parent hashes
  | .error _, s => s.held = ∅ ∧ (hashes = [] ∨ ∃ before hash after,
      hashes = before ++ hash :: after ∧ contends (lockSet parent before)
        (lockPath parent hash) ∧
      s.refused = some (lockPath parent hash) ∧ s.taken = taken ∪ lockSet parent before)

/-- The loop of `acquire`, after the files of `before` have been locked. The
induction is on the hashes that are left. -/
theorem lockFiles_holds (taken : Set String) (hashes before : List UInt64)
    (s : LockView) (hallowed : lockSet parent hashes ⊆ allowed)
    (hheld : s.held = lockSet parent before)
    (htaken : s.taken = taken ∪ lockSet parent before) :
    Holds (lockContract parent contends allowed)
      (AttemptEnds parent contends (before ++ hashes) taken)
      (lockFiles (hashes.map (lockPath parent)) (before.map (lockPath parent))) s := by
  induction hashes generalizing before s with
  | nil =>
      simp only [List.map_nil, lockFiles, Program.pure_eq, lockContract, holds_solo_done,
        List.append_nil]
      exact ⟨rfl, hheld⟩
  | cons hash rest ih =>
      simp only [List.map_cons, lockFiles, act_eq, Program.ask_bind, Program.done_bind,
        lockContract, holds_solo_ask, lockPermits, true_and]
      rintro _ _ ⟨rfl, hopen⟩
      rw [hopen]
      simp only [holds_solo_ask, lockPermits]
      refine ⟨hallowed ⟨hash, List.mem_cons_self, rfl⟩, ?_⟩
      intro answer s' hanswer
      cases answer with
      | ok value =>
          cases value
          obtain ⟨-, rfl⟩ := hanswer
          have hrest : lockSet parent rest ⊆ allowed := by
            rintro path ⟨hash', member, hpath⟩
            exact hallowed ⟨hash', List.mem_cons_of_mem _ member, hpath⟩
          have hnext := ih (before ++ [hash])
            { s with
              held := insert (lockPath parent hash) s.held
              taken := insert (lockPath parent hash) s.taken }
            hrest
            (by rw [lockSet_append_singleton, hheld])
            (by rw [lockSet_append_singleton, htaken, Set.union_insert])
          simpa [lockContract] using hnext
      | error fault =>
          obtain ⟨rfl, hcontends, rfl⟩ := hanswer
          apply holds_bind
          refine holds_mono (closeFiles_holds _ _) ?_
          rintro _ _ rfl
          rw [Program.pure_eq, holds_solo_done]
          refine ⟨?_, .inr ⟨before, hash, rest, rfl, ?_, rfl, htaken⟩⟩
          · rw [Set.sdiff_eq_empty]
            intro path member
            rw [hheld, ← mem_map_lockPath_iff] at member
            exact List.mem_cons_of_mem _ member
          · rwa [hheld] at hcontends

theorem acquire_holds (identity : RuntimeLockIdentity) (s : LockView)
    (hallowed : lockSet parent identity.resourceHashes ⊆ allowed) (hheld : s.held = ∅) :
    Holds (lockContract parent contends allowed)
      (AttemptEnds parent contends identity.resourceHashes s.taken) identity.acquire s := by
  unfold acquire
  split
  · rename_i hempty
    rw [Program.pure_eq, lockContract, holds_solo_done]
    exact ⟨hheld, .inl (List.isEmpty_iff.mp hempty)⟩
  · simp only [act_eq, Program.ask_bind, Program.done_bind, lockContract, holds_solo_ask,
      lockPermits, true_and]
    rintro _ _ ⟨rfl, hprepare⟩
    rw [hprepare]
    exact lockFiles_holds s.taken identity.resourceHashes [] s hallowed
      (by simp [hheld, lockSet]) (by simp [lockSet])

end

/-! The pool of processes. -/

section

variable {ι : Type} [DecidableEq ι]

theorem LockTable.release_eq_some_iff (table : LockTable ι) (i j : ι)
    (path path' : String) :
    table.release i path path' = some j ↔
      table path' = some j ∧ ¬ (j = i ∧ path' = path) := by
  unfold LockTable.release
  split
  · rename_i hholder
    by_cases hpath : path' = path
    · subst hpath
      simp only [Function.update_self, reduceCtorEq, hholder, Option.some.injEq, and_true,
        false_iff, not_and, not_not]
      exact Eq.symm
    · simp [hpath]
  · rename_i hholder
    constructor
    · intro h
      refine ⟨h, ?_⟩
      rintro ⟨rfl, rfl⟩
      exact hholder h
    · exact And.left

/-- The case analysis of one answer: what the process learns, and that the locks
of the others are not touched. -/
theorem advances_of_answers {parent : String} (contends : Set String → String → Prop)
    {table table' : LockTable ι} {i : ι} {op : Op} {answer : Ans op} {s : LockView}
    (hheld : ∀ path, path ∈ s.held ↔ table path = some i) (htaken : s.held ⊆ s.taken)
    (hanswers : lockAnswers parent table i op answer table')
    (hcontends : ∀ path, op = .act (.tryLock path) → table path ≠ none →
      contends s.held path) :
    ∃ s', lockAdvances parent contends s op answer s' ∧
      (∀ path, path ∈ s'.held ↔ table' path = some i) ∧
      (∀ j, j ≠ i → ∀ path, table' path = some j ↔ table path = some j) ∧
      s'.held ⊆ s'.taken ∧ s.taken ⊆ s'.taken ∧
      (∀ path, s'.refused = some path → s.refused = some path ∨ table path ≠ none) := by
  have hsame : ∀ t : LockTable ι, t = table → ∃ s', s' = s ∧
      (∀ path, path ∈ s'.held ↔ t path = some i) ∧
      (∀ j, j ≠ i → ∀ path, t path = some j ↔ table path = some j) ∧
      s'.held ⊆ s'.taken ∧ s.taken ⊆ s'.taken ∧
      (∀ path, s'.refused = some path → s.refused = some path ∨ table path ≠ none) := by
    rintro t rfl
    exact ⟨s, rfl, hheld, fun _ _ _ => Iff.rfl, htaken, subset_rfl, fun _ h => .inl h⟩
  have hrelease : ∀ path, ∃ s', s' = { s with held := s.held \ {path} } ∧
      (∀ path', path' ∈ s'.held ↔ table.release i path path' = some i) ∧
      (∀ j, j ≠ i → ∀ path', table.release i path path' = some j ↔
        table path' = some j) ∧
      s'.held ⊆ s'.taken ∧ s.taken ⊆ s'.taken ∧
      (∀ path', s'.refused = some path' →
        s.refused = some path' ∨ table path' ≠ none) := by
    intro path
    refine ⟨_, rfl, fun path' => ?_, fun j hj path' => ?_,
      Set.sdiff_subset.trans htaken, subset_rfl, fun _ h => .inl h⟩
    · rw [LockTable.release_eq_some_iff]
      simp [hheld]
    · rw [LockTable.release_eq_some_iff]
      simp [hj]
  cases op with
  | finish wait => exact hsame _ hanswers
  | finishBefore deadline wait => exact hsame _ hanswers
  | act action =>
      cases action with
      | prepareLockParent root temporary =>
          obtain ⟨s', rfl, hrest⟩ := hsame _ hanswers.2
          exact ⟨s', ⟨hanswers.1, rfl⟩, hrest⟩
      | openRuntimeLock path =>
          obtain ⟨s', rfl, hrest⟩ := hsame _ hanswers.2
          exact ⟨s', ⟨hanswers.1, rfl⟩, hrest⟩
      | unlock path =>
          obtain rfl : table' = table.release i path := hanswers
          exact hrelease path
      | closeLock path =>
          obtain rfl : table' = table.release i path := hanswers
          exact hrelease path
      | tryLock path =>
          simp only [lockAnswers] at hanswers
          split at hanswers
          · rename_i hfree
            obtain ⟨rfl, rfl⟩ := hanswers
            have hnot : path ∉ s.held := by
              rw [hheld, hfree]
              exact fun h => nomatch h
            refine ⟨_, ⟨hnot, rfl⟩, fun path' => ?_, fun j hj path' => ?_,
              Set.insert_subset_insert htaken, Set.subset_insert _ _, fun _ h => .inl h⟩
            · by_cases hpath : path' = path
              · simp [hpath]
              · simp [hpath, hheld]
            · by_cases hpath : path' = path
              · simp [hpath, hfree, Ne.symm hj]
              · simp [hpath]
          · rename_i hbusy
            obtain ⟨rfl, rfl⟩ := hanswers
            refine ⟨_, ⟨rfl, hcontends path rfl hbusy, rfl⟩, hheld, fun _ _ _ => Iff.rfl,
              htaken, subset_rfl, fun path' h => ?_⟩
            obtain rfl : path = path' := Option.some.inj h
            exact .inr hbusy
      | _ => exact hsame _ hanswers

end

end Cirrusync
