import Cirrusync.Effect.Refinement
import Cirrusync.Scenario
import Cirrusync.LockFilesSteps

/-!
The lock files as a table of locks. What a user's processes are told, attempt by attempt,
is what they would be told by a table that gives each hash to one of them at most.
-/

namespace Cirrusync.LockFiles

open Effect Files FileSystem RuntimeLockIdentity

/-- The first of some hashes that is taken. -/
def FirstTaken (taken : UInt64 → Prop) (hashes : List UInt64) (hash : UInt64) : Prop :=
  ∃ before after, hashes = before ++ hash :: after ∧ (∀ free ∈ before, ¬ taken free) ∧
    taken hash

section

variable {ι : Type} [DecidableEq ι] {a : Account} {i : ι} {w w' : System ι} {installed : Bool}
  {temporaryLockRoot : String} {held : Held ι} {dir file handle : Nat} {hash : UInt64}

/-- How the loop of an attempt ends, with the hashes of `taken` locked before it. -/
def LoopEnds (a : Account) (i : ι) (installed : Bool) (temporaryLockRoot : String)
    (held : Held ι) (dir : Nat) (taken : List (UInt64 × Nat)) (hashes : List UInt64) :
    Except RuntimeLockError FileGuard → System ι → Prop
  | .ok guard, w => ∃ more : List (UInt64 × Nat), more.map Prod.fst = hashes ∧
      guard.files = (taken ++ more).map Prod.snd ∧ (∀ hash ∈ hashes, ¬ Taken held hash) ∧
      Ready a installed temporaryLockRoot w (Function.update held i (taken ++ more)) dir
  | .error error, w => ∃ hash, FirstTaken (Taken held) hashes hash ∧
      error = .alreadyRunning (lockPath (lockParent a.uid installed temporaryLockRoot) hash) ∧
      Ready a installed temporaryLockRoot w held dir

omit [DecidableEq ι] in
/-- A lock file that its process has just opened is locked if its hash is taken, and only
then. -/
theorem LockRoom.locks_eq_none_iff {parent : String}
    (h : LockRoom a installed w parent held dir)
    (hentry : w.fs.entry dir (lockName hash) = some file) :
    w.locks file = none ↔ ¬ Taken held hash := by
  constructor
  · rintro hfree ⟨j, handle, member⟩
    obtain ⟨file', hentry', -, hlock⟩ := h.holds j hash handle member
    obtain rfl := Option.some.inj (hentry.symm.trans hentry')
    rw [hfree] at hlock
    cases hlock
  · intro hfree
    rw [Option.eq_none_iff_forall_ne_some]
    intro handle hlock
    obtain ⟨j, member⟩ := h.locked hash file handle hentry hlock
    exact hfree ⟨j, handle, member⟩

/-- What a process has itself does not make another hash taken. -/
theorem taken_update_iff {taken : List (UInt64 × Nat)} (hidle : held i = [])
    (hnew : hash ∉ taken.map Prod.fst) :
    Taken (Function.update held i taken) hash ↔ Taken held hash := by
  constructor
  · rintro ⟨j, handle, hupdated⟩
    obtain ⟨-, member⟩ | ⟨-, member⟩ := mem_update_iff.mp hupdated
    · exact absurd (List.mem_map_of_mem member) hnew
    · exact ⟨j, handle, member⟩
  · rintro ⟨j, handle, member⟩
    refine ⟨j, handle, mem_update_iff.mpr (.inr ⟨?_, member⟩)⟩
    rintro rfl
    rw [hidle] at member
    cases member

omit [DecidableEq ι] in
/-- The files of a process can be closed. -/
theorem Ready.closable (h : Ready a installed temporaryLockRoot w held dir) :
    Closable i w ((held i).map Prod.snd) := by
  intro handle member
  obtain ⟨⟨hash, _⟩, hheld, rfl⟩ := List.mem_map.mp member
  obtain ⟨file, -, hopened, -⟩ := h.room.holds i hash _ hheld
  exact .inl ⟨file, hopened⟩

/-- The loop of `acquire`. The induction is on the hashes that are left. -/
theorem lockFiles_attains (hidle : held i = []) (hashes : List UInt64)
    (taken : List (UInt64 × Nat))
    (h : Ready a installed temporaryLockRoot w (Function.update held i taken) dir)
    (hnodup : (taken.map Prod.fst ++ hashes).Nodup) :
    Attains a i w
      (lockFiles a.uid (hashes.map (lockPath (lockParent a.uid installed temporaryLockRoot)))
        (taken.map Prod.snd))
      fun result w' => w.fs.Extends (fun dir' name => dir' = dir ∧ ∃ hash, name = lockName hash)
          w'.fs ∧
        LoopEnds a i installed temporaryLockRoot held dir taken hashes result w' := by
  induction hashes generalizing w taken with
  | nil => exact attains_done.mpr ⟨.refl _, [], rfl, by simp, by simp, by simpa using h⟩
  | cons hash rest ih =>
      have hnew : hash ∉ taken.map Prod.fst := fun member =>
        (List.nodup_append.mp hnodup).2.2 hash member hash List.mem_cons_self rfl
      refine attains_bind (attains_mono (openRuntimeLock_succeeds h hash) ?_)
      rintro _ w₁ ⟨handle, rfl, hready, hextends, file, hentry, hopened⟩
      have hmade : w.fs.Extends (fun dir' name => dir' = dir ∧ ∃ hash, name = lockName hash)
          w₁.fs := hextends.mono fun _ _ hsame => ⟨hsame.1, hash, hsame.2⟩
      dsimp only
      rw [Program.perform_bind]
      by_cases htaken : Taken held hash
      · -- What has been locked before is closed again.
        have hlocked : w₁.locks file ≠ none := by
          rw [Ne, hready.room.locks_eq_none_iff hentry, taken_update_iff hidle hnew, not_not]
          exact htaken
        obtain ⟨other, hother⟩ := Option.ne_none_iff_exists'.mp hlocked
        refine attains_tryLock_taken hopened hother fun error herror => ?_
        have hclosable : Closable i w₁ (handle :: taken.map Prod.snd) := by
          intro other member
          rcases List.mem_cons.mp member with rfl | member
          · exact .inl ⟨file, hopened⟩
          · exact hready.closable other (by rwa [Function.update_self])
        refine attains_bind (attains_mono (closeFiles_attains hclosable) fun _ w₂ hshuts => ?_)
        have hclosed := hready.shuts hshuts hclosable fun hash' handle' member => by
          rw [Function.update_self] at member
          exact List.mem_cons_of_mem _ (List.mem_map_of_mem member)
        rw [Function.update_idem, ← hidle, Function.update_eq_self] at hclosed
        refine attains_done.mpr ⟨?_, hash, ⟨[], rest, rfl, by simp, htaken⟩, ?_, hclosed⟩
        · rw [hshuts.fs_eq]
          exact hmade
        · simp [isLockContended, herror]
      · have hfree : w₁.locks file = none := by
          rw [hready.room.locks_eq_none_iff hentry, taken_update_iff hidle hnew]
          exact htaken
        refine attains_tryLock hopened hfree ?_
        have hlocked := hready.lock hentry hopened hfree
        rw [Function.update_idem, Function.update_self] at hlocked
        have hrest := ih (taken ++ [(hash, handle)]) hlocked (by simpa using hnodup)
        rw [List.map_append] at hrest
        refine attains_mono hrest fun result w₂ hends => ⟨hmade.trans hends.1, ?_⟩
        cases result with
        | ok guard =>
            obtain ⟨more, rfl, hfiles, hothers, hlast⟩ := hends.2
            refine ⟨(hash, handle) :: more, rfl, by simpa using hfiles, ?_, by simpa using hlast⟩
            exact List.forall_mem_cons.mpr ⟨htaken, hothers⟩
        | error error =>
            obtain ⟨hash', ⟨before, after, rfl, hbefore, htaken'⟩, rfl, hlast⟩ := hends.2
            exact ⟨hash', ⟨hash :: before, after, rfl,
              List.forall_mem_cons.mpr ⟨htaken, hbefore⟩, htaken'⟩, rfl, hlast⟩

/-- How an attempt ends. -/
def Concludes (a : Account) (i : ι) (installed : Bool) (temporaryLockRoot : String)
    (held : Held ι) (hashes : List UInt64) :
    Except RuntimeLockError FileGuard → System ι → Prop
  | .ok guard, w => ∃ locks : List (UInt64 × Nat), locks.map Prod.fst = hashes ∧
      guard.files = locks.map Prod.snd ∧ hashes ≠ [] ∧ (∀ hash ∈ hashes, ¬ Taken held hash) ∧
      InOrder a installed temporaryLockRoot w (Function.update held i locks)
  | .error error, w => InOrder a installed temporaryLockRoot w held ∧
      ((hashes = [] ∧ error = .insecure "" "no managed DNS resources were available to lock") ∨
        ∃ hash, FirstTaken (Taken held) hashes hash ∧ error =
          .alreadyRunning (lockPath (lockParent a.uid installed temporaryLockRoot) hash))

/-- Where all is in order, an attempt ends as the table of held locks decides: with all its locks
if none of them is taken, or with the path of the first one that is. Either way all is in order
again, and no other name has changed. -/
theorem acquire_attains (config : Config) (hidle : held i = [])
    (h : InOrder a installed temporaryLockRoot w held) :
    Attains a i w
      (acquire temporaryLockRoot
        (RuntimeLockIdentity.forConfig installed temporaryLockRoot config))
      fun result w' => Footprint a installed temporaryLockRoot w.fs w'.fs ∧
        Concludes a i installed temporaryLockRoot held
          (hashesOf installed temporaryLockRoot config) result w' := by
  have hnodup : (hashesOf installed temporaryLockRoot config).Nodup :=
    (sorted_forConfig installed temporaryLockRoot config).imp fun hlt => UInt64.ne_of_lt hlt
  unfold acquire
  split
  · next hempty => exact attains_done.mpr ⟨.refl _, h, .inl ⟨List.isEmpty_iff.mp hempty, rfl⟩⟩
  · next hsome =>
      refine attains_bind (attains_mono (prepareLockParent_succeeds config h) ?_)
      rintro _ w₁ ⟨_, rfl, rfl, hfootprint, dir, hready⟩
      have hstart : Function.update held i [] = held := by
        rw [← hidle, Function.update_eq_self]
      have hloop := lockFiles_attains hidle
        (hashesOf installed temporaryLockRoot config) [] (by rwa [hstart]) (by simpa using hnodup)
      refine attains_mono hloop fun result w₂ hends => ⟨hfootprint.trans ?_, ?_⟩
      · refine hends.1.mono ?_
        rintro _ name ⟨rfl, hname⟩
        exact .inr ⟨hends.1.find hready.room.find, hname⟩
      · cases result with
        | ok guard =>
            obtain ⟨more, hmore, hfiles, hfree, hlast⟩ := hends.2
            refine ⟨more, hmore, hfiles, fun hnone => hsome ?_, hfree, hlast.inOrder⟩
            exact List.isEmpty_iff.mpr hnone
        | error error =>
            obtain ⟨hash, hfirst, rfl, hlast⟩ := hends.2
            exact ⟨hlast.inOrder, .inr ⟨hash, hfirst, rfl⟩⟩

end

/-! The table of locks. -/

/-- The hashes that each process has. -/
abbrev LockTable (ι : Type) := ι → List UInt64

def LockTable.Taken {ι : Type} (t : LockTable ι) (hash : UInt64) : Prop := ∃ j, hash ∈ t j

inductive LockRequest (ι : Type) where
  | acquire (i : ι) (config : Config)
  | drop (i : ι)

inductive LockReply where
  | granted
  | refused (error : RuntimeLockError)
  | dropped

def LockReply.of : Except RuntimeLockError FileGuard → LockReply
  | .ok _ => .granted
  | .error error => .refused error

/-- The processes of a user, each with the guard that it has. -/
structure Clients (ι : Type) where
  system : System ι
  guard : ι → Option FileGuard

section

variable {ι : Type} [DecidableEq ι] (uid gid : Nat) (installed : Bool)
  (temporaryLockRoot : String)

/-- A process that has nothing gets all the hashes of a configuration, or it is told the
first of them that some process has. -/
inductive TableStep : LockTable ι → LockRequest ι × LockReply → LockTable ι → Prop where
  | granted {t : LockTable ι} {i : ι} {config : Config} :
      t i = [] → hashesOf installed temporaryLockRoot config ≠ [] →
      (∀ hash ∈ hashesOf installed temporaryLockRoot config, ¬ LockTable.Taken t hash) →
      TableStep t (.acquire i config, .granted)
        (Function.update t i (hashesOf installed temporaryLockRoot config))
  | nothing {t : LockTable ι} {i : ι} {config : Config} :
      t i = [] → hashesOf installed temporaryLockRoot config = [] →
      TableStep t (.acquire i config,
        .refused (.insecure "" "no managed DNS resources were available to lock")) t
  | taken {t : LockTable ι} {i : ι} {config : Config} {hash : UInt64} :
      t i = [] →
      FirstTaken (LockTable.Taken t) (hashesOf installed temporaryLockRoot config) hash →
      TableStep t (.acquire i config, .refused (.alreadyRunning
        (lockPath (lockParent uid installed temporaryLockRoot) hash))) t
  | dropped {t : LockTable ι} {i : ι} :
      t i ≠ [] → TableStep t (.drop i, .dropped) (Function.update t i [])

/-- Whole attempts on a faultless host, one after the other. -/
inductive ClientStep : Clients ι → LockRequest ι × LockReply → Clients ι → Prop where
  | acquire {c : Clients ι} {i : ι} {config : Config} {trace : List (Event Answer)}
      {result : Except RuntimeLockError FileGuard} {w : System ι} :
      c.guard i = none →
      Runs (LockFiles.acquire temporaryLockRoot
        (RuntimeLockIdentity.forConfig installed temporaryLockRoot config)) trace result →
      Path (faultless (account uid gid) i) c.system trace w →
      ClientStep c (.acquire i config, .of result)
        ⟨w, Function.update c.guard i result.toOption⟩
  | drop {c : Clients ι} {i : ι} {guard : FileGuard} {trace : List (Event Answer)}
      {w : System ι} :
      c.guard i = some guard → Runs guard.drop trace () →
      Path (faultless (account uid gid) i) c.system trace w →
      ClientStep c (.drop i, .dropped) ⟨w, Function.update c.guard i none⟩

/-- What the locks of a process are to its guard. -/
def Guards (guard : Option FileGuard) (locks : List (UInt64 × Nat)) : Prop :=
  match guard with
  | none => locks = []
  | some guard => locks ≠ [] ∧ guard.files = locks.map Prod.snd

/-- The table that the lock files stand for. -/
structure Represents (fs : FileSystem) (c : Clients ι) (t : LockTable ι) : Prop where
  footprint : Footprint (account uid gid) installed temporaryLockRoot fs c.system.fs
  held : ∃ held : Held ι, InOrder (account uid gid) installed temporaryLockRoot c.system held ∧
    (∀ i, t i = (held i).map Prod.fst) ∧ ∀ i, Guards (c.guard i) (held i)

end

section

variable {ι : Type} [DecidableEq ι] {uid gid : Nat} {installed : Bool}
  {temporaryLockRoot : String} {fs : FileSystem} {c c' : Clients ι} {t t' : LockTable ι}
  {held : Held ι} {hashes : List UInt64} {hash hash' : UInt64} {i : ι}

theorem FirstTaken.unique {taken : UInt64 → Prop} (h : FirstTaken taken hashes hash)
    (h' : FirstTaken taken hashes hash') : hash = hash' := by
  classical
  have hfind : ∀ {hash}, FirstTaken taken hashes hash →
      hashes.find? (fun hash => decide (taken hash)) = some hash := by
    rintro hash ⟨before, after, rfl, hbefore, htaken⟩
    exact List.find?_eq_some_iff_append.mpr
      ⟨by simpa using htaken, before, after, rfl, by simpa using hbefore⟩
  exact Option.some.inj ((hfind h).symm.trans (hfind h'))

omit [DecidableEq ι] in
theorem taken_iff (htable : ∀ i, t i = (held i).map Prod.fst) (hash : UInt64) :
    Taken held hash ↔ LockTable.Taken t hash := by
  simp [Taken, LockTable.Taken, htable]

/-- What a table answers, and what becomes of it. -/
theorem TableStep.deterministic {request : LockRequest ι} {reply reply' : LockReply}
    (h : TableStep uid installed temporaryLockRoot t (request, reply) t')
    {t'' : LockTable ι} (h' : TableStep uid installed temporaryLockRoot t (request, reply') t'') :
    reply = reply' ∧ t' = t'' := by
  cases h with
  | granted hidle hsome hfree =>
      cases h' with
      | granted => exact ⟨rfl, rfl⟩
      | nothing _ hnone => exact absurd hnone hsome
      | taken _ hfirst =>
          obtain ⟨before, after, hsplit, -, htaken⟩ := hfirst
          exact absurd htaken (hfree _ (by rw [hsplit]; simp))
  | nothing hidle hnone =>
      cases h' with
      | granted _ hsome => exact absurd hnone hsome
      | nothing => exact ⟨rfl, rfl⟩
      | taken _ hfirst =>
          obtain ⟨before, after, hsplit, -⟩ := hfirst
          rw [hnone] at hsplit
          simp at hsplit
  | taken hidle hfirst =>
      cases h' with
      | granted _ _ hfree =>
          obtain ⟨before, after, hsplit, -, htaken⟩ := hfirst
          exact absurd htaken (hfree _ (by rw [hsplit]; simp))
      | nothing _ hnone =>
          obtain ⟨before, after, hsplit, -⟩ := hfirst
          rw [hnone] at hsplit
          simp at hsplit
      | taken _ hfirst' => exact ⟨by rw [hfirst.unique hfirst'], rfl⟩
  | dropped =>
      cases h' with
      | dropped => exact ⟨rfl, rfl⟩

/-- Where an attempt has ended, the files stand for the table that has answered it. -/
theorem Represents.concludes {config : Config} {result : Except RuntimeLockError FileGuard}
    {w : System ι} (hfootprint : Footprint (account uid gid) installed temporaryLockRoot fs w.fs)
    (htable : ∀ i, t i = (held i).map Prod.fst) (hguards : ∀ i, Guards (c.guard i) (held i))
    (hguard : c.guard i = none)
    (hends : Concludes (account uid gid) i installed temporaryLockRoot held
      (hashesOf installed temporaryLockRoot config) result w) :
    ∃ t', TableStep uid installed temporaryLockRoot t (.acquire i config, .of result) t' ∧
      Represents uid gid installed temporaryLockRoot fs
        ⟨w, Function.update c.guard i result.toOption⟩ t' := by
  have hnone : held i = [] := by
    have hlocks := hguards i
    rwa [hguard] at hlocks
  have hidle : t i = [] := by rw [htable, hnone, List.map_nil]
  cases result with
  | ok guard =>
      obtain ⟨locks, hlocks, hfiles, hsome, hfree, horder⟩ := hends
      refine ⟨_, .granted hidle hsome fun hash member htaken => ?_, hfootprint,
        Function.update held i locks, horder, fun j => ?_, fun j => ?_⟩
      · exact hfree hash member ((taken_iff htable hash).mpr htaken)
      · by_cases hj : j = i
        · subst hj
          rw [Function.update_self, Function.update_self, hlocks]
        · rw [Function.update_of_ne hj, Function.update_of_ne hj, htable]
      · by_cases hj : j = i
        · subst hj
          simp only [Function.update_self]
          refine ⟨?_, hfiles⟩
          rintro rfl
          exact hsome hlocks.symm
        · simp only [Function.update_of_ne hj]
          exact hguards j
  | error error =>
      obtain ⟨horder, hwhy⟩ := hends
      have hsame : Function.update c.guard i none = c.guard := by
        rw [← hguard, Function.update_eq_self]
      refine ⟨t, ?_, hfootprint, held, horder, htable, ?_⟩
      · rcases hwhy with ⟨hempty, rfl⟩ | ⟨hash, hfirst, rfl⟩
        · exact .nothing hidle hempty
        · obtain ⟨before, after, hsplit, hbefore, htaken⟩ := hfirst
          refine .taken hidle ⟨before, after, hsplit, fun free member => ?_, ?_⟩
          · rw [← taken_iff htable]
            exact hbefore free member
          · exact (taken_iff htable hash).mp htaken
      · rwa [show Except.toOption (.error error) = none from rfl, hsame]

/-- A guard that is dropped takes its hashes out of the table. -/
theorem Represents.dropped {w : System ι} {guard : FileGuard}
    (hfootprint : Footprint (account uid gid) installed temporaryLockRoot fs c.system.fs)
    (horder : InOrder (account uid gid) installed temporaryLockRoot c.system held)
    (htable : ∀ i, t i = (held i).map Prod.fst) (hguards : ∀ i, Guards (c.guard i) (held i))
    (hguard : c.guard i = some guard) (hclosable : Closable i c.system guard.files)
    (hshuts : Shuts guard.files c.system w) :
    Represents uid gid installed temporaryLockRoot fs ⟨w, Function.update c.guard i none⟩
      (Function.update t i []) where
  footprint := by
    rw [hshuts.fs_eq]
    exact hfootprint
  held := by
    have hlocks := hguards i
    rw [hguard] at hlocks
    refine ⟨Function.update held i [], horder.shuts hshuts hclosable ?_, fun j => ?_, fun j => ?_⟩
    · intro hash handle member
      rw [hlocks.2]
      exact List.mem_map_of_mem member
    · by_cases hj : j = i
      · simp [hj]
      · rw [Function.update_of_ne hj, Function.update_of_ne hj, htable]
    · by_cases hj : j = i
      · subst hj
        simp [Guards]
      · simp only [Function.update_of_ne hj]
        exact hguards j

omit [DecidableEq ι] in
theorem InOrder.owns {a : Account} {w : System ι}
    (h : InOrder a installed temporaryLockRoot w held) :
    ∀ handle ∈ (held i).map Prod.snd, w.Owns i handle := by
  intro handle member
  obtain ⟨⟨hash, _⟩, hheld, rfl⟩ := List.mem_map.mp member
  rcases h.parent with ⟨dir, hdir⟩ | ⟨-, hnone, -⟩
  · obtain ⟨file, -, hopened, -⟩ := hdir.holds i hash _ hheld
    exact ⟨file, hopened⟩
  · rw [hnone] at hheld
    cases hheld

theorem Represents.forward {label : LockRequest ι × LockReply}
    (h : Represents uid gid installed temporaryLockRoot fs c t)
    (hstep : ClientStep uid gid installed temporaryLockRoot c label c') :
    ∃ t', TableStep uid installed temporaryLockRoot t label t' ∧
      Represents uid gid installed temporaryLockRoot fs c' t' := by
  obtain ⟨hfootprint, held, horder, htable, hguards⟩ := h
  cases hstep with
  | @acquire i config trace result w hguard hrun hpath =>
      have hidle := hguards i
      rw [hguard] at hidle
      obtain ⟨hfootprint', hends⟩ := holds_run (acquire_attains config hidle horder) hrun hpath
      exact Represents.concludes (hfootprint.trans hfootprint') htable hguards hguard hends
  | @drop i guard trace w hguard hrun hpath =>
      have hlocks := hguards i
      rw [hguard] at hlocks
      have hown : ∀ handle ∈ guard.files, c.system.Owns i handle := by
        rw [hlocks.2]
        exact horder.owns
      have hshuts := holds_run (drop_attains hown) hrun hpath
      refine ⟨_, .dropped ?_, .dropped hfootprint horder htable hguards hguard
        (fun handle member => .inl (hown handle member)) hshuts⟩
      rw [htable, Ne, List.map_eq_nil_iff]
      exact hlocks.1

/-- What the table may do the lock files may do. A request is granted, refused or dropped on the
table by a rule, and the attempt or the drop on disk comes to the same reply and to a state that
the new table represents. -/
theorem Represents.backward {label : LockRequest ι × LockReply}
    (h : Represents uid gid installed temporaryLockRoot fs c t)
    (hstep : TableStep uid installed temporaryLockRoot t label t') :
    ∃ c', ClientStep uid gid installed temporaryLockRoot c label c' ∧
      Represents uid gid installed temporaryLockRoot fs c' t' := by
  obtain ⟨hfootprint, held, horder, htable, hguards⟩ := h
  have hacquire : ∀ {i config reply}, t i = [] →
      TableStep uid installed temporaryLockRoot t (.acquire i config, reply) t' →
      ∃ c', ClientStep uid gid installed temporaryLockRoot c (.acquire i config, reply) c' ∧
        Represents uid gid installed temporaryLockRoot fs c' t' := by
    intro i config reply hidle hstep
    rw [htable, List.map_eq_nil_iff] at hidle
    have hguard : c.guard i = none := by
      have hlocks := hguards i
      cases hguard : c.guard i with
      | none => rfl
      | some guard =>
          rw [hguard] at hlocks
          exact absurd hidle hlocks.1
    obtain ⟨trace, result, w, hrun, hpath, hfootprint', hends⟩ :=
      (acquire_attains config hidle horder).exists_run
    obtain ⟨t'', hstep', hrepresents⟩ :=
      Represents.concludes (hfootprint.trans hfootprint') htable hguards hguard hends
    obtain ⟨rfl, rfl⟩ := hstep.deterministic hstep'
    exact ⟨_, .acquire hguard hrun hpath, hrepresents⟩
  cases hstep with
  | granted hidle hsome hfree => exact hacquire hidle (.granted hidle hsome hfree)
  | nothing hidle hnone => exact hacquire hidle (.nothing hidle hnone)
  | taken hidle hfirst => exact hacquire hidle (.taken hidle hfirst)
  | @dropped i hsome =>
      rw [htable, Ne, List.map_eq_nil_iff] at hsome
      have hlocks := hguards i
      cases hguard : c.guard i with
      | none =>
          rw [hguard] at hlocks
          exact absurd hlocks hsome
      | some guard =>
          rw [hguard] at hlocks
          have hown : ∀ handle ∈ guard.files, c.system.Owns i handle := by
            rw [hlocks.2]
            exact horder.owns
          obtain ⟨trace, _, w, hrun, hpath, hshuts⟩ := (drop_attains hown).exists_run
          exact ⟨_, .drop hguard hrun hpath, .dropped hfootprint horder htable hguards hguard
            (fun handle member => .inl (hown handle member)) hshuts⟩

/-- No two processes have a hash of the table. -/
def TableExclusive (t : LockTable ι) : Prop :=
  ∀ i j hash, hash ∈ t i → hash ∈ t j → i = j

theorem TableStep.exclusive {label : LockRequest ι × LockReply} (h : TableExclusive t)
    (hstep : TableStep uid installed temporaryLockRoot t label t') : TableExclusive t' := by
  cases hstep with
  | nothing | taken => exact h
  | @granted k config hidle hsome hfree =>
      intro i j hash hi hj
      by_cases hik : i = k <;> by_cases hjk : j = k
      · rw [hik, hjk]
      · subst hik
        rw [Function.update_self] at hi
        rw [Function.update_of_ne hjk] at hj
        exact absurd ⟨j, hj⟩ (hfree hash hi)
      · subst hjk
        rw [Function.update_self] at hj
        rw [Function.update_of_ne hik] at hi
        exact absurd ⟨i, hi⟩ (hfree hash hj)
      · rw [Function.update_of_ne hik] at hi
        rw [Function.update_of_ne hjk] at hj
        exact h i j hash hi hj
  | @dropped k hsome =>
      have hold : ∀ {i hash}, hash ∈ Function.update t k [] i → hash ∈ t i := by
        intro i hash member
        by_cases hik : i = k
        · simp [hik] at member
        · rwa [Function.update_of_ne hik] at member
      exact fun i j hash hi hj => h i j hash (hold hi) (hold hj)

end

/-- The lock files are a table of locks. On a host without faults, with the lock files in good
order and free, processes of one user ask for the locks of any configurations and give them up
again, one after the other and in any order. Then they get exactly the answers of a table that
gives no hash to two of them, nothing in the file system changes but the directory of lock files
and those files, and no probe is left. -/
theorem lockFiles_refine_table {ι : Type} [DecidableEq ι] (uid gid : Nat) (installed : Bool)
    (temporaryLockRoot : String) (w : System ι)
    (horder : InOrder (account uid gid) installed temporaryLockRoot w fun _ => [])
    (log : List (LockRequest ι × LockReply)) :
    ((∃ c, Logs (ClientStep uid gid installed temporaryLockRoot) ⟨w, fun _ => none⟩ log c) ↔
      ∃ t, Logs (TableStep uid installed temporaryLockRoot) (fun _ => []) log t) ∧
    (∀ t, Logs (TableStep uid installed temporaryLockRoot) (fun _ : ι => []) log t →
      TableExclusive t) ∧
    ∀ c, Logs (ClientStep uid gid installed temporaryLockRoot) ⟨w, fun _ => none⟩ log c →
      Footprint (account uid gid) installed temporaryLockRoot w.fs c.system.fs ∧
      ∀ dir name, c.system.fs.find (route temporaryLockRoot) = some dir →
        IsProbeName name → c.system.fs.entry dir name = none := by
  have hstart : Represents uid gid installed temporaryLockRoot w.fs ⟨w, fun _ => none⟩
      fun _ => [] := ⟨.refl _, fun _ => [], horder, fun _ => rfl, fun _ => rfl⟩
  have hforward : ∀ (c : Clients ι) t label c',
      Represents uid gid installed temporaryLockRoot w.fs c t →
      ClientStep uid gid installed temporaryLockRoot c label c' →
      ∃ t', TableStep uid installed temporaryLockRoot t label t' ∧
        Represents uid gid installed temporaryLockRoot w.fs c' t' :=
    fun _ _ _ _ h hstep => h.forward hstep
  have hbackward : ∀ (c : Clients ι) t label t',
      Represents uid gid installed temporaryLockRoot w.fs c t →
      TableStep uid installed temporaryLockRoot t label t' →
      ∃ c', ClientStep uid gid installed temporaryLockRoot c label c' ∧
        Represents uid gid installed temporaryLockRoot w.fs c' t' :=
    fun _ _ _ _ h hstep => h.backward hstep
  refine ⟨exists_logs_iff hforward hbackward hstart log, fun t hrun => ?_, fun c hrun => ?_⟩
  · have hkeeps : ∀ (t : LockTable ι) label t', TableExclusive t →
        TableStep uid installed temporaryLockRoot t label t' → TableExclusive t' :=
      fun _ _ _ h hstep => hstep.exclusive h
    exact hrun.invariant hkeeps fun _ _ _ hi => nomatch hi
  · obtain ⟨t, -, hfootprint, held, horder', -⟩ := hrun.simulates hforward hstart
    obtain ⟨room, hroom⟩ := horder'.probes
    refine ⟨hfootprint, fun dir name hfind hprobe => ?_⟩
    obtain rfl : room = dir := Option.some.inj (hroom.find.symm.trans hfind)
    exact hroom.clear name hprobe

/-- A file system with an empty directory for temporary files, which belongs to the
superuser. -/
def exampleDisk : FileSystem where
  top := 0
  here := 0
  count := 2
  metadata := fun file =>
    if file = 0 then some ⟨.directory, 0, 0, 0o755, 2, false⟩
    else if file = 1 then some ⟨.directory, 0, 0, 0o1777, 2, false⟩
    else none
  contents := fun _ => []
  entry := fun dir name => if dir = 0 ∧ name = "tmp" then some 1 else none
  leads := fun _ => none
  rooted := rfl
  seated := rfl
  unmade := by
    intro file hfile
    rw [if_neg (by omega), if_neg (by omega)]
  named := by
    intro dir name file hentry
    split at hentry
    · cases hentry
      rfl
    · cases hentry

/-- Two processes that have no file open. -/
def exampleHost : System (Fin 2) where
  fs := exampleDisk
  maker := fun _ => none
  opened := fun _ => none
  locks := fun _ => none
  next := 0
  made := fun _ _ h => nomatch h
  unopened := fun _ _ => rfl
  locked := fun _ _ h => nomatch h

theorem exampleHost_inOrder :
    InOrder (account 1000 1000) false "/tmp" exampleHost fun _ => [] := by
  have hfind : exampleDisk.find (route "/tmp") = some 1 := by decide
  have hfree : ∀ name, exampleDisk.entry 1 name = none := fun name => by simp [exampleDisk]
  refine ⟨⟨1, hfind, ⟨_, rfl, rfl, .inr (by decide)⟩, fun name _ => hfree name⟩,
    fun _ _ => rfl, .inr ⟨rfl, fun _ => rfl, fun room hroom => ?_⟩⟩
  obtain rfl : 1 = room := Option.some.inj (hfind.symm.trans hroom.find)
  exact hfree _

/-- One process gets the lock of the example, the other is refused it until it is free again. -/
theorem lockFiles_refine_table_turns :
    ∃ c, Logs (ClientStep 1000 1000 false "/tmp") ⟨exampleHost, fun _ => none⟩
      [(.acquire 0 exampleConfig, .granted),
        (.acquire 1 exampleConfig, .refused (.alreadyRunning
          (lockPath (lockParent 1000 false "/tmp") (resourceLockHash exampleRecord)))),
        (.drop 0, .dropped), (.acquire 1 exampleConfig, .granted)] c := by
  have hhashes : hashesOf false "/tmp" exampleConfig = [resourceLockHash exampleRecord] := rfl
  refine (lockFiles_refine_table 1000 1000 false "/tmp" exampleHost exampleHost_inOrder _).1.mpr
    ⟨_, .cons (.granted rfl ?_ ?_) (.cons (.taken rfl ?_) (.cons (.dropped ?_)
      (.cons (.granted ?_ ?_ ?_) (.nil _))))⟩
  · simp [hhashes]
  · rintro hash - ⟨j, hj⟩
    cases hj
  · exact ⟨[], [], hhashes, by simp, 0, by simp [hhashes]⟩
  · simp [hhashes]
  · rfl
  · simp [hhashes]
  · rintro hash - ⟨j, hj⟩
    by_cases hzero : j = 0 <;> simp [hzero] at hj

end Cirrusync.LockFiles
