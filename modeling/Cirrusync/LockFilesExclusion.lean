import Cirrusync.LockExclusion
import Cirrusync.LockFilesTable

/-!
The runtime locks against other users. Processes of one user acquire and release their
locks again and again, while all other users but the superuser tamper with the file system
as far as its owners and modes let them. That does not break the exclusion, and no process
is led to a file that is not its user's.
-/

namespace Cirrusync.LockFiles

open Effect Files FileSystem RuntimeLockIdentity

/-- What a process is doing with its lock files. -/
inductive DiskTask where
  | idle
  | acquire (config : Config)
  | hold (config : Config) (guard : FileGuard)
  | drop (guard : FileGuard)

/-- Attempts for any configurations, one after the other. -/
inductive DiskFollows :
    DiskTask → Option (Except RuntimeLockError FileGuard) → DiskTask → Prop where
  | begin (config : Config) : DiskFollows .idle none (.acquire config)
  | refused (config : Config) (error : RuntimeLockError) :
      DiskFollows (.acquire config) (some (.error error)) .idle
  | granted (config : Config) (guard : FileGuard) :
      DiskFollows (.acquire config) (some (.ok guard)) (.hold config guard)
  | release (config : Config) (guard : FileGuard) :
      DiskFollows (.hold config guard) none (.drop guard)
  | dropped (guard : FileGuard) : DiskFollows (.drop guard) none .idle

section

variable (installed : Bool) (temporaryLockRoot : String)

def diskCode : DiskTask → Program Answer (Option (Except RuntimeLockError FileGuard))
  | .idle => return none
  | .acquire config => do
      let result ← acquire temporaryLockRoot
        (RuntimeLockIdentity.forConfig installed temporaryLockRoot config)
      return some result
  | .hold _ _ => return none
  | .drop guard => do
      guard.drop
      return none

def diskTasks : Tasks Answer DiskTask (Option (Except RuntimeLockError FileGuard)) where
  code := diskCode installed temporaryLockRoot
  follows := DiskFollows

abbrev DiskPool (ι : Type) :=
  Pool Answer ι (System ι) DiskTask (Option (Except RuntimeLockError FileGuard))

/-- A guard that `acquire` has returned and whose drop has not begun. -/
def LiveGuard {ι : Type} (st : DiskPool ι) (i : ι) (config : Config) (guard : FileGuard) :
    Prop :=
  st.task i = .hold config guard ∨
    (st.task i = .acquire config ∧ st.rest i = .done (some (.ok guard)))

/-- Where every process is idle. -/
def startDisk {ι : Type} (w : System ι) : DiskPool ι where
  world := w
  task := fun _ => .idle
  rest := fun _ => diskCode installed temporaryLockRoot .idle

/-- The paths of the lock files of a configuration. -/
def lockPathsOf (uid : Nat) (config : Config) : List String :=
  (hashesOf installed temporaryLockRoot config).map
    (lockPath (lockParent uid installed temporaryLockRoot))

/-- What a process knows when it has finished a task. -/
def diskPost {ι : Type} (a : Account) (task : DiskTask)
    (result : Option (Except RuntimeLockError FileGuard)) (s : ι × System ι) : Prop :=
  Grounded a installed temporaryLockRoot s.2 ∧ match task with
    | .idle | .drop _ => Holding s.1 s.2 []
    | .acquire config => ∃ attempt, result = some attempt ∧
        Attempted a s.1 s.2 (lockParent a.uid installed temporaryLockRoot)
          (hashesOf installed temporaryLockRoot config) attempt s.2
    | .hold config guard => Attempted a s.1 s.2 (lockParent a.uid installed temporaryLockRoot)
        (hashesOf installed temporaryLockRoot config) (.ok guard) s.2

end

section

variable {ι : Type} {a : Account} {i : ι} {w w' : System ι} {parent : String}
  {hashes : List UInt64} {installed : Bool} {temporaryLockRoot : String}

theorem Attempted.now {origin : System ι} {attempt : Except RuntimeLockError FileGuard}
    (h : Attempted a i origin parent hashes attempt w) :
    Attempted a i w parent hashes attempt w := by
  cases attempt with
  | error error => exact ⟨.refl _, h.2⟩
  | ok guard => exact ⟨.refl _, h.2⟩

theorem Attempted.keeps {origin : System ι} {attempt : Except RuntimeLockError FileGuard}
    (h : Attempted a i origin parent hashes attempt w) :
    origin.fs.Keeps a.trusted a.transient w.fs := by
  cases attempt with
  | error error => exact h.1
  | ok guard => exact h.1

theorem Attempted.onward {attempt : Except RuntimeLockError FileGuard}
    (h : Attempted a i w parent hashes attempt w) (honward : Onward a i w w') :
    Attempted a i w' parent hashes attempt w' := by
  cases attempt with
  | error error => exact ⟨.refl _, h.2.onward honward⟩
  | ok guard =>
      exact ⟨.refl _, h.2.1.onward honward, h.2.2.imp fun _ _ hlock => hlock.onward honward⟩

/-- Every task that may follow meets its contract. -/
theorem diskTurn_holds (hprobes : Probes a) {task task' : DiskTask}
    {result : Option (Except RuntimeLockError FileGuard)} {s : ι × System ι}
    (hfollows : DiskFollows task result task')
    (hpost : diskPost installed temporaryLockRoot a task result s) :
    Holds (contract a) (diskPost installed temporaryLockRoot a task')
      (diskCode installed temporaryLockRoot task') s := by
  obtain ⟨i, w⟩ := s
  obtain ⟨hground, hpost⟩ := hpost
  have hidle : Holding i w [] → Holds (contract a)
      (diskPost installed temporaryLockRoot a .idle) (.done none) (i, w) := fun hholding =>
    holds_done fun w' h => ⟨hground.kept h.keeps, hholding.onward h.onward⟩
  cases hfollows with
  | begin config =>
      refine holds_bind (holds_mono (acquire_attempted hprobes config hground hpost) ?_)
      rintro attempt ⟨_, w₁⟩ ⟨rfl, hattempted⟩
      refine holds_done fun w₂ h₂ => ⟨?_, attempt, rfl, hattempted.now.onward h₂.onward⟩
      exact hground.kept (hattempted.keeps.trans h₂.keeps)
  | refused config error =>
      obtain ⟨_, ⟨⟩, hattempted⟩ := hpost
      exact hidle hattempted.2
  | granted config guard =>
      obtain ⟨_, ⟨⟩, hattempted⟩ := hpost
      exact holds_done fun w' h => ⟨hground.kept h.keeps, hattempted.onward h.onward⟩
  | release config guard =>
      refine holds_bind (holds_mono (drop_releases hpost.2.1) ?_)
      rintro ⟨⟩ ⟨_, w₁⟩ ⟨rfl, hkeeps, hholding⟩
      refine holds_done fun w₂ h₂ => ⟨?_, hholding.onward h₂.onward⟩
      exact hground.kept (hkeeps.trans h₂.keeps)
  | dropped guard => exact hidle hpost

variable [DecidableEq ι]

/-- A process that holds a guard asks nothing until it releases it. -/
theorem rest_of_hold {st st' : DiskPool ι}
    (hreach : PoolReaches (diskTasks installed temporaryLockRoot) (world a) st st')
    (hstart : ∀ i config guard, st.task i = .hold config guard → st.rest i = .done none) :
    ∀ i config guard, st'.task i = .hold config guard → st'.rest i = .done none := by
  induction hreach with
  | refl => exact hstart
  | tail _ hstep ih =>
      intro i config guard htask
      cases hstep with
      | ask j answer w hrest hanswer =>
          have hi := ih i config guard htask
          have hne : i ≠ j := by
            rintro rfl
            rw [hi] at hrest
            cases hrest
          simpa [hne] using hi
      | turn j task hrest hfollows =>
          by_cases hij : i = j
          · subst hij
            simp only [Function.update_self] at htask ⊢
            rw [htask]
            rfl
          · simp only [Function.update_of_ne hij] at htask ⊢
            exact ih i config guard htask
      | move w hmoves => exact ih i config guard htask

omit [DecidableEq ι] in
/-- A live guard has the locks of its configuration. -/
theorem attempted_of_liveGuard {st : DiskPool ι}
    (hholds : ∀ i, Holds (contract a) (diskPost installed temporaryLockRoot a (st.task i))
      (st.rest i) (i, st.world))
    (hhold : ∀ i config guard, st.task i = .hold config guard → st.rest i = .done none)
    {config : Config} {guard : FileGuard} (hlive : LiveGuard st i config guard) :
    Attempted a i st.world (lockParent a.uid installed temporaryLockRoot)
      (hashesOf installed temporaryLockRoot config) (.ok guard) st.world := by
  rcases hlive with htask | ⟨htask, hrest⟩
  · have hpost := post_of_done hholds (hhold i config guard htask)
    rw [htask] at hpost
    exact hpost.2
  · have hpost := post_of_done hholds hrest
    rw [htask] at hpost
    obtain ⟨-, attempt, hattempt, hattempted⟩ := hpost
    cases hattempt
    exact hattempted

omit [DecidableEq ι] in
/-- Two processes do not have the lock of one path. -/
theorem locked_exclusive {j : ι} {path : String} {handle handle' : Nat} (hne : i ≠ j)
    (h : Locked a i w path handle) (h' : Locked a j w path handle') : False := by
  obtain ⟨-, file, hopened, hlock, htarget⟩ := h
  obtain ⟨-, file', hopened', hlock', htarget'⟩ := h'
  obtain rfl : file' = file := Guides.unique htarget.leads htarget'.leads
  obtain rfl := Option.some.inj (hlock.symm.trans hlock')
  exact hne (congrArg Prod.fst (Option.some.inj (hopened.symm.trans hopened')))

theorem forall₂_left {α β : Type} {R : α → β → Prop} {xs : List α} {ys : List β} {x : α}
    (h : List.Forall₂ R xs ys) (member : x ∈ xs) : ∃ y ∈ ys, R x y := by
  induction h with
  | nil => cases member
  | cons hfirst hrest ih =>
      rcases List.mem_cons.mp member with rfl | member
      · exact ⟨_, List.mem_cons_self, hfirst⟩
      · obtain ⟨y, hy, hR⟩ := ih member
        exact ⟨y, List.mem_cons_of_mem _ hy, hR⟩

omit [DecidableEq ι] in
/-- What a lock is on, as it is now. -/
theorem Locked.target {path : String} {handle : Nat} (hprobes : Probes a)
    (h : Locked a i w path handle) :
    ∃ file data, w.opened handle = some (i, file) ∧ w.locks file = some handle ∧
      w.fs.find (route path) = some file ∧ w.fs.metadata file = some data ∧
      data.fileType = .regular ∧ data.uid = a.uid ∧ data.mode &&& 0o077 = 0 := by
  obtain ⟨-, file, hopened, hlock, hleads, data, ⟨now, hnow, hkeeps⟩, hregular, howner, hmode⟩ := h
  refine ⟨file, now, hopened, hlock, Guides.find_eq hleads, hnow, hkeeps.fileType_eq.trans hregular,
    hkeeps.uid_eq.trans howner, ?_⟩
  rwa [hkeeps.mode_eq (by rw [howner]; exact hprobes.trusted)]

/-- Where all is in order an idle process may make a whole attempt before anybody else takes a
step, and it ends as the locks decide that are held. -/
theorem attempt_reaches {held : Held ι} (st : DiskPool ι) (config : Config)
    (htask : st.task i = .idle) (hrest : st.rest i = .done none) (hidle : held i = [])
    (horder : InOrder a installed temporaryLockRoot st.world held) :
    ∃ result st', PoolReaches (diskTasks installed temporaryLockRoot) (world a) st st' ∧
      st'.task = Function.update st.task i (.acquire config) ∧
      st'.rest = Function.update st.rest i (.done (some result)) ∧
      Footprint a installed temporaryLockRoot st.world.fs st'.world.fs ∧
      Concludes a i installed temporaryLockRoot held (hashesOf installed temporaryLockRoot config)
        result st'.world := by
  obtain ⟨trace, result, w, hrun, hpath, hfootprint, hends⟩ :=
    (acquire_attains config hidle horder).exists_run
  have hfollows : DiskFollows (st.task i) none (.acquire config) := by
    rw [htask]
    exact .begin config
  have hcode : Runs (diskCode installed temporaryLockRoot (.acquire config)) (trace ++ [])
      (some result) :=
    (runs_bind_iff _ _ _ _).mpr ⟨trace, [], _, rfl, hrun, .done _⟩
  rw [List.append_nil] at hcode
  exact ⟨result, _, poolReaches_task hrest hfollows hcode (answered_of_path hpath), rfl, rfl,
    hfootprint, hends⟩

end

/-- The runtime locks exclude one another on disk. Processes of one user acquire and release
locks again and again, one step at a time and in any order, and between their steps other
users may do to the file system whatever its owners and modes let them: plant files and
links, replace and remove what is not protected from them. If the directories that the code
takes for granted belong to the user or the superuser, then in every state that is reached:
live guards of two processes belong to configurations without a common resource; each lock
of a live guard is held on the file that its path names, a regular file of the user that is
private to him; a failed attempt keeps no file open; and a process that is about to remove a
file removes one that it has made itself. -/
theorem lockFiles_exclusive {ι : Type} [DecidableEq ι] (uid gid : Nat) (installed : Bool)
    (temporaryLockRoot : String) (w : System ι) (hclosed : ∀ handle, w.opened handle = none)
    (hground : Grounded (account uid gid) installed temporaryLockRoot w) (st : DiskPool ι)
    (hreach : PoolReaches (diskTasks installed temporaryLockRoot) (world (account uid gid))
      (startDisk installed temporaryLockRoot w) st) :
    (∀ i j config config' guard guard', i ≠ j → LiveGuard st i config guard →
      LiveGuard st j config' guard' → ¬ Overlaps config config') ∧
    (∀ i config guard, LiveGuard st i config guard →
      ∀ path ∈ lockPathsOf installed temporaryLockRoot uid config,
        ∃ handle ∈ guard.files, ∃ file data, st.world.opened handle = some (i, file) ∧
          st.world.locks file = some handle ∧
          st.world.fs.find (route path) = some file ∧
          st.world.fs.metadata file = some data ∧ data.fileType = .regular ∧
          data.uid = uid ∧ data.mode &&& 0o077 = 0) ∧
    (∀ i config error, st.task i = .acquire config →
      st.rest i = .done (some (.error error)) → ∀ handle, ¬ st.world.Owns i handle) ∧
    ∀ i path next, st.rest i = .ask (.unlink path) next →
      ∃ file, st.world.fs.find (route path) = some file ∧
        st.world.maker file = some i := by
  have hrely : Rely (diskTasks installed temporaryLockRoot) (world (account uid gid))
      (contract (account uid gid)) (diskPost (ι := ι) installed temporaryLockRoot
        (account uid gid)) Agrees :=
    rely fun hfollows hpost => diskTurn_holds (account_probes uid gid) hfollows hpost
  have hstart : Verified (contract (account uid gid))
      (diskPost installed temporaryLockRoot (account uid gid)) Agrees
      (startDisk installed temporaryLockRoot w) := by
    refine ⟨_, rfl, fun i => holds_done fun w' h => ⟨hground.kept h.keeps, fun handle => ?_⟩⟩
    rw [h.onward.owns]
    simp [System.Owns, startDisk, hclosed]
  obtain ⟨_, rfl, hholds⟩ := verified_of_reaches hrely hstart hreach
  have hhold := rest_of_hold hreach fun _ _ _ h => nomatch h
  have hlive : ∀ {i config guard}, LiveGuard st i config guard →
      Attempted (account uid gid) i st.world (lockParent uid installed temporaryLockRoot)
        (hashesOf installed temporaryLockRoot config) (.ok guard) st.world :=
    fun hguard => attempted_of_liveGuard hholds hhold hguard
  refine ⟨?_, ?_, ?_, ?_⟩
  · rintro i j config config' guard guard' hne hi hj ⟨record, member, record', member', hzone,
      htype, hname⟩
    have hsame := resourceLockHash_congr hzone htype hname
    have hpath : lockPath (lockParent uid installed temporaryLockRoot) (resourceLockHash record) ∈
        lockPathsOf installed temporaryLockRoot uid config :=
      List.mem_map_of_mem ((mem_forConfig_iff installed temporaryLockRoot config _).mpr
        ⟨record, member, rfl⟩)
    have hpath' : lockPath (lockParent uid installed temporaryLockRoot)
        (resourceLockHash record) ∈ lockPathsOf installed temporaryLockRoot uid config' :=
      List.mem_map_of_mem ((mem_forConfig_iff installed temporaryLockRoot config' _).mpr
        ⟨record', member', hsame.symm⟩)
    obtain ⟨handle, -, hlocked⟩ := forall₂_left (hlive hi).2.2 hpath
    obtain ⟨handle', -, hlocked'⟩ := forall₂_left (hlive hj).2.2 hpath'
    exact locked_exclusive hne hlocked hlocked'
  · intro i config guard hguard path member
    obtain ⟨handle, hhandle, hlocked⟩ := forall₂_left (hlive hguard).2.2 member
    exact ⟨handle, hhandle, hlocked.target (account_probes uid gid)⟩
  · intro i config error htask hrest handle hown
    have hpost := post_of_done hholds hrest
    rw [htask] at hpost
    obtain ⟨-, attempt, hattempt, hattempted⟩ := hpost
    cases hattempt
    exact List.not_mem_nil ((hattempted.2 handle).mp hown)
  · intro i path next hrest
    obtain ⟨dir, name, file, hlocate, hentry, hmaker, -⟩ := permits_of_ask hholds hrest
    exact ⟨file, (find_of_locate hlocate).trans hentry, hmaker⟩

theorem exampleHost_grounded : Grounded (account 1000 1000) false "/tmp" exampleHost where
  temporary := by
    have hroute : route "/tmp" = ⟨true, ["tmp"], false⟩ := by decide
    refine ⟨1, ?_, _, rfl, rfl, .inr rfl⟩
    unfold Leads
    rw [hroute]
    exact ⟨⟨1, ⟨rfl, _, rfl, rfl, .inr rfl, .inl (by decide)⟩, rfl⟩, List.cons_ne_nil _ _⟩
  service := fun h => nomatch h

theorem planted_foreign : ForeignName (account 1000 1000) "planted" where
  directory := by decide
  lock := by
    intro hash hname
    have hhead : (lockName hash).toList.head? = some 'r' := lockName_head hash
    rw [← hname] at hhead
    exact absurd hhead (by decide)
  probe := by
    intro hprobe
    exact absurd hprobe.head (by decide)

def plantedMetadata : Metadata := ⟨.regular, 1001, 1001, 0o666, 1, false⟩

/-- One process gets its lock, then another user plants a file in the directory for temporary
files, and then a second process is refused the lock of the first. -/
theorem planted_reaches : ∃ (st : DiskPool (Fin 2)) (guard : FileGuard)
    (error : RuntimeLockError) (file : Nat),
    PoolReaches (diskTasks false "/tmp") (world (account 1000 1000))
      (startDisk false "/tmp" exampleHost) st ∧ LiveGuard st 0 exampleConfig guard ∧
      st.task 1 = .acquire exampleConfig ∧ st.rest 1 = .done (some (.error error)) ∧
      st.world.fs.entry 1 "planted" = some file ∧
      st.world.fs.metadata file = some plantedMetadata := by
  obtain ⟨result, st₁, hgranted, htask₁, hrest₁, hfootprint₁, hends₁⟩ :=
    attempt_reaches (i := 0) (startDisk false "/tmp" exampleHost) exampleConfig rfl rfl rfl
      exampleHost_inOrder
  obtain ⟨guard, rfl⟩ : ∃ guard, result = .ok guard := by
    cases result with
    | ok guard => exact ⟨guard, rfl⟩
    | error error =>
        rcases hends₁.2 with ⟨hnone, -⟩ | ⟨hash, ⟨_, _, -, -, j, handle, member⟩, -⟩
        · cases hnone
        · cases member
  obtain ⟨locks, hlocks, -, hsome, -, horder₁⟩ := hends₁
  -- The directory belongs to the superuser, but everybody may make a file in it.
  have hdir : st₁.world.fs.metadata 1 = some ⟨.directory, 0, 0, 0o1777, 2, false⟩ :=
    FileSystem.Extends.metadata hfootprint₁ 1 _ rfl
  have hfree : st₁.world.fs.entry 1 "planted" = none := hfootprint₁.entry_eq rfl planted_foreign
  have hstranger : ¬ (account 1000 1000).trusted plantedMetadata.uid := by
    simp [account, plantedMetadata]
  obtain ⟨w, hmoves, hextends, hnamed, hmetadata⟩ := exists_planted hdir rfl hfree hstranger
  have horder₂ := horder₁.extends hextends fun _ _ hplace => hplace.2 ▸ planted_foreign
  -- The second process asks for what the first one has.
  have htask : ({ st₁ with world := w } : DiskPool (Fin 2)).task 1 = .idle := by
    rw [htask₁]
    rfl
  have hrest : ({ st₁ with world := w } : DiskPool (Fin 2)).rest 1 = .done none := by
    rw [hrest₁]
    rfl
  obtain ⟨result, st₂, hrefused, htask₂, hrest₂, hfootprint₂, hends₂⟩ :=
    attempt_reaches (i := 1) { st₁ with world := w } exampleConfig htask hrest rfl horder₂
  have htaken : ∀ hash ∈ hashesOf false "/tmp" exampleConfig,
      Taken (Function.update (fun _ : Fin 2 => []) 0 locks) hash := by
    intro hash member
    rw [← hlocks] at member
    obtain ⟨⟨_, handle⟩, hlock, rfl⟩ := List.mem_map.mp member
    exact ⟨0, handle, hlock⟩
  obtain ⟨error, rfl⟩ : ∃ error, result = .error error := by
    cases result with
    | error error => exact ⟨error, rfl⟩
    | ok guard' =>
        obtain ⟨_, -, -, -, hothers, -⟩ := hends₂
        obtain ⟨hash, member⟩ := List.exists_mem_of_ne_nil _ hsome
        exact absurd (htaken hash member) (hothers hash member)
  refine ⟨st₂, guard, error, st₁.world.fs.count, (hgranted.tail (.move _ _ hmoves)).trans hrefused,
    .inr ⟨?_, ?_⟩, ?_, ?_, ?_, ?_⟩
  · rw [htask₂, htask₁]
    rfl
  · rw [hrest₂, hrest₁]
    rfl
  · rw [htask₂]
    rfl
  · rw [hrest₂]
    rfl
  · have hdir₂ := hextends.fs.isSome (Option.isSome_of_eq_some hdir)
    exact FileSystem.Extends.named hfootprint₂ 1 _ _ hdir₂ hnamed
  · exact FileSystem.Extends.metadata hfootprint₂ _ _ hmetadata

theorem lockFiles_exclusive_planted : ∃ (st : DiskPool (Fin 2)) (guard : FileGuard)
    (error : RuntimeLockError) (file : Nat), LiveGuard st 0 exampleConfig guard ∧
      st.world.fs.entry 1 "planted" = some file ∧
      st.world.fs.metadata file = some plantedMetadata ∧
      (∀ path ∈ lockPathsOf false "/tmp" 1000 exampleConfig, ∃ handle ∈ guard.files, ∃ file,
        st.world.opened handle = some (0, file) ∧ st.world.locks file = some handle) ∧
      st.rest 1 = .done (some (.error error)) ∧ ∀ handle, ¬ st.world.Owns 1 handle := by
  obtain ⟨st, guard, error, file, hreach, hguard, htask, hrest, hnamed, hmetadata⟩ :=
    planted_reaches
  obtain ⟨-, hlocked, hfailed, -⟩ := lockFiles_exclusive 1000 1000 false "/tmp" exampleHost
    (fun _ => rfl) exampleHost_grounded st hreach
  refine ⟨st, guard, error, file, hguard, hnamed, hmetadata, fun path member => ?_, hrest,
    hfailed 1 exampleConfig error htask hrest⟩
  obtain ⟨handle, hhandle, locked, data, hopened, hlock, -⟩ := hlocked 0 _ guard hguard path member
  exact ⟨handle, hhandle, locked, hopened, hlock⟩

end Cirrusync.LockFiles
