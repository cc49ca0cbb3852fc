import Cirrusync.LockFilesOrder

/-!
Attempts on lock files in good order, on a faultless host: each lock file is opened and
found free or taken, and what an attempt takes it takes as a whole.
-/

namespace Cirrusync.LockFiles

open Effect Files FileSystem RuntimeLockIdentity

section

variable {ι : Type} {a : Account} {i : ι} {w w' w'' : System ι} {installed : Bool}
  {temporaryLockRoot parent : String} {held : Held ι} {dir file handle : Nat}
  {hash : UInt64} {data : Metadata}

theorem lockEntry_make (hash hash' : UInt64) (hfile : dir ≠ w.fs.count) :
    (w.make i dir (lockName hash) data).fs.entry dir (lockName hash') =
      if hash' = hash then some w.fs.count else w.fs.entry dir (lockName hash') := by
  split
  · next hsame =>
      rw [hsame]
      exact make_entry_self
  · next hne => exact make_entry_of_ne (.inr fun hname => hne (lockName_injective hname)) hfile

/-- A new lock file. -/
theorem LockRoom.make (h : LockRoom a installed w parent held dir)
    (hfresh : w.locks w.fs.count = none) (hfree : w.fs.entry dir (lockName hash) = none)
    (hregular : data.fileType = .regular) (howner : data.uid = a.uid)
    (hmode : data.mode = 0o600) (hlinks : data.nlink = 1) :
    LockRoom a installed (w.make i dir (lockName hash) data) parent held dir := by
  have hextends : w.Extends (fun dir' name => dir' = dir ∧ name = lockName hash)
      (w.make i dir (lockName hash) data) := System.make_extends hfree
  have hne : dir ≠ w.fs.count := by
    obtain ⟨there, hthere, -⟩ := h.isDirectory
    exact ne_count_of_some hthere
  have hold : ∀ {hash' file}, w.fs.entry dir (lockName hash') = some file →
      file ≠ w.fs.count := by
    intro hash' file hfile
    obtain ⟨data', hdata', -⟩ := h.files hash' file hfile
    exact ne_count_of_some hdata'
  constructor
  case find => exact hextends.fs.find h.find
  case directory =>
    obtain ⟨there, hthere, hdirectory⟩ := h.directory
    exact ⟨there, hextends.fs.metadata dir there hthere, hdirectory⟩
  case files =>
    intro hash' file hfile
    rw [lockEntry_make hash hash' hne] at hfile
    split at hfile
    · cases hfile
      refine ⟨data, make_metadata_self, hregular, howner, hlinks, ?_⟩
      simp [permissions, hmode]
    · obtain ⟨data', hdata', hprivate⟩ := h.files hash' file hfile
      exact ⟨data', hextends.fs.metadata file data' hdata', hprivate⟩
  case distinct =>
    intro hash₁ hash₂ file hfile₁ hfile₂
    rw [lockEntry_make hash _ hne] at hfile₁ hfile₂
    split at hfile₁ <;> split at hfile₂
    · next h₁ h₂ => rw [h₁, h₂]
    · cases hfile₁
      exact absurd rfl (hold hfile₂)
    · cases hfile₂
      exact absurd rfl (hold hfile₁)
    · exact h.distinct hash₁ hash₂ file hfile₁ hfile₂
  case holds =>
    intro j hash' handle member
    obtain ⟨file, hfile, hopened, hlock⟩ := h.holds j hash' handle member
    exact ⟨file, hextends.fs.named dir _ file (isSome_of_isDirectory h.isDirectory) hfile,
      hopened, hlock⟩
  case locked =>
    intro hash' file handle hfile hlock
    rw [lockEntry_make hash hash' hne] at hfile
    split at hfile
    · cases hfile
      have htaken : w.locks w.fs.count = some handle := hlock
      rw [hfresh] at htaken
      cases htaken
    · exact h.locked hash' file handle hfile hlock

theorem Ready.make (h : Ready a installed temporaryLockRoot w held dir)
    (hfree : w.fs.entry dir (lockName hash) = none)
    (hregular : data.fileType = .regular) (howner : data.uid = a.uid)
    (hmode : data.mode = 0o600) (hlinks : data.nlink = 1) :
    Ready a installed temporaryLockRoot (w.make i dir (lockName hash) data) held dir where
  probes := by
    obtain ⟨room, hroom⟩ := h.probes
    have hextends : w.Extends (fun dir' name => dir' = dir ∧ name = lockName hash)
        (w.make i dir (lockName hash) data) := System.make_extends hfree
    refine ⟨room, hroom.extends hextends fun name hprobe hsame => ?_⟩
    rw [hsame.2] at hprobe
    exact lockName_lasting hash hprobe
  fresh := fun file hfile => h.fresh file (Nat.le_of_succ_le hfile)
  room := h.room.make (h.fresh _ (Nat.le_refl _)) hfree hregular howner hmode hlinks

theorem Ready.openAs (h : Ready a installed temporaryLockRoot w held dir) (file : Nat) :
    Ready a installed temporaryLockRoot (w.openAs i file) held dir := by
  have hextends : w.Extends (fun _ _ => False) (w.openAs i file) := System.openAs_extends file
  obtain ⟨room, hroom⟩ := h.probes
  exact ⟨⟨room, hroom.extends hextends fun _ _ => id⟩, h.fresh, h.room.extends hextends fun _ => id⟩

/-! Opening a lock file. -/

theorem LockRoom.locate (h : LockRoom a installed w parent held dir) (hash : UInt64) :
    w.fs.locate (route (lockPath parent hash)) = some (dir, lockName hash) := by
  change w.fs.locate (route (joinPath parent (lockName hash))) = _
  rw [route_joinPath parent (lockName_plain hash)]
  exact locate_join h.walk

theorem LockRoom.find_lock (h : LockRoom a installed w parent held dir) (hash : UInt64) :
    w.fs.find (route (lockPath parent hash)) = w.fs.entry dir (lockName hash) := by
  change w.fs.find (route (joinPath parent (lockName hash))) = _
  rw [route_joinPath parent (lockName_plain hash)]
  exact find_join h.walk

theorem validateExistingLockTarget_succeeds (h : LockRoom a installed w parent held dir)
    (hash : UInt64) :
    Succeeds a i w (validateExistingLockTarget (lockPath parent hash) a.uid)
      fun _ w' => w' = w := by
  unfold validateExistingLockTarget Succeeds
  rw [run_call_bind]
  cases hentry : w.fs.entry dir (lockName hash) with
  | none =>
      refine attains_lstat_absent ((h.find_lock hash).trans hentry) fun error herror => ?_
      simp only [herror, beq_self_eq_true, if_true]
      exact succeeds_pure rfl
  | some file =>
      obtain ⟨data, hdata, hregular, howner, hlinks, hprivate⟩ := h.files hash file hentry
      refine attains_lstat ((h.find_lock hash).trans hentry) hdata ?_
      refine attains_check (by simp [hregular]) (attains_check (by simp [howner]) ?_)
      refine attains_check (by simp [hlinks]) ?_
      rw [if_neg (by simp [hprivate])]
      exact succeeds_pure rfl

theorem validateOpenedLock_succeeds (h : LockRoom a installed w parent held dir)
    (hentry : w.fs.entry dir (lockName hash) = some file)
    (hopened : w.opened handle = some (i, file)) :
    Succeeds a i w (validateOpenedLock (lockPath parent hash) a.uid handle)
      fun _ w' => w' = w := by
  obtain ⟨data, hdata, hregular, howner, hlinks, hprivate⟩ := h.files hash file hentry
  unfold validateOpenedLock Succeeds
  rw [run_call_bind]
  refine attains_fstat hopened hdata ?_
  refine attains_told ((h.find_lock hash).trans hentry) hdata ?_
  refine attains_check (by simp [hregular]) (attains_check (by simp) ?_)
  refine attains_check (by simp [hlinks]) (attains_check (by simp [howner]) ?_)
  rw [if_neg (by simp [hprivate])]
  exact succeeds_pure rfl

/-- Every lock file can be opened, and is made if there is none. -/
theorem openRuntimeLock_succeeds (h : Ready a installed temporaryLockRoot w held dir)
    (hash : UInt64) :
    Succeeds a i w
      (openRuntimeLock (lockPath (lockParent a.uid installed temporaryLockRoot) hash) a.uid)
      fun handle w' => Ready a installed temporaryLockRoot w' held dir ∧
        w.fs.Extends (fun dir' name => dir' = dir ∧ name = lockName hash) w'.fs ∧
        ∃ file, w'.fs.entry dir (lockName hash) = some file ∧
          w'.opened handle = some (i, file) := by
  have hrest : ∀ {w' : System ι} {handle file : Nat},
      Ready a installed temporaryLockRoot w' held dir →
      w'.fs.entry dir (lockName hash) = some file → w'.opened handle = some (i, file) →
      Succeeds a i w' (keepingOpen handle (validateOpenedLock
        (lockPath (lockParent a.uid installed temporaryLockRoot) hash) a.uid handle))
        fun opened w'' => opened = handle ∧ w'' = w' := by
    intro w' handle file hready hentry hopened
    refine attains_bind (attains_mono (validateOpenedLock_succeeds hready.room hentry hopened) ?_)
    rintro _ w'' ⟨value, rfl, rfl⟩
    exact attains_done.mpr ⟨handle, rfl, rfl, rfl⟩
  unfold openRuntimeLock
  refine succeeds_bind (succeeds_mono (validateExistingLockTarget_succeeds h.room hash) ?_)
  rintro _ w rfl
  unfold Succeeds
  rw [run_call_bind]
  cases hentry : w.fs.entry dir (lockName hash) with
  | none =>
      refine attains_openFile_new (h.room.locate hash) hentry
        fun data hregular howner hmode hlinks => ?_
      have hready : Ready a installed temporaryLockRoot
          ((w.make i dir (lockName hash) data).openAs i w.fs.count) held dir :=
        (h.make hentry hregular howner hmode hlinks).openAs w.fs.count
      refine succeeds_mono (hrest hready make_entry_self (Function.update_self ..)) ?_
      rintro _ _ ⟨rfl, rfl⟩
      exact ⟨hready, FileSystem.make_extends hentry, w.fs.count, make_entry_self,
        Function.update_self ..⟩
  | some file =>
      obtain ⟨data, hdata, hregular, -⟩ := h.room.files hash file hentry
      refine attains_openFile (h.room.locate hash) hentry hdata hregular ?_
      refine succeeds_mono (hrest (h.openAs file) hentry (Function.update_self ..)) ?_
      rintro _ _ ⟨rfl, rfl⟩
      exact ⟨h.openAs file, .refl _, file, hentry, Function.update_self ..⟩

end

/-! Locks come and go. -/

section

variable {ι : Type} {a : Account} {i : ι} {w w' w'' : System ι} {installed : Bool}
  {temporaryLockRoot root : String} {held : Held ι} {dir room file handle : Nat}
  {hash : UInt64} {files : List Nat}

/-- Files have been closed, and their locks are gone. -/
structure Shuts (files : List Nat) (w w' : System ι) : Prop where
  fs_eq : w'.fs = w.fs
  opened : ∀ handle, w'.opened handle = if handle ∈ files then none else w.opened handle
  locks : ∀ file handle,
    w'.locks file = some handle ↔ w.locks file = some handle ∧ handle ∉ files

theorem Shuts.append {files' : List Nat} (h : Shuts files w w') (h' : Shuts files' w' w'') :
    Shuts (files ++ files') w w'' where
  fs_eq := h'.fs_eq.trans h.fs_eq
  opened := by
    intro handle
    rw [h'.opened, h.opened]
    by_cases hfirst : handle ∈ files <;> simp [hfirst]
  locks := by
    intro file handle
    rw [h'.locks, h.locks, List.mem_append, not_or, and_assoc]

theorem shuts_shut (w : System ι) (handle : Nat) : Shuts [handle] w (w.shut handle) where
  fs_eq := rfl
  opened := by
    intro handle'
    by_cases hsame : handle' = handle <;> simp [System.shut, hsame]
  locks := by
    intro file handle'
    by_cases hsame : handle' = handle
    · subst hsame
      by_cases hlock : w.locks file = some handle' <;> simp [System.shut, hlock]
    · rw [List.mem_singleton]
      exact (System.release_locks_iff hsame).trans (iff_self_and.mpr fun _ => hsame)

/-- A handle that is not open has no lock. -/
theorem shuts_closed (h : w.opened handle = none) : Shuts [handle] w w where
  fs_eq := rfl
  opened := by
    intro handle'
    by_cases hsame : handle' = handle <;> simp [hsame, h]
  locks := by
    intro file handle'
    refine iff_self_and.mpr fun hlock hsame => ?_
    obtain ⟨j, hopened⟩ := w.locked file handle' hlock
    rw [List.mem_singleton.mp hsame, h] at hopened
    cases hopened

/-- Files that a process can close, as they are its own or closed already. -/
def Closable (i : ι) (w : System ι) (files : List Nat) : Prop :=
  ∀ handle ∈ files, w.Owns i handle ∨ w.opened handle = none

theorem Closable.shuts {closed : List Nat} (h : Closable i w files) (hshuts : Shuts closed w w') :
    Closable i w' files := by
  intro handle member
  by_cases hclosed : handle ∈ closed
  · right
    rw [hshuts.opened, if_pos hclosed]
  · unfold System.Owns
    simp only [hshuts.opened, if_neg hclosed]
    exact h handle member

theorem closeFiles_attains (hown : Closable i w files) :
    Attains a i w (closeFiles files) fun _ w' => Shuts files w w' := by
  induction files generalizing w with
  | nil => exact attains_done.mpr ⟨rfl, fun _ => (if_neg List.not_mem_nil).symm, by simp⟩
  | cons handle rest ih =>
      have hrest : ∀ {w₁ : System ι}, Shuts [handle] w w₁ → Attains a i w₁ (closeFiles rest)
          fun _ w' => Shuts (handle :: rest) w w' := by
        intro w₁ hfirst
        have hlater : Closable i w rest := fun other member =>
          hown other (List.mem_cons_of_mem _ member)
        exact attains_mono (ih (hlater.shuts hfirst)) fun _ w' hshuts => hfirst.append hshuts
      rw [closeFiles, Program.perform_bind]
      rcases hown handle List.mem_cons_self with hopen | hclosed
      · exact attains_close hopen (hrest (shuts_shut w handle))
      · refine attains_ask fun _ w₁ hanswers _ => ?_
        obtain ⟨⟨file, hopened⟩, -⟩ | ⟨-, rfl⟩ := hanswers
        · rw [hclosed] at hopened
          cases hopened
        · exact hrest (shuts_closed hclosed)

/-- Files have been unlocked. -/
structure Unlocks (files : List Nat) (w w' : System ι) : Prop where
  fs_eq : w'.fs = w.fs
  opened_eq : w'.opened = w.opened
  locks : ∀ file handle,
    w'.locks file = some handle ↔ w.locks file = some handle ∧ handle ∉ files

theorem unlockFiles_attains (hown : ∀ handle ∈ files, w.Owns i handle) :
    Attains a i w (FileGuard.unlockFiles files) fun _ w' => Unlocks files w w' := by
  induction files generalizing w with
  | nil => exact attains_done.mpr ⟨rfl, rfl, by simp⟩
  | cons handle rest ih =>
      rw [FileGuard.unlockFiles, Program.perform_bind]
      refine attains_unlock (hown handle List.mem_cons_self) ?_
      have hlater : ∀ other ∈ rest, (w.release handle).Owns i other := fun other member =>
        hown other (List.mem_cons_of_mem _ member)
      refine attains_mono (ih hlater) fun _ w' hrest => ⟨hrest.fs_eq, hrest.opened_eq, ?_⟩
      intro file handle'
      have hfirst : (w.release handle).locks file = some handle' ↔
          w.locks file = some handle' ∧ handle' ≠ handle :=
        ((shuts_shut w handle).locks file handle').trans
          (and_congr_right' (not_congr List.mem_singleton))
      rw [hrest.locks, hfirst, List.mem_cons, not_or, and_assoc]

theorem drop_attains {guard : FileGuard} (hown : ∀ handle ∈ guard.files, w.Owns i handle) :
    Attains a i w guard.drop fun _ w' => Shuts guard.files w w' := by
  unfold FileGuard.drop
  refine attains_bind (attains_mono (unlockFiles_attains hown) fun _ w₁ hunlocks => ?_)
  have hclosable : Closable i w₁ guard.files := by
    intro handle member
    obtain ⟨file, hopened⟩ := hown handle member
    exact .inl ⟨file, (congrFun hunlocks.opened_eq handle).trans hopened⟩
  refine attains_mono (closeFiles_attains hclosable) fun _ w₂ hshuts => ⟨?_, ?_, ?_⟩
  · exact hshuts.fs_eq.trans hunlocks.fs_eq
  · rw [← hunlocks.opened_eq]
    exact hshuts.opened
  · intro file handle
    rw [hshuts.locks, hunlocks.locks, and_assoc, and_self]

theorem ProbeRoom.of_fs_eq (h : ProbeRoom w root room) (hfs : w'.fs = w.fs) :
    ProbeRoom w' root room := by
  constructor
  case find => rw [hfs]; exact h.find
  case container => rw [hfs]; exact h.container
  case clear => rw [hfs]; exact h.clear

theorem Shuts.fresh (h : Shuts files w w')
    (hfresh : ∀ file, w.fs.count ≤ file → w.locks file = none) :
    ∀ file, w'.fs.count ≤ file → w'.locks file = none := by
  intro file hfile
  rw [h.fs_eq] at hfile
  rw [Option.eq_none_iff_forall_ne_some]
  intro handle hlock
  have hold := ((h.locks file handle).mp hlock).1
  rw [hfresh file hfile] at hold
  cases hold

variable [DecidableEq ι]

theorem mem_update_iff {j : ι} {locks : List (UInt64 × Nat)} {entry : UInt64 × Nat} :
    entry ∈ Function.update held i locks j ↔
      (j = i ∧ entry ∈ locks) ∨ (j ≠ i ∧ entry ∈ held j) := by
  by_cases hj : j = i
  · subst hj
    simp
  · simp [hj]

/-- When a process closes all the files of its locks, the directory is in order with nothing held
by it and with what the others hold. -/
theorem LockRoom.shuts {parent : String} (h : LockRoom a installed w parent held dir)
    (hshuts : Shuts files w w') (hown : Closable i w files)
    (hall : ∀ hash handle, (hash, handle) ∈ held i → handle ∈ files) :
    LockRoom a installed w' parent (Function.update held i []) dir := by
  constructor
  case find => rw [hshuts.fs_eq]; exact h.find
  case directory => rw [hshuts.fs_eq]; exact h.directory
  case files => rw [hshuts.fs_eq]; exact h.files
  case distinct => rw [hshuts.fs_eq]; exact h.distinct
  case holds =>
    intro j hash handle member
    obtain ⟨-, hnone⟩ | ⟨hj, member⟩ := mem_update_iff.mp member
    · cases hnone
    · obtain ⟨file, hentry, hopened, hlock⟩ := h.holds j hash handle member
      have hnot : handle ∉ files := by
        intro hfile
        rcases hown handle hfile with ⟨file', hopened'⟩ | hclosed
        · exact hj (congrArg Prod.fst (Option.some.inj (hopened.symm.trans hopened')))
        · rw [hclosed] at hopened
          cases hopened
      rw [hshuts.fs_eq, hshuts.opened, if_neg hnot]
      exact ⟨file, hentry, hopened, (hshuts.locks file handle).mpr ⟨hlock, hnot⟩⟩
  case locked =>
    intro hash file handle hentry hlock
    rw [hshuts.fs_eq] at hentry
    obtain ⟨hlock, hnot⟩ := (hshuts.locks file handle).mp hlock
    obtain ⟨j, member⟩ := h.locked hash file handle hentry hlock
    refine ⟨j, mem_update_iff.mpr (.inr ⟨?_, member⟩)⟩
    rintro rfl
    exact hnot (hall hash handle member)

theorem InOrder.shuts (h : InOrder a installed temporaryLockRoot w held)
    (hshuts : Shuts files w w') (hown : Closable i w files)
    (hall : ∀ hash handle, (hash, handle) ∈ held i → handle ∈ files) :
    InOrder a installed temporaryLockRoot w' (Function.update held i []) where
  probes := by
    obtain ⟨room, hroom⟩ := h.probes
    exact ⟨room, hroom.of_fs_eq hshuts.fs_eq⟩
  fresh := hshuts.fresh h.fresh
  parent := by
    rcases h.parent with ⟨dir, hdir⟩ | ⟨hinstalled, hnone, hfree⟩
    · exact .inl ⟨dir, hdir.shuts hshuts hown hall⟩
    · refine .inr ⟨hinstalled, fun j => ?_, fun room hroom => ?_⟩
      · by_cases hj : j = i <;> simp [hj, hnone]
      · rw [hshuts.fs_eq]
        exact hfree room (hroom.of_fs_eq hshuts.fs_eq.symm)

theorem Ready.shuts (h : Ready a installed temporaryLockRoot w held dir)
    (hshuts : Shuts files w w') (hown : Closable i w files)
    (hall : ∀ hash handle, (hash, handle) ∈ held i → handle ∈ files) :
    Ready a installed temporaryLockRoot w' (Function.update held i []) dir where
  probes := by
    obtain ⟨room, hroom⟩ := h.probes
    exact ⟨room, hroom.of_fs_eq hshuts.fs_eq⟩
  fresh := hshuts.fresh h.fresh
  room := h.room.shuts hshuts hown hall

/-- A lock on the file of a hash that is free. -/
theorem Ready.lock (h : Ready a installed temporaryLockRoot w held dir)
    (hentry : w.fs.entry dir (lockName hash) = some file)
    (hopened : w.opened handle = some (i, file)) (hfree : w.locks file = none) :
    Ready a installed temporaryLockRoot (w.lock i handle file hopened)
      (Function.update held i (held i ++ [(hash, handle)])) dir := by
  have hlocks : ∀ file', (w.lock i handle file hopened).locks file' =
      if file' = file then some handle else w.locks file' := fun file' => Function.update_apply ..
  refine ⟨?_, fun file' hfile' => ?_, ?_⟩
  · obtain ⟨room, hroom⟩ := h.probes
    exact ⟨room, hroom.of_fs_eq rfl⟩
  · have hne : file' ≠ file := by
      rintro rfl
      have hnamed := w.fs.named dir _ file' hentry
      rw [w.fs.unmade file' hfile'] at hnamed
      cases hnamed
    rw [hlocks, if_neg hne]
    exact h.fresh file' hfile'
  · refine ⟨h.room.find, h.room.directory, h.room.files, h.room.distinct, ?_, ?_⟩
    · intro j hash' handle' member
      have hold : (hash', handle') ∈ held j → ∃ file', w.fs.entry dir (lockName hash') =
          some file' ∧ w.opened handle' = some (j, file') ∧
            (w.lock i handle file hopened).locks file' = some handle' := by
        intro member
        obtain ⟨file', hentry', hopened', hlock'⟩ := h.room.holds j hash' handle' member
        refine ⟨file', hentry', hopened', ?_⟩
        rw [hlocks, if_neg]
        · exact hlock'
        · rintro rfl
          rw [hfree] at hlock'
          cases hlock'
      obtain ⟨rfl, member⟩ | ⟨-, member⟩ := mem_update_iff.mp member
      · rcases List.mem_append.mp member with member | member
        · exact hold member
        · cases List.mem_singleton.mp member
          exact ⟨file, hentry, hopened, (hlocks file).trans (if_pos rfl)⟩
      · exact hold member
    · intro hash' file' handle' hentry' hlock'
      rw [hlocks] at hlock'
      split at hlock'
      · next hsame =>
          subst hsame
          cases hlock'
          obtain rfl := h.room.distinct hash hash' file' hentry hentry'
          exact ⟨i, mem_update_iff.mpr (.inl ⟨rfl, by simp⟩)⟩
      · obtain ⟨j, member⟩ := h.room.locked hash' file' handle' hentry' hlock'
        by_cases hj : j = i
        · subst hj
          exact ⟨j, mem_update_iff.mpr (.inl ⟨rfl, by simp [member]⟩)⟩
        · exact ⟨j, mem_update_iff.mpr (.inr ⟨hj, member⟩)⟩

end

end Cirrusync.LockFiles
