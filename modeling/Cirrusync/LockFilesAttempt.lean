import Cirrusync.LockFilesRuns
import Cirrusync.LockIdentity

/-!
Whole attempts on the lock files. An attempt ends with all the locks, each on the private
file that its path leads to, or with no file open.
-/

namespace Cirrusync.LockFiles

open Effect Files FileSystem RuntimeLockIdentity

section

variable {ι : Type} {a : Account} {i : ι} {w w' w'' : System ι} {path : String}
  {dir file handle : Nat}

/-- How the opening of a lock file ends. -/
def Opens (a : Account) (i : ι) (w : System ι) (path : String) :
    Except RuntimeLockError Nat → System ι → Prop
  | .ok handle, w' => ∃ file, Adds a i handle file w w' ∧ LockTarget a w' path file
  | .error _, w' => Onward a i w w'

theorem keepingOpen_opens (hlasting : Lasting a path) (hadds : Adds a i handle file w w')
    (hleads : Leads a w' path file) :
    Ensures a i w' (keepingOpen handle (validateOpenedLock path a.uid handle)).run
      (Opens a i w path) := by
  have hbody : Yields a i w' (validateOpenedLock path a.uid handle)
      fun _ w'' => LockTarget a w'' path file :=
    yields_mono (validateOpenedLock_target hadds.opened_self) fun _ _ honward htarget =>
      ⟨hleads.onward (.inr hlasting) honward, htarget⟩
  refine ensures_mono (keepingOpen_ensures hadds hbody fun _ _ hleaves htarget =>
    htarget.kept hlasting hleaves.keeps) ?_
  rintro (error | opened) w'' hends
  · exact hends
  · obtain ⟨rfl, hadded, htarget⟩ := hends
    exact ⟨file, hadded, htarget⟩

/-- The lock file that a path in a closed directory leads to. -/
theorem openRuntimeLock_opens {parent name : String} (hleads : Leads a w parent dir)
    (hclosed : Closed a w dir) (hname : PlainName name) (hlasting : ¬ a.transient name) :
    Ensures a i w (openRuntimeLock (joinPath parent name) a.uid).run
      (Opens a i w (joinPath parent name)) := by
  have hlast : Lasting a (joinPath parent name) := by
    intro other hother
    rw [components_joinPath parent hname, List.getLast?_concat] at hother
    cases hother
    exact hlasting
  unfold openRuntimeLock
  refine ensures_raising_bind (ensures_mono validateExistingLockTarget_yields ?_)
  rintro (error | ⟨⟩) w₁ ⟨h₁, -⟩
  · exact fun w₂ h₂ => h₁.trans h₂.onward
  · rw [run_call_bind]
    refine ensures_ask fun w₂ h₂ => ⟨trivial, fun answer w₃ hanswer => ?_⟩
    have hbefore := h₁.trans h₂.onward
    have hclosed' := hclosed.onward hbefore
    have hsheltered : Sheltered a w₂ parent dir :=
      ⟨hleads.onward (.inl hclosed.sheltering.isDirectory) hbefore, hclosed'.sheltering⟩
    cases answer with
    | error source =>
        obtain rfl : w₃ = w₂ := hanswer
        exact ensures_done fun w₄ h₄ => hbefore.trans h₄.onward
    | ok handle =>
        -- A file that has been made and one that was there differ in how they are named.
        have hopens : ∃ file, Adds a i handle file w w₃ ∧
            Leads a w₃ (joinPath parent name) file := by
          obtain ⟨rfl, ⟨made, hmade, rfl⟩ | ⟨file, data, hfind, -, -, -, rfl⟩⟩ := hanswer
          · refine ⟨_, hmade.adds.before hbefore, ?_⟩
            have hentry := hmade
            obtain ⟨dir', name', data, hlocate, -, -, -, -, rfl⟩ := hentry
            rw [hsheltered.locate hname] at hlocate
            cases hlocate
            have honward := (System.creates_leaves (j := i) hmade).onward
            exact (hsheltered.onward honward).leads_join hname
              ((hclosed'.onward honward).shielded FileSystem.make_entry_self)
          · refine ⟨file, (w₂.openAs_adds file).before hbefore, ?_⟩
            rw [hsheltered.find hname] at hfind
            exact hsheltered.leads_join hname (hclosed'.shielded hfind)
        obtain ⟨file, hadds, hfile⟩ := hopens
        exact keepingOpen_opens hlast hadds hfile

/-! Taking the locks. -/

/-- The lock on the file that a path leads to. -/
def Locked (a : Account) (i : ι) (w : System ι) (path : String) (handle : Nat) : Prop :=
  Lasting a path ∧ ∃ file, w.opened handle = some (i, file) ∧ w.locks file = some handle ∧
    LockTarget a w path file

/-- The handles that a process has. -/
def Holding (i : ι) (w : System ι) (files : List Nat) : Prop :=
  ∀ handle, w.Owns i handle ↔ handle ∈ files

theorem Locked.onward (h : Locked a i w path handle) (honward : Onward a i w w') :
    Locked a i w' path handle := by
  obtain ⟨hlasting, file, hopened, hlock, htarget⟩ := h
  exact ⟨hlasting, file, (honward.opened _ _).mpr hopened, honward.locks _ _ hopened hlock,
    htarget.kept hlasting honward.keeps⟩

theorem Holding.onward {files : List Nat} (h : Holding i w files) (honward : Onward a i w w') :
    Holding i w' files :=
  fun handle => honward.owns.trans (h handle)

theorem Locked.adds {other : Nat} (h : Locked a i w path handle)
    (hadds : Adds a i other file w w') : Locked a i w' path handle := by
  obtain ⟨hlasting, file', hopened, hlock, htarget⟩ := h
  exact ⟨hlasting, file', (hadds.opened _ _).mpr (.inr hopened),
    hadds.locks _ _ hopened hlock, htarget.kept hlasting hadds.keeps⟩

theorem Locked.lock {other : Nat} {hopened : w.opened other = some (i, file)}
    (h : Locked a i w path handle) (hfree : w.locks file = none) :
    Locked a i (w.lock i other file hopened) path handle := by
  obtain ⟨hlasting, file', hopened', hlock, htarget⟩ := h
  refine ⟨hlasting, file', hopened', ?_, htarget.kept hlasting (.refl w.fs)⟩
  have hne : file' ≠ file := by
    rintro rfl
    rw [hfree] at hlock
    cases hlock
  exact (Function.update_of_ne hne _ _).trans hlock

theorem closeFiles_closes (files : List Nat) (w : System ι) :
    Ensures a i w (closeFiles files) fun _ w' =>
      w.fs.Keeps a.trusted a.transient w'.fs ∧
        ∀ handle, w'.Owns i handle ↔ handle ∉ files ∧ w.Owns i handle := by
  induction files generalizing w with
  | nil =>
      refine ensures_done fun w' h => ⟨h.keeps, fun handle => ?_⟩
      simp [h.onward.owns]
  | cons file rest ih =>
      refine ensures_bind (ensures_ask fun w₁ h₁ => ⟨trivial, fun _ w₂ hclosed => ?_⟩)
      refine ensures_done fun w₃ h₃ => ensures_mono (ih w₃) ?_
      rintro _ w₄ ⟨hkeeps, howns⟩
      have hshut : w₁.fs.Keeps a.trusted a.transient w₂.fs ∧
          ∀ handle, w₂.Owns i handle ↔ handle ≠ file ∧ w₁.Owns i handle := by
        obtain ⟨-, rfl⟩ | ⟨hnot, rfl⟩ := hclosed
        · have hdrops := w₁.shut_drops (a := a) (i := i) file
          exact ⟨hdrops.keeps, fun handle => hdrops.owns⟩
        · refine ⟨.refl _, fun handle => ⟨fun hown => ⟨?_, hown⟩, And.right⟩⟩
          rintro rfl
          exact hnot hown
      refine ⟨((h₁.keeps.trans hshut.1).trans h₃.keeps).trans hkeeps, fun handle => ?_⟩
      rw [howns, h₃.onward.owns, hshut.2, h₁.onward.owns, List.mem_cons, not_or]
      tauto

theorem unlockFiles_keeps (files : List Nat) (w : System ι) :
    Ensures a i w (FileGuard.unlockFiles files) fun _ w' =>
      w.fs.Keeps a.trusted a.transient w'.fs ∧ ∀ handle, w'.Owns i handle ↔ w.Owns i handle := by
  induction files generalizing w with
  | nil => exact ensures_done fun w' h => ⟨h.keeps, fun _ => h.onward.owns⟩
  | cons file rest ih =>
      refine ensures_bind (ensures_ask fun w₁ h₁ => ⟨trivial, fun _ w₂ hunlocked => ?_⟩)
      refine ensures_done fun w₃ h₃ => ensures_mono (ih w₃) ?_
      rintro _ w₄ ⟨hkeeps, howns⟩
      have hrelease : w₂.fs = w₁.fs ∧ w₂.opened = w₁.opened := by
        obtain ⟨-, rfl⟩ | ⟨-, rfl⟩ := hunlocked <;> exact ⟨rfl, rfl⟩
      have hsame : w₁.fs.Keeps a.trusted a.transient w₂.fs := by
        rw [hrelease.1]
        exact .refl _
      have howns' : w₂.Owns i = w₁.Owns i := by
        unfold System.Owns
        rw [hrelease.2]
      refine ⟨((h₁.keeps.trans hsame).trans h₃.keeps).trans hkeeps, fun handle => ?_⟩
      rw [howns, h₃.onward.owns, howns', h₁.onward.owns]

/-- How an attempt on the lock files of some hashes ends. -/
def Attempted (a : Account) (i : ι) (origin : System ι) (parent : String)
    (hashes : List UInt64) : Except RuntimeLockError FileGuard → System ι → Prop
  | .ok guard, w => origin.fs.Keeps a.trusted a.transient w.fs ∧ Holding i w guard.files ∧
      List.Forall₂ (Locked a i w) (hashes.map (lockPath parent)) guard.files
  | .error _, w => origin.fs.Keeps a.trusted a.transient w.fs ∧ Holding i w []

/-- Closing all its files leaves a process none. -/
theorem closeFiles_attempted {origin : System ι} {parent : String} {hashes : List UInt64}
    {files : List Nat} {error : RuntimeLockError}
    (horigin : origin.fs.Keeps a.trusted a.transient w.fs)
    (hholding : ∀ handle, w.Owns i handle → handle ∈ files) :
    Ensures a i w (closeFiles files >>= fun _ => .done (.error error))
      (Attempted a i origin parent hashes) := by
  refine ensures_bind (ensures_mono (closeFiles_closes files w) ?_)
  rintro _ w₁ ⟨hkeeps, howns⟩
  refine ensures_done fun w₂ h₂ => ⟨(horigin.trans hkeeps).trans h₂.keeps, fun handle => ?_⟩
  rw [h₂.onward.owns, howns]
  simp only [List.not_mem_nil, iff_false, not_and]
  exact fun hnot hown => absurd (hholding handle hown) hnot

/-- The loop of `acquire`, after the files of `before` have been locked. The induction is
on the hashes that are left. -/
theorem lockFiles_attempted (hprobes : Probes a) {origin : System ι}
    {parent : String} {files : List Nat} (hashes before : List UInt64)
    (horigin : origin.fs.Keeps a.trusted a.transient w.fs) (hleads : Leads a w parent dir)
    (hclosed : Closed a w dir) (hholding : Holding i w files)
    (hlocked : List.Forall₂ (Locked a i w) (before.map (lockPath parent)) files) :
    Ensures a i w (lockFiles a.uid (hashes.map (lockPath parent)) files)
      (Attempted a i origin parent (before ++ hashes)) := by
  induction hashes generalizing w before files with
  | nil =>
      rw [List.append_nil]
      refine ensures_done fun w' h => ⟨horigin.trans h.keeps, hholding.onward h.onward, ?_⟩
      exact hlocked.imp fun _ _ hlock => hlock.onward h.onward
  | cons hash rest ih =>
      have hlasting : ¬ a.transient (lockName hash) := by
        rw [hprobes.names]
        exact lockName_lasting hash
      refine ensures_bind (ensures_mono
        (openRuntimeLock_opens hleads hclosed (lockName_plain hash) hlasting) ?_)
      rintro (error | handle) w₁ hopens
      · have honward : Onward a i w w₁ := hopens
        exact closeFiles_attempted (horigin.trans honward.keeps) fun handle hown =>
          (hholding handle).mp (honward.owns.mp hown)
      · obtain ⟨file, hadds, htarget⟩ := hopens
        refine ensures_bind (ensures_ask fun w₂ h₂ => ⟨trivial, fun answer w₃ hanswer => ?_⟩)
        refine ensures_done fun w₄ h₄ => ?_
        have hadds' := hadds.onward h₂.onward
        cases answer with
        | error source =>
            obtain rfl : w₃ = w₂ := hanswer
            refine closeFiles_attempted ((horigin.trans hadds'.keeps).trans h₄.keeps)
              fun other hown => ?_
            rw [h₄.onward.owns, hadds'.owns, hholding] at hown
            exact List.mem_cons.mpr hown
        | ok value =>
            obtain ⟨file', hopened, hfree, rfl⟩ := hanswer
            obtain rfl : file' = file :=
              congrArg Prod.snd (Option.some.inj (hopened.symm.trans hadds'.opened_self))
            have hsame : w₂.fs.Keeps a.trusted a.transient
                (w₂.lock i handle file' hopened).fs := .refl _
            have hkeeps := (hadds'.keeps.trans hsame).trans h₄.keeps
            have hnew : Locked a i (w₂.lock i handle file' hopened) (lockPath parent hash)
                handle := by
              have hlast : Lasting a (lockPath parent hash) := by
                intro other hother
                rw [show lockPath parent hash = joinPath parent (lockName hash) from rfl,
                  components_joinPath parent (lockName_plain hash),
                  List.getLast?_concat] at hother
                cases hother
                exact hlasting
              exact ⟨hlast, file', hopened, Function.update_self _ _ _,
                (htarget.kept hlast h₂.keeps).kept hlast hsame⟩
            have hnext : Ensures a i w₄ (lockFiles a.uid (rest.map (lockPath parent))
                (files ++ [handle])) (Attempted a i origin parent (before ++ [hash] ++ rest)) := by
              refine ih (before ++ [hash]) (horigin.trans hkeeps)
                (hleads.kept (.inl hclosed.sheltering.isDirectory) hkeeps) (hclosed.kept hkeeps)
                ?_ ?_
              · intro other
                rw [h₄.onward.owns, List.mem_append, List.mem_singleton]
                exact (hadds'.owns.trans (or_congr Iff.rfl (hholding other))).trans or_comm
              · rw [List.map_append]
                refine List.rel_append (hlocked.imp fun _ _ hlock => ?_) (.cons ?_ .nil)
                · exact (((hlock.adds hadds').lock hfree).onward h₄.onward)
                · exact hnew.onward h₄.onward
            simpa using hnext

/-- Where the lock files of a user are. -/
def lockParent (uid : Nat) (installed : Bool) (temporaryLockRoot : String) : String :=
  if installed then "/var/lib/cirrusync"
  else joinPath temporaryLockRoot (runtimeDirectory uid)

/-- The hashes of a configuration. -/
def hashesOf (installed : Bool) (temporaryLockRoot : String) (config : Config) : List UInt64 :=
  (RuntimeLockIdentity.forConfig installed temporaryLockRoot config).resourceHashes

/-- The directories that the code takes for granted belong to trusted users: the one for
temporary files and, if the service is installed, the one that its directory is in, which
is also sheltering. -/
structure Grounded (a : Account) (installed : Bool) (temporaryLockRoot : String)
    (w : System ι) : Prop where
  temporary : ∃ dir, Rooted a w temporaryLockRoot dir
  service : installed = true → ∃ dir, Sheltered a w "/var/lib" dir

theorem Grounded.kept {installed : Bool} {temporaryLockRoot : String}
    (h : Grounded a installed temporaryLockRoot w)
    (hkeeps : w.fs.Keeps a.trusted a.transient w'.fs) :
    Grounded a installed temporaryLockRoot w' where
  temporary := h.temporary.imp fun _ hroot => hroot.kept hkeeps
  service := fun hinstalled => (h.service hinstalled).imp fun _ hdir => hdir.kept hkeeps

theorem prepareLockParent_prepares (hprobes : Probes a) {installed : Bool}
    {temporaryLockRoot : String} (config : Config)
    (h : Grounded a installed temporaryLockRoot w) :
    let identity := RuntimeLockIdentity.forConfig installed temporaryLockRoot config
    Yields a i w (prepareLockParent temporaryLockRoot identity.lockRoot identity.temporaryRoot)
      fun prepared w' => Prepared a w' (lockParent a.uid installed temporaryLockRoot) prepared := by
  obtain ⟨dir, hroot⟩ := h.temporary
  cases installed with
  | false => exact prepareTemporaryLockParent_prepares hprobes hroot
  | true =>
      obtain ⟨container, hcontainer⟩ := h.service rfl
      have hname : PlainName "cirrusync" := ⟨by decide, by decide⟩
      have hpath : joinPath "/var/lib" "cirrusync" = "/var/lib/cirrusync" := by decide
      have hprepares := prepareInstalledLockParent_prepares (i := i) hprobes hroot hcontainer hname
      rw [hpath] at hprepares
      exact hprepares

theorem acquire_attempted (hprobes : Probes a) {installed : Bool}
    {temporaryLockRoot : String} (config : Config)
    (h : Grounded a installed temporaryLockRoot w) (hholding : Holding i w []) :
    Ensures a i w
      (acquire temporaryLockRoot
        (RuntimeLockIdentity.forConfig installed temporaryLockRoot config))
      (Attempted a i w (lockParent a.uid installed temporaryLockRoot)
        (RuntimeLockIdentity.forConfig installed temporaryLockRoot config).resourceHashes) := by
  unfold acquire
  split
  · exact ensures_done fun w₁ h₁ => ⟨h₁.keeps, hholding.onward h₁.onward⟩
  · refine ensures_bind (ensures_mono (prepareLockParent_prepares hprobes config h) ?_)
    rintro (error | prepared) w₁ ⟨h₁, hprepared⟩
    · refine ensures_done fun w₂ h₂ => ⟨h₁.keeps.trans h₂.keeps, ?_⟩
      exact (hholding.onward h₁).onward h₂.onward
    · obtain ⟨hpath, howner, dir, hleads, hclosed⟩ := hprepared prepared rfl
      simp only [hpath, howner]
      exact lockFiles_attempted hprobes _ [] h₁.keeps hleads hclosed (hholding.onward h₁) .nil

theorem drop_releases {guard : FileGuard} (hholding : Holding i w guard.files) :
    Ensures a i w guard.drop fun _ w' =>
      w.fs.Keeps a.trusted a.transient w'.fs ∧ Holding i w' [] := by
  unfold FileGuard.drop
  refine ensures_bind (ensures_mono (unlockFiles_keeps guard.files w) ?_)
  rintro _ w₁ ⟨hkeeps, howns⟩
  refine ensures_mono (closeFiles_closes guard.files w₁) ?_
  rintro _ w₂ ⟨hkeeps', howns'⟩
  refine ⟨hkeeps.trans hkeeps', fun handle => ?_⟩
  rw [howns', howns, hholding handle]
  simp

end

end Cirrusync.LockFiles
