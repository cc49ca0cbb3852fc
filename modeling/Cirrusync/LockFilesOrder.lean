import Cirrusync.Files.Extension
import Cirrusync.Files.Faultless
import Cirrusync.LockFilesAttempt

/-!
Lock files in good order. On a faultless host an attempt finds out who has the locks that
it asks for, and it leaves the directory of lock files in good order again.
-/

namespace Cirrusync.LockFiles

open Effect Files FileSystem RuntimeLockIdentity

/-- The hashes that each process has locked, and the open files of their locks. -/
abbrev Held (ι : Type) := ι → List (UInt64 × Nat)

theorem lockName_injective {hash hash' : UInt64} (h : lockName hash = lockName hash') :
    hash = hash' := by
  have hpath : lockPath "" hash = lockPath "" hash' := congrArg (joinPath "") h
  exact lockPath_injective hpath

section

variable {ι : Type}

/-- A directory for ownership probes, with no probe in it. -/
structure ProbeRoom (w : System ι) (root : String) (dir : Nat) : Prop where
  find : w.fs.find (route root) = some dir
  container : ∃ data, w.fs.metadata dir = some data ∧ data.fileType = .directory ∧
    (data.mode &&& 0o022 = 0 ∨ data.mode &&& 0o1000 ≠ 0)
  clear : ∀ name, IsProbeName name → w.fs.entry dir name = none

/-- The permissions that the directory of lock files must not give. -/
def parentMask (installed : Bool) : Nat := if installed then 0o022 else 0o077

/-- The directory of lock files: each of these is private, no two names are of one file,
and the files that are locked are those of the hashes that are held. -/
structure LockRoom (a : Account) (installed : Bool) (w : System ι) (parent : String)
    (held : Held ι) (dir : Nat) : Prop where
  find : w.fs.find (route parent) = some dir
  directory : ∃ data, w.fs.metadata dir = some data ∧ data.fileType = .directory ∧
    data.uid = a.uid ∧ permissions data &&& parentMask installed = 0
  files : ∀ hash file, w.fs.entry dir (lockName hash) = some file →
    ∃ data, w.fs.metadata file = some data ∧ data.fileType = .regular ∧ data.uid = a.uid ∧
      data.nlink = 1 ∧ permissions data &&& 0o077 = 0
  distinct : ∀ hash hash' file, w.fs.entry dir (lockName hash) = some file →
    w.fs.entry dir (lockName hash') = some file → hash = hash'
  holds : ∀ i hash handle, (hash, handle) ∈ held i → ∃ file,
    w.fs.entry dir (lockName hash) = some file ∧ w.opened handle = some (i, file) ∧
      w.locks file = some handle
  locked : ∀ hash file handle, w.fs.entry dir (lockName hash) = some file →
    w.locks file = some handle → ∃ i, (hash, handle) ∈ held i

/-- All is in order where the lock files are. -/
structure Ready (a : Account) (installed : Bool) (temporaryLockRoot : String) (w : System ι)
    (held : Held ι) (dir : Nat) : Prop where
  probes : ∃ room, ProbeRoom w temporaryLockRoot room
  fresh : ∀ file, w.fs.count ≤ file → w.locks file = none
  room : LockRoom a installed w (lockParent a.uid installed temporaryLockRoot) held dir

/-- All is in order, or there are no lock files yet. -/
structure InOrder (a : Account) (installed : Bool) (temporaryLockRoot : String) (w : System ι)
    (held : Held ι) : Prop where
  probes : ∃ room, ProbeRoom w temporaryLockRoot room
  fresh : ∀ file, w.fs.count ≤ file → w.locks file = none
  parent : (∃ dir, LockRoom a installed w (lockParent a.uid installed temporaryLockRoot)
      held dir) ∨
    (installed = false ∧ (∀ i, held i = []) ∧ ∀ room, ProbeRoom w temporaryLockRoot room →
      w.fs.entry room (runtimeDirectory a.uid) = none)

/-- Some process has a hash. -/
def Taken (held : Held ι) (hash : UInt64) : Prop := ∃ i handle, (hash, handle) ∈ held i

variable {a : Account} {i : ι} {w w' : System ι} {installed : Bool}
  {temporaryLockRoot root parent : String} {held : Held ι} {dir file handle : Nat}
  {changes : Nat → String → Prop} {hash : UInt64}

theorem Ready.inOrder (h : Ready a installed temporaryLockRoot w held dir) :
    InOrder a installed temporaryLockRoot w held :=
  ⟨h.probes, h.fresh, .inl ⟨dir, h.room⟩⟩

theorem ProbeRoom.isDirectory (h : ProbeRoom w root dir) : w.fs.IsDirectory dir := by
  obtain ⟨data, hdata, hdirectory, -⟩ := h.container
  exact ⟨data, hdata, hdirectory⟩

theorem isSome_of_isDirectory {fs : FileSystem} (h : fs.IsDirectory dir) :
    (fs.metadata dir).isSome = true := by
  obtain ⟨data, hdata, -⟩ := h
  rw [hdata]
  rfl

theorem ProbeRoom.walk (h : ProbeRoom w root dir) :
    w.fs.walk (w.fs.start (route root)) (route root).names = some dir :=
  walk_of_find h.find h.isDirectory

theorem ProbeRoom.extends (h : ProbeRoom w root dir) (hextends : w.Extends changes w')
    (hclear : ∀ name, IsProbeName name → ¬ changes dir name) : ProbeRoom w' root dir where
  find := hextends.fs.find h.find
  container := by
    obtain ⟨data, hdata, hcontainer⟩ := h.container
    exact ⟨data, hextends.fs.metadata dir data hdata, hcontainer⟩
  clear := fun name hname =>
    (hextends.fs.entry dir name (isSome_of_isDirectory h.isDirectory) (hclear name hname)).trans
      (h.clear name hname)

theorem LockRoom.isDirectory (h : LockRoom a installed w parent held dir) :
    w.fs.IsDirectory dir := by
  obtain ⟨data, hdata, hdirectory, -⟩ := h.directory
  exact ⟨data, hdata, hdirectory⟩

theorem LockRoom.walk (h : LockRoom a installed w parent held dir) :
    w.fs.walk (w.fs.start (route parent)) (route parent).names = some dir :=
  walk_of_find h.find h.isDirectory

theorem LockRoom.extends (h : LockRoom a installed w parent held dir)
    (hextends : w.Extends changes w') (hkeeps : ∀ hash, ¬ changes dir (lockName hash)) :
    LockRoom a installed w' parent held dir := by
  have hentry : ∀ hash, w'.fs.entry dir (lockName hash) = w.fs.entry dir (lockName hash) :=
    fun hash => hextends.fs.entry dir _ (isSome_of_isDirectory h.isDirectory) (hkeeps hash)
  constructor
  case find => exact hextends.fs.find h.find
  case directory =>
    obtain ⟨data, hdata, hdirectory⟩ := h.directory
    exact ⟨data, hextends.fs.metadata dir data hdata, hdirectory⟩
  case files =>
    intro hash file hfile
    rw [hentry] at hfile
    obtain ⟨data, hdata, hprivate⟩ := h.files hash file hfile
    exact ⟨data, hextends.fs.metadata file data hdata, hprivate⟩
  case distinct =>
    intro hash hash' file hfile hfile'
    rw [hentry] at hfile hfile'
    exact h.distinct hash hash' file hfile hfile'
  case holds =>
    intro i hash handle member
    obtain ⟨file, hfile, hopened, hlock⟩ := h.holds i hash handle member
    exact ⟨file, (hentry hash).trans hfile, hextends.opened_of_some hopened,
      (congrFun hextends.locks_eq file).trans hlock⟩
  case locked =>
    intro hash file handle hfile hlock
    rw [hentry] at hfile
    rw [hextends.locks_eq] at hlock
    exact h.locked hash file handle hfile hlock

/-- A name that neither the directory of lock files, nor a lock file, nor a probe has. -/
structure ForeignName (a : Account) (name : String) : Prop where
  directory : name ≠ runtimeDirectory a.uid
  lock : ∀ hash, name ≠ lockName hash
  probe : ¬ IsProbeName name

/-- All stays in order where no more is made than files with foreign names, by whomever they
are made. -/
theorem InOrder.extends (h : InOrder a installed temporaryLockRoot w held)
    (hextends : w.Extends changes w')
    (hforeign : ∀ dir name, changes dir name → ForeignName a name) :
    InOrder a installed temporaryLockRoot w' held where
  probes := by
    obtain ⟨room, hroom⟩ := h.probes
    exact ⟨room, hroom.extends hextends fun name hname hchanges =>
      (hforeign room name hchanges).probe hname⟩
  fresh := by
    intro file hfile
    rw [hextends.locks_eq]
    exact h.fresh file (Nat.le_trans hextends.fs.count_le hfile)
  parent := by
    rcases h.parent with ⟨dir, hdir⟩ | ⟨hinstalled, hnone, hfree⟩
    · exact .inl ⟨dir, hdir.extends hextends fun hash hchanges =>
        (hforeign dir _ hchanges).lock hash rfl⟩
    · obtain ⟨room, hroom⟩ := h.probes
      refine .inr ⟨hinstalled, hnone, fun room' hroom' => ?_⟩
      have hsame : room = room' :=
        Option.some.inj ((hextends.fs.find hroom.find).symm.trans hroom'.find)
      subst hsame
      rw [hextends.fs.entry room _ (isSome_of_isDirectory hroom.isDirectory) fun hchanges =>
        (hforeign room _ hchanges).directory rfl]
      exact hfree room hroom

/-! The ownership probe. -/

section

variable {β : Type} {path : String} {post : Except RuntimeLockError β → System ι → Prop}
  {data : Metadata}

theorem attains_told {f : Stat → FileM β} (hfind : w.fs.find (route path) = some file)
    (hdata : w.fs.metadata file = some data)
    (h : Attains a i w (f ⟨file, data, (w.fs.contents file).length⟩).run post) :
    Attains a i w (call (.lstat path) >>= fun result => opening path result >>= f).run post := by
  rw [run_call_bind]
  exact attains_lstat hfind hdata h

/-- A check that is passed. -/
theorem attains_check {c : Prop} [Decidable c] {reason : String} {f : Unit → FileM β}
    (hpassed : ¬ c) (h : Attains a i w (f ()).run post) :
    Attains a i w (if c then refuse path reason >>= f else f ()).run post := by
  rwa [if_neg hpassed]

end

theorem validatePrivateLockContainer_succeeds (h : ProbeRoom w root dir) :
    Succeeds a i w (validatePrivateLockContainer root) fun _ w' => w' = w := by
  obtain ⟨data, hdata, hdirectory, hguard⟩ := h.container
  unfold validatePrivateLockContainer
  refine attains_told h.find hdata (attains_check (by simp [hdirectory]) ?_)
  rw [if_neg (by rcases hguard with hguard | hguard <;> simp [hguard])]
  exact succeeds_pure rfl

/-- The first probe is made, tells the owner and is removed again. -/
theorem probeOwner_succeeds (h : ProbeRoom w root dir) (timestamp attempt left : Nat) :
    Succeeds a i w (probeOwner root timestamp attempt (left + 1)) fun owner w' =>
      owner = a.uid ∧ w.Extends (fun _ _ => False) w' := by
  unfold probeOwner Succeeds
  rw [run_call_bind]
  refine attains_any (fun _ _ => id) fun sequence => ?_
  rw [run_call_bind]
  refine attains_any (fun _ _ => id) fun processId => ?_
  have hplain := probeName_plain processId timestamp sequence attempt
  generalize hname : probeName processId timestamp sequence attempt = name at hplain ⊢
  have hfree : w.fs.entry dir name = none :=
    h.clear name ⟨processId, timestamp, sequence, attempt, hname.symm⟩
  have hlocate : ∀ {w' : System ι}, w.fs.Extends (fun dir' name' => dir' = dir ∧ name' = name)
      w'.fs → w'.fs.locate (route (joinPath root name)) = some (dir, name) := by
    intro w' hextends
    rw [route_joinPath root hplain]
    exact locate_join (hextends.walk_start h.walk)
  rw [run_call_bind]
  refine attains_openNew (hlocate (.refl _)) hfree fun data hregular howner _ _ => ?_
  have hmetadata : ((w.make i dir name data).openAs i w.fs.count).fs.metadata w.fs.count =
      some data := make_metadata_self
  dsimp only
  rw [run_call_bind]
  refine attains_fstat (Function.update_self ..) hmetadata ?_
  rw [run_call_bind]
  refine attains_unlink (hlocate (FileSystem.make_extends hfree)) make_entry_self ?_ ?_
  · rintro ⟨data', hdata', hdirectory⟩
    obtain rfl := Option.some.inj (hmetadata.symm.trans hdata')
    rw [hregular] at hdirectory
    cases hdirectory
  · rw [run_call_bind]
    refine attains_close ⟨w.fs.count, Function.update_self ..⟩ ?_
    refine attains_done.mpr ⟨data.uid, rfl, howner, ?_⟩
    exact System.passing_extends (isSome_of_isDirectory h.isDirectory) hfree

theorem currentFileOwner_succeeds (h : ProbeRoom w root dir) :
    Succeeds a i w (currentFileOwner root) fun owner w' =>
      owner = a.uid ∧ w.Extends (fun _ _ => False) w' := by
  unfold currentFileOwner
  refine succeeds_bind (succeeds_mono (validatePrivateLockContainer_succeeds h) ?_)
  rintro _ _ rfl
  unfold Succeeds
  rw [run_call_bind]
  exact attains_any (fun _ _ => id) fun timestamp => probeOwner_succeeds h timestamp 0 15

/-! The directory for the lock files. -/

/-- The names that an attempt may bring: that of the directory of lock files, and those of
lock files in it. -/
def Touched (a : Account) (installed : Bool) (temporaryLockRoot : String) (fs : FileSystem)
    (dir : Nat) (name : String) : Prop :=
  (fs.find (route temporaryLockRoot) = some dir ∧ name = runtimeDirectory a.uid) ∨
    (fs.find (route (lockParent a.uid installed temporaryLockRoot)) = some dir ∧
      ∃ hash, name = lockName hash)

/-- Nothing else has changed in the file system. -/
def Footprint (a : Account) (installed : Bool) (temporaryLockRoot : String)
    (fs fs' : FileSystem) : Prop :=
  fs.Extends (Touched a installed temporaryLockRoot fs') fs'

theorem Touched.extends {fs fs' : FileSystem} {name : String}
    (h : Touched a installed temporaryLockRoot fs dir name) (hextends : fs.Extends changes fs') :
    Touched a installed temporaryLockRoot fs' dir name :=
  h.imp (And.imp_left hextends.find) (And.imp_left hextends.find)

theorem Footprint.trans {fs fs' fs'' : FileSystem}
    (h : Footprint a installed temporaryLockRoot fs fs')
    (h' : Footprint a installed temporaryLockRoot fs' fs'') :
    Footprint a installed temporaryLockRoot fs fs'' :=
  FileSystem.Extends.trans (h.mono fun _ _ htouched => htouched.extends h') h'

theorem Footprint.entry_eq {fs fs' : FileSystem} {name : String}
    (h : Footprint a installed temporaryLockRoot fs fs')
    (hdir : (fs.metadata dir).isSome = true) (hforeign : ForeignName a name) :
    fs'.entry dir name = fs.entry dir name := by
  refine FileSystem.Extends.entry h dir name hdir ?_
  rintro (⟨-, hname⟩ | ⟨-, hash, hname⟩)
  · exact hforeign.directory hname
  · exact hforeign.lock hash hname

theorem lockDirectoryMetadata_succeeds {path : String} {data : Metadata}
    (hfind : w.fs.find (route path) = some dir) (hdata : w.fs.metadata dir = some data)
    (hdirectory : data.fileType = .directory) :
    Succeeds a i w (lockDirectoryMetadata path) fun told w' => told = data ∧ w' = w := by
  unfold lockDirectoryMetadata
  refine attains_told hfind hdata (attains_check (by simp [hdirectory]) ?_)
  exact succeeds_pure ⟨rfl, rfl⟩

theorem validateOwnerMatch_succeeds {path : String} {owner : Nat} :
    Succeeds a i w (validateOwnerMatch path owner owner) fun _ w' => w' = w := by
  unfold validateOwnerMatch
  rw [if_neg (by simp)]
  exact succeeds_pure rfl

/-- The directory of lock files as it is made. -/
theorem LockRoom.made {data : Metadata} {room : Nat} (hroom : ProbeRoom w root room)
    (hnone : ∀ i, held i = []) (hfree : w.fs.entry room (runtimeDirectory a.uid) = none)
    (hdirectory : data.fileType = .directory) (howner : data.uid = a.uid)
    (hmode : data.mode = 0o700) :
    LockRoom a false (w.make i room (runtimeDirectory a.uid) data)
      (joinPath root (runtimeDirectory a.uid)) held w.fs.count := by
  have hne : room ≠ w.fs.count := by
    obtain ⟨there, hthere, -⟩ := hroom.isDirectory
    exact ne_count_of_some hthere
  have hempty : ∀ hash, (w.make i room (runtimeDirectory a.uid) data).fs.entry w.fs.count
      (lockName hash) = none := fun _ => make_entry_new hne
  constructor
  case find =>
    have hextends : w.fs.Extends (fun dir name => dir = room ∧ name = runtimeDirectory a.uid)
        (w.fs.make room (runtimeDirectory a.uid) data) := FileSystem.make_extends hfree
    rw [route_joinPath root (runtimeDirectory_plain a.uid)]
    exact (find_join (hextends.walk_start hroom.walk)).trans make_entry_self
  case directory =>
    refine ⟨data, make_metadata_self, hdirectory, howner, ?_⟩
    simp [permissions, parentMask, hmode]
  case files =>
    intro hash file hfile
    rw [hempty] at hfile
    cases hfile
  case distinct =>
    intro hash hash' file hfile
    rw [hempty] at hfile
    cases hfile
  case holds =>
    intro j hash handle member
    rw [hnone] at member
    cases member
  case locked =>
    intro hash file handle hfile
    rw [hempty] at hfile
    cases hfile

/-- Where all is in order, the private directory of the user is made or it is there, and then
there is room for lock files in it. Nothing else is changed. -/
theorem createPrivateLockDirectory_succeeds (h : InOrder a false root w held) :
    Succeeds a i w (createPrivateLockDirectory (joinPath root (runtimeDirectory a.uid)))
      fun _ w' => Footprint a false root w.fs w'.fs ∧ ∃ dir, Ready a false root w' held dir := by
  obtain ⟨room, hroom⟩ := h.probes
  have hname := runtimeDirectory_plain a.uid
  have hlocate : w.fs.locate (route (joinPath root (runtimeDirectory a.uid))).unslashed =
      some (room, runtimeDirectory a.uid) := by
    rw [route_joinPath root hname]
    exact locate_join hroom.walk
  unfold createPrivateLockDirectory Succeeds
  rw [run_call_bind]
  rcases h.parent with ⟨dir, hdir⟩ | ⟨-, hnone, hfree⟩
  · have hentry : w.fs.entry room (runtimeDirectory a.uid) = some dir := by
      have hfind : w.fs.find (route (joinPath root (runtimeDirectory a.uid))) = some dir :=
        hdir.find
      rwa [route_joinPath root hname, find_join hroom.walk] at hfind
    refine attains_mkdir_there hlocate hentry fun error herror => ?_
    simp only [herror, beq_self_eq_true, if_true]
    exact succeeds_pure ⟨.refl _, dir, h.probes, h.fresh, hdir⟩
  · refine attains_mkdir hlocate (hfree room hroom) fun data hdirectory howner hmode => ?_
    have hextends : w.Extends (fun dir name => dir = room ∧ name = runtimeDirectory a.uid)
        (w.make i room (runtimeDirectory a.uid) data) := System.make_extends (hfree room hroom)
    refine succeeds_pure ⟨hextends.fs.mono ?_, w.fs.count, ?_, ?_, ?_⟩
    · rintro dir' name' ⟨rfl, rfl⟩
      exact .inl ⟨hextends.fs.find hroom.find, rfl⟩
    · refine ⟨room, hroom.extends hextends fun name hprobe hsame => ?_⟩
      rw [hsame.2] at hprobe
      exact runtimeDirectory_lasting a.uid hprobe
    · intro file hfile
      exact h.fresh file (Nat.le_of_succ_le hfile)
    · exact LockRoom.made hroom hnone (hfree room hroom) hdirectory howner hmode

theorem InOrder.footprint_none (hextends : w.Extends (fun _ _ => False) w') :
    Footprint a installed temporaryLockRoot w.fs w'.fs :=
  hextends.fs.mono fun _ _ => False.elim

theorem prepareTemporaryLockParent_succeeds (h : InOrder a false root w held) :
    Succeeds a i w (prepareTemporaryLockParent root) fun prepared w' =>
      prepared = ⟨lockParent a.uid false root, a.uid⟩ ∧ Footprint a false root w.fs w'.fs ∧
        ∃ dir, Ready a false root w' held dir := by
  obtain ⟨room, hroom⟩ := h.probes
  unfold prepareTemporaryLockParent
  refine succeeds_bind (succeeds_mono (validatePrivateLockContainer_succeeds hroom) ?_)
  rintro _ _ rfl
  refine succeeds_bind (succeeds_mono (currentFileOwner_succeeds hroom) ?_)
  rintro _ w₁ ⟨rfl, hprobed⟩
  refine succeeds_bind (succeeds_mono
    (createPrivateLockDirectory_succeeds (h.extends hprobed nofun)) ?_)
  rintro _ w₂ ⟨hfootprint, dir, hready⟩
  obtain ⟨data, hdata, hdirectory, howner, hmode⟩ := hready.room.directory
  refine succeeds_bind (succeeds_mono
    (lockDirectoryMetadata_succeeds hready.room.find hdata hdirectory) ?_)
  rintro _ _ ⟨rfl, rfl⟩
  refine attains_check (by simpa [parentMask] using hmode) ?_
  rw [howner]
  refine succeeds_bind (succeeds_mono validateOwnerMatch_succeeds ?_)
  rintro _ _ rfl
  exact succeeds_pure ⟨rfl, (InOrder.footprint_none hprobed).trans hfootprint, dir, hready⟩

theorem prepareInstalledLockParent_succeeds (h : InOrder a true temporaryLockRoot w held) :
    Succeeds a i w (prepareInstalledLockParent temporaryLockRoot "/var/lib/cirrusync")
      fun prepared w' => prepared = ⟨lockParent a.uid true temporaryLockRoot, a.uid⟩ ∧
        Footprint a true temporaryLockRoot w.fs w'.fs ∧
        ∃ dir, Ready a true temporaryLockRoot w' held dir := by
  obtain ⟨room, hroom⟩ := h.probes
  obtain ⟨dir, hdir⟩ : ∃ dir, LockRoom a true w "/var/lib/cirrusync" held dir :=
    h.parent.resolve_right fun habsent => nomatch habsent.1
  obtain ⟨data, hdata, hdirectory, howner, hmode⟩ := hdir.directory
  unfold prepareInstalledLockParent
  refine succeeds_bind (succeeds_mono
    (lockDirectoryMetadata_succeeds hdir.find hdata hdirectory) ?_)
  rintro _ _ ⟨rfl, rfl⟩
  refine succeeds_bind (succeeds_mono (currentFileOwner_succeeds hroom) ?_)
  rintro _ w₁ ⟨rfl, hprobed⟩
  unfold validateInstalledLockParent
  refine attains_check (by simpa [parentMask] using hmode) ?_
  rw [howner]
  refine succeeds_bind (succeeds_mono validateOwnerMatch_succeeds ?_)
  rintro _ _ rfl
  have horder := h.extends hprobed nofun
  refine succeeds_pure ⟨rfl, InOrder.footprint_none hprobed, dir, horder.probes, horder.fresh, ?_⟩
  exact hdir.extends hprobed fun _ => id

theorem prepareLockParent_succeeds (config : Config)
    (h : InOrder a installed temporaryLockRoot w held) :
    let identity := RuntimeLockIdentity.forConfig installed temporaryLockRoot config
    Succeeds a i w (prepareLockParent temporaryLockRoot identity.lockRoot identity.temporaryRoot)
      fun prepared w' => prepared = ⟨lockParent a.uid installed temporaryLockRoot, a.uid⟩ ∧
        Footprint a installed temporaryLockRoot w.fs w'.fs ∧
        ∃ dir, Ready a installed temporaryLockRoot w' held dir := by
  cases installed with
  | false => exact prepareTemporaryLockParent_succeeds h
  | true => exact prepareInstalledLockParent_succeeds h

end

end Cirrusync.LockFiles
