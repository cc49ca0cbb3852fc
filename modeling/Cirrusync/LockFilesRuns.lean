import Cirrusync.Files.Knowledge
import Cirrusync.LockPaths

/-!
What a process can rely on when it has prepared the directory for its lock files, opened
a lock file, taken all its locks or dropped them, while other users tamper with what they
can reach.
-/

namespace Cirrusync.LockFiles

open Effect Files FileSystem RuntimeLockIdentity

/-- A user who trusts nobody else but the superuser. -/
def account (uid gid : Nat) : Account where
  uid := uid
  gid := gid
  trusted := fun user => user = uid ∨ user = 0
  transient := IsProbeName

/-- A user who trusts himself and removes no files but probes. -/
structure Probes (a : Account) : Prop where
  trusted : a.trusted a.uid
  names : a.transient = IsProbeName

theorem account_probes (uid gid : Nat) : Probes (account uid gid) := ⟨.inl rfl, rfl⟩

section

variable {ι : Type} {a : Account} {i : ι} {w w' : System ι} {path : String}
  {dir file : Nat} {data : Metadata}

theorem directory_of_test {fileType : FileType}
    (h : ¬ (fileType == .symlink || fileType != .directory) = true) : fileType = .directory := by
  cases fileType <;> first | rfl | exact absurd rfl h

/-! Parts of the programs. -/

theorem validatePrivateLockContainer_shelters (hroot : Rooted a w path dir) :
    Yields a i w (validatePrivateLockContainer path) fun _ w' =>
      w'.fs.Sheltering a.trusted dir := by
  unfold validatePrivateLockContainer
  refine yields_lstat hroot.leads (.inl hroot.isDirectory) fun stat w₁ h₁ _ htold => ?_
  refine yields_check fun hdirectory => ?_
  refine yields_last_check fun hopen w₂ h₂ => ?_
  refine (htold.onward h₂).sheltering (directory_of_test hdirectory)
    (htold.trusted (hroot.onward h₁)) ?_
  unfold Metadata.othersWrite Metadata.sticky
  by_cases hwrite : stat.data.mode &&& 0o022 = 0
  · simp [hwrite]
  · simpa [hwrite] using hopen

/-! The ownership probe. -/

/-- A probe between its making and its removal: no other user can take it away, and no
sibling will. -/
structure Probing (a : Account) (i : ι) (w : System ι) (dir : Nat) (name : String)
    (file : Nat) : Prop where
  shielded : w.fs.Shielded a.trusted dir name file
  maker : w.maker file = some i
  owner : ∃ data, w.fs.metadata file = some data ∧ data.fileType = .regular ∧ data.uid = a.uid

theorem Probing.leaves {name : String} (h : Probing a i w dir name file)
    (hleaves : w.Leaves a i w') : Probing a i w' dir name file := by
  obtain ⟨data, hdata, hregular, howner⟩ := h.owner
  obtain ⟨data', hdata', hkeeps⟩ := hleaves.keeps.keeps file data hdata
  refine ⟨?_, hleaves.maker file h.maker, data', hdata', hkeeps.fileType_eq.trans hregular,
    hkeeps.uid_eq.trans howner⟩
  exact hleaves.keeps.shielded_of_entry h.shielded
    (hleaves.mine dir name file h.shielded h.maker)

/-- A directory that a path leads to and from which others take nothing. -/
structure Sheltered (a : Account) (w : System ι) (path : String) (dir : Nat) : Prop where
  leads : Leads a w path dir
  shelters : w.fs.Sheltering a.trusted dir

theorem Sheltered.kept (h : Sheltered a w path dir)
    (hkeeps : w.fs.Keeps a.trusted a.transient w'.fs) : Sheltered a w' path dir where
  leads := h.leads.kept (.inl h.shelters.isDirectory) hkeeps
  shelters := hkeeps.sheltering h.shelters

theorem Sheltered.onward (h : Sheltered a w path dir) (honward : Onward a i w w') :
    Sheltered a w' path dir :=
  h.kept honward.keeps

theorem Sheltered.locate {name : String} (h : Sheltered a w path dir) (hname : PlainName name) :
    w.fs.locate (route (joinPath path name)) = some (dir, name) := by
  rw [route_joinPath path hname]
  exact locate_join (h.leads.walk_eq h.shelters.isDirectory)

theorem Sheltered.find {name : String} (h : Sheltered a w path dir) (hname : PlainName name) :
    w.fs.find (route (joinPath path name)) = w.fs.entry dir name := by
  rw [route_joinPath path hname]
  exact find_join (h.leads.walk_eq h.shelters.isDirectory)

theorem Sheltered.leads_join {name : String} (h : Sheltered a w path dir)
    (hname : PlainName name) (hentry : w.fs.Shielded a.trusted dir name file) :
    Leads a w (joinPath path name) file := by
  unfold Leads
  rw [route_joinPath path hname]
  exact h.leads.join hentry

/-- What it takes to have made a probe. -/
theorem probing_of_creates {name : String} {mode : Nat} (hprobes : Probes a)
    (h : Sheltered a w path dir)
    (hname : PlainName name)
    (hmade : w.Creates a i .regular (route (joinPath path name)) mode w') :
    Probing a i w' dir name w.fs.count := by
  obtain ⟨dir', name', data, hlocate, hfree, hregular, howner, -, rfl⟩ := hmade
  rw [h.locate hname] at hlocate
  cases hlocate
  have hkeeps : w.fs.Keeps a.trusted a.transient (w.make i dir name data).fs :=
    FileSystem.make_keeps hfree
  have hdata : (w.make i dir name data).fs.metadata w.fs.count = some data :=
    FileSystem.make_metadata_self
  refine ⟨?_, Function.update_self _ _ _, data, hdata, hregular, howner⟩
  exact (hkeeps.sheltering h.shelters).shielded FileSystem.make_entry_self hdata
    (by rw [howner]; exact hprobes.trusted)

/-- One attempt to make a probe tells the owner of what the process makes, and removes the
probe. -/
theorem probeOwner_tells (hprobes : Probes a) (timestamp attempt left : Nat)
    (h : Sheltered a w path dir) :
    Yields a i w (probeOwner path timestamp attempt left) fun owner _ => owner = a.uid := by
  induction left generalizing w attempt with
  | zero => exact yields_throw
  | succ left ih =>
      unfold probeOwner
      refine yields_any rfl (fun _ => trivial) fun sequence w₁ h₁ => ?_
      refine yields_any rfl (fun _ => trivial) fun processId w₂ h₂ => ?_
      have hname := probeName_plain processId timestamp sequence attempt
      generalize hprobe : probeName processId timestamp sequence attempt = name at hname ⊢
      have htransient : a.transient name := by
        rw [hprobes.names]
        exact ⟨processId, timestamp, sequence, attempt, hprobe.symm⟩
      have hsheltered := (h.onward h₁).onward h₂
      unfold Yields
      rw [run_call_bind]
      refine ensures_ask fun w₃ h₃ => ⟨trivial, fun answer w₄ hanswer => ?_⟩
      replace hsheltered := hsheltered.onward h₃.onward
      cases answer with
      | error source =>
          obtain rfl : w₄ = w₃ := hanswer
          refine Yields.after ?_ h₃.onward
          dsimp only
          split
          · exact ih (attempt + 1) hsheltered
          · exact yields_throw
      | ok handle =>
          obtain ⟨rfl, made, hmade, rfl⟩ := hanswer
          have hmaking := probing_of_creates hprobes hsheltered hname hmade
          have hprobing : Probing a i (made.openAs i w₃.fs.count) dir name w₃.fs.count :=
            ⟨hmaking.shielded, hmaking.maker, hmaking.owner⟩
          have hadds : Adds a i w₃.next w₃.fs.count w₂ (made.openAs i w₃.fs.count) :=
            hmade.adds.before h₃.onward
          have hopened : Sheltered a (made.openAs i w₃.fs.count) path dir := by
            have hmade' := hsheltered.onward (System.creates_leaves (j := i) hmade).onward
            exact ⟨hmade'.leads, hmade'.shelters⟩
          rw [run_call_bind]
          refine ensures_ask fun w₅ h₅ => ⟨trivial, fun told w₆ htold => ?_⟩
          have hsame : w₆ = w₅ ∧ ∀ stat, told = .ok stat → stat.data.uid = a.uid := by
            cases told with
            | error source => exact ⟨htold, fun _ hstat => nomatch hstat⟩
            | ok stat =>
                obtain ⟨rfl, hopened, hdata, -⟩ := htold
                refine ⟨rfl, ?_⟩
                rintro _ ⟨⟩
                have hopened' := (h₅.opened _ _).mpr hadds.opened_self
                obtain hfile := congrArg Prod.snd (Option.some.inj (hopened'.symm.trans hopened))
                obtain ⟨data, hfound, -, howner⟩ := (hprobing.leaves h₅).owner
                rw [← show w₃.fs.count = stat.file from hfile, hfound] at hdata
                rw [← Option.some.inj hdata]
                exact howner
          obtain ⟨rfl, howner⟩ := hsame
          rw [run_call_bind]
          refine ensures_ask fun w₇ h₇ => ?_
          have hprobing' := (hprobing.leaves h₅).leaves h₇
          have hsheltered' := (hopened.onward h₅.onward).onward h₇.onward
          have hpermits : w₇.permits a i (.unlink (joinPath path name)) :=
            ⟨dir, name, w₃.fs.count, hsheltered'.locate hname, hprobing'.shielded.named,
              hprobing'.maker, htransient⟩
          refine ⟨hpermits, fun cleaned w₈ hcleaned => ?_⟩
          have hadds' := (hadds.onward h₅.onward).onward
            (h₇.onward.trans (System.quiet_onward rfl hpermits hcleaned))
          rw [run_call_bind]
          refine ensures_ask fun w₉ h₉ => ⟨trivial, fun closed w₁₀ hclosed => ?_⟩
          have hown := hadds'.onward h₉.onward
          obtain ⟨-, rfl⟩ | ⟨hnot, -⟩ := hclosed
          · refine Yields.after ?_ (hown.drops (w₉.shut_drops w₃.next))
            refine yields_orRaise_bind fun stat htold' => ?_
            refine yields_orRaise_bind fun _ _ => ?_
            exact yields_pure fun _ _ => howner stat htold'
          · exact absurd ⟨_, hown.opened_self⟩ hnot

theorem currentFileOwner_tells (hprobes : Probes a) (h : Rooted a w path dir) :
    Yields a i w (currentFileOwner path) fun owner w' =>
      owner = a.uid ∧ Sheltered a w' path dir := by
  unfold currentFileOwner
  refine yields_bind (validatePrivateLockContainer_shelters h) fun _ w₁ h₁ hshelters => ?_
  refine yields_any rfl (fun _ => trivial) fun timestamp w₂ h₂ => ?_
  have hsheltered : Sheltered a w₂ path dir :=
    Sheltered.onward ⟨(h.onward h₁).leads, hshelters⟩ h₂
  refine yields_mono (probeOwner_tells hprobes timestamp 0 16 hsheltered) ?_
  exact fun owner w₃ h₃ howner => ⟨howner, hsheltered.onward h₃⟩

/-! The directory for the lock files. -/

theorem othersWrite_of_private (h : ¬ (permissions data &&& 0o077 != 0) = true) :
    data.othersWrite = false := by
  have hmode : data.mode &&& 0o077 = 0 := by
    simpa [permissions, Nat.and_assoc] using h
  have hwrite : data.mode &&& 0o022 = 0 := by
    calc data.mode &&& 0o022 = data.mode &&& 0o077 &&& 0o022 := by simp [Nat.and_assoc]
      _ = 0 := by rw [hmode, Nat.zero_and]
  simp [Metadata.othersWrite, hwrite]

theorem othersWrite_of_installed (h : ¬ (permissions data &&& 0o022 != 0) = true) :
    data.othersWrite = false := by
  have hwrite : data.mode &&& 0o022 = 0 := by
    simpa [permissions, Nat.and_assoc] using h
  simp [Metadata.othersWrite, hwrite]

/-- A directory in a sheltering one, if it belongs to a trusted user. -/
theorem lockDirectoryMetadata_finds {name : String} (h : Sheltered a w path dir)
    (hname : PlainName name) :
    Yields a i w (lockDirectoryMetadata (joinPath path name)) fun data w' =>
      data.fileType = .directory ∧ (a.trusted data.uid →
        ∃ file, Leads a w' (joinPath path name) file ∧ Told a w' file data) := by
  have hcall : Yields a i w (call (.lstat (joinPath path name)) : FileM _) fun result w' =>
      ∀ stat, result = .ok stat → stat.data.fileType = .directory → a.trusted stat.data.uid →
        ∃ file, Leads a w' (joinPath path name) file ∧ Told a w' file stat.data := by
    refine yields_request rfl (fun _ _ => trivial) ?_
    rintro answer w₁ w₂ w₃ h₁ hanswers - h₃ stat rfl hdirectory htrusted
    obtain ⟨rfl, hfind, hdata, -⟩ := hanswers
    have hsheltered := h.onward h₁
    rw [hsheltered.find hname] at hfind
    have hleads := hsheltered.leads_join hname
      (hsheltered.shelters.shielded hfind hdata htrusted)
    exact ⟨stat.file, hleads.onward (.inl ⟨_, hdata, hdirectory⟩) h₃,
      Told.onward ⟨_, hdata, .refl _⟩ h₃⟩
  unfold lockDirectoryMetadata
  refine yields_bind hcall fun result w₁ h₁ hfound => ?_
  refine yields_orRaise_bind fun stat hok => yields_check fun htest => ?_
  have hdirectory := directory_of_test htest
  refine yields_pure fun w₂ h₂ => ⟨hdirectory, fun htrusted => ?_⟩
  obtain ⟨file, hleads, htold⟩ := hfound stat hok hdirectory htrusted
  have hdir : w₁.fs.IsDirectory file := by
    obtain ⟨now, hnow, hkeeps⟩ := htold
    exact ⟨now, hnow, hkeeps.fileType_eq.trans hdirectory⟩
  exact ⟨file, hleads.onward (.inl hdir) h₂, htold.onward h₂⟩

theorem validateOwnerMatch_eq {parentOwner currentOwner : Nat} :
    Yields a i w (validateOwnerMatch path parentOwner currentOwner) fun _ _ =>
      parentOwner = currentOwner := by
  unfold validateOwnerMatch
  exact yields_last_check fun h _ _ => by simpa using h

theorem createPrivateLockDirectory_yields :
    Yields a i w (createPrivateLockDirectory path) fun _ _ => True := by
  unfold createPrivateLockDirectory
  refine yields_any rfl (fun _ => trivial) fun result w₁ _ => ?_
  cases result with
  | ok value => exact yields_pure fun _ _ => trivial
  | error source =>
      dsimp only
      split
      · exact yields_pure fun _ _ => trivial
      · exact yields_throw

/-- The lock directory is prepared: it is at `parent`, belongs to a trusted user and is
closed to all others. -/
structure Prepared (a : Account) (w : System ι) (parent : String)
    (prepared : PreparedLockParent) : Prop where
  path_eq : prepared.path = parent
  owner_eq : prepared.expectedOwner = a.uid
  closed : ∃ dir, Leads a w parent dir ∧ Closed a w dir

theorem prepareTemporaryLockParent_prepares (hprobes : Probes a)
    (h : Rooted a w path dir) :
    Yields a i w (prepareTemporaryLockParent path) fun prepared w' =>
      Prepared a w' (joinPath path (runtimeDirectory a.uid)) prepared := by
  unfold prepareTemporaryLockParent
  refine yields_bind (validatePrivateLockContainer_shelters h) fun _ w₁ h₁ _ => ?_
  refine yields_bind (currentFileOwner_tells hprobes (h.onward h₁)) fun owner w₂ h₂ howner => ?_
  obtain ⟨rfl, hsheltered⟩ := howner
  refine yields_bind createPrivateLockDirectory_yields fun _ w₃ h₃ _ => ?_
  refine yields_bind (lockDirectoryMetadata_finds (hsheltered.onward h₃)
    (runtimeDirectory_plain a.uid)) fun data w₄ h₄ hdata => ?_
  refine yields_check fun hprivate => ?_
  refine yields_bind validateOwnerMatch_eq fun _ w₅ h₅ howner => ?_
  have htrusted : a.trusted data.uid := by
    rw [howner]
    exact hprobes.trusted
  obtain ⟨file, hleads, htold⟩ := hdata.2 htrusted
  have hclosed := htold.closed hdata.1 htrusted (othersWrite_of_private hprivate)
  refine yields_pure fun w₆ h₆ => ⟨rfl, rfl, file, ?_, (hclosed.onward h₅).onward h₆⟩
  have hdir := hclosed.sheltering.isDirectory
  exact hleads.onward (.inl hdir) (h₅.trans h₆)

theorem prepareInstalledLockParent_prepares {temporaryLockRoot name : String} {container : Nat}
    (hprobes : Probes a) (h : Rooted a w temporaryLockRoot dir)
    (hcontainer : Sheltered a w path container) (hname : PlainName name) :
    Yields a i w (prepareInstalledLockParent temporaryLockRoot (joinPath path name))
      fun prepared w' => Prepared a w' (joinPath path name) prepared := by
  unfold prepareInstalledLockParent
  refine yields_bind (lockDirectoryMetadata_finds hcontainer hname) fun data w₁ h₁ hdata => ?_
  refine yields_bind (currentFileOwner_tells hprobes (h.onward h₁)) fun owner w₂ h₂ howner => ?_
  obtain ⟨rfl, -⟩ := howner
  unfold validateInstalledLockParent
  refine yields_check fun hmode => ?_
  refine yields_bind validateOwnerMatch_eq fun _ w₃ h₃ howner => ?_
  have htrusted : a.trusted data.uid := by
    rw [howner]
    exact hprobes.trusted
  obtain ⟨file, hleads, htold⟩ := hdata.2 htrusted
  have hclosed := htold.closed hdata.1 htrusted (othersWrite_of_installed hmode)
  have hdir := hclosed.sheltering.isDirectory
  refine yields_pure fun w₄ h₄ => ⟨rfl, howner, file, ?_, ?_⟩
  · exact hleads.onward (.inl hdir) ((h₂.trans h₃).trans h₄)
  · exact hclosed.onward ((h₂.trans h₃).trans h₄)

/-! Opening a lock file. -/

/-- What a lock is taken on: a private file of the user, which its path leads to. -/
structure LockTarget (a : Account) (w : System ι) (path : String) (file : Nat) : Prop where
  leads : Leads a w path file
  target : ∃ data, Told a w file data ∧ data.fileType = .regular ∧ data.uid = a.uid ∧
    data.mode &&& 0o077 = 0

theorem LockTarget.kept (h : LockTarget a w path file) (hlasting : Lasting a path)
    (hkeeps : w.fs.Keeps a.trusted a.transient w'.fs) : LockTarget a w' path file where
  leads := h.leads.kept (.inr hlasting) hkeeps
  target := by
    obtain ⟨data, htold, hdata⟩ := h.target
    exact ⟨data, htold.kept hkeeps, hdata⟩

theorem validateExistingLockTarget_yields {owner : Nat} :
    Yields a i w (validateExistingLockTarget path owner) fun _ _ => True := by
  unfold validateExistingLockTarget
  refine yields_any rfl (fun _ => trivial) fun result w₁ _ => ?_
  cases result with
  | error source =>
      dsimp only
      split
      · exact yields_pure fun _ _ => trivial
      · exact yields_throw
  | ok stat =>
      exact yields_check fun _ => yields_check fun _ => yields_check fun _ =>
        yields_last_check fun _ _ _ => trivial

theorem validateOpenedLock_target {handle : Nat} (hopened : w.opened handle = some (i, file)) :
    Yields a i w (validateOpenedLock path a.uid handle) fun _ w' =>
      ∃ data, Told a w' file data ∧ data.fileType = .regular ∧ data.uid = a.uid ∧
        data.mode &&& 0o077 = 0 := by
  unfold validateOpenedLock
  refine yields_fstat hopened fun opened w₁ h₁ _ htold => ?_
  refine yields_any rfl (fun _ => trivial) fun result w₂ h₂ => ?_
  refine yields_orRaise_bind fun named _ => ?_
  refine yields_check fun hregular => yields_check fun _ => yields_check fun _ =>
    yields_check fun howner => yields_last_check fun hprivate w₃ h₃ => ?_
  have htypes : named.data.fileType ≠ .symlink ∧ opened.data.fileType = .regular := by
    simpa using hregular
  refine ⟨opened.data, (htold.onward h₂).onward h₃, htypes.2, ?_, ?_⟩
  · simpa using howner
  · simpa [permissions, Nat.and_assoc] using hprivate

end

end Cirrusync.LockFiles
