import Cirrusync.Installer.Rollback

/-!
The whole of a rollback: the paths one after the other, the source in its three-way
moves, and what its verdict says about the files.
-/

namespace Cirrusync.Installer

open Effect

section

variable {C α : Type} {found : FileSystem C} {atRestart : Watched C → Prop} {watched : Watched C}

/-- What `restore_snapshot` does to several paths, and whether it says so of all. -/
structure RestoresAll (found : FileSystem C) (keys : List Managed) (watched : Watched C)
    (ok : Bool) (watched' : Watched C) : Prop where
  vars : watched'.1.vars = watched.1.vars
  paths : ∀ path : FilePath, path.isKept = true → (∀ key ∈ keys, path ≠ .managed key) →
    watched'.1.fs path = watched.1.fs path
  removals : ∀ other ∉ keys, (removal other ∈ watched'.2 ↔ removal other ∈ watched.2)
  absent : ∀ key ∈ keys, found (.managed key) = none → removal key ∉ watched.2 →
    (watched'.1.fs (.managed key) = none ↔
      watched.1.fs (.managed key) = none ∨ removal key ∈ watched'.2)
  present : ∀ key ∈ keys, (found (.managed key)).isSome = true → ok = true →
    watched'.1.fs (.managed key) = found (.managed key)
  succeeded : watched'.Succeeded → watched.Succeeded ∧ ok = true ∧
    ∀ key ∈ keys, found (.managed key) = none → watched'.1.fs (.managed key) = none

theorem restoresAll_nil : RestoresAll found [] watched true watched where
  vars := rfl
  paths := fun _ _ _ => rfl
  removals := fun _ _ => Iff.rfl
  absent := by
    intro key member
    cases member
  present := by
    intro key member
    cases member
  succeeded := by
    intro hsucceeded
    refine ⟨hsucceeded, rfl, ?_⟩
    intro key member
    cases member

/-- One path more, before the others. -/
theorem Restores.cons {key : Managed} {rest : List Managed} {ok oks : Bool}
    {middle last : Watched C} (h : Restores found key watched ok middle)
    (hrest : RestoresAll found rest middle oks last) (hnew : key ∉ rest) :
    RestoresAll found (key :: rest) watched (ok && oks) last := by
  have hstays : last.1.fs (.managed key) = middle.1.fs (.managed key) := by
    apply hrest.paths _ rfl
    rintro other member heq
    cases heq
    exact hnew member
  have hother : ∀ other ∈ rest, other ≠ key := by
    rintro other member rfl
    exact hnew member
  have hbefore : ∀ other ∈ rest,
      middle.1.fs (.managed other) = watched.1.fs (.managed other) := by
    intro other member
    apply h.paths _ rfl
    intro heq
    cases heq
    exact hnew member
  constructor
  · exact hrest.vars.trans h.vars
  · intro path hpath hne
    have hlast := hrest.paths path hpath fun other member =>
      hne other (List.mem_cons_of_mem _ member)
    exact hlast.trans (h.paths path hpath (hne key List.mem_cons_self))
  · intro other hout
    rw [List.mem_cons, not_or] at hout
    exact (hrest.removals other hout.2).trans (h.removals other hout.1)
  · intro other member habsent hfresh
    rcases List.mem_cons.mp member with rfl | hmem
    · rw [hstays, hrest.removals other hnew]
      exact h.absent habsent hfresh
    · rw [← hbefore other hmem]
      apply hrest.absent other hmem habsent
      rw [h.removals other (hother other hmem)]
      exact hfresh
  · intro other member hsome hok
    rw [Bool.and_eq_true] at hok
    rcases List.mem_cons.mp member with rfl | hmem
    · rw [hstays]
      exact h.present hsome hok.1
    · exact hrest.present other hmem hsome hok.2
  · intro hsucceeded
    obtain ⟨hmiddle, hoks, hgone⟩ := hrest.succeeded hsucceeded
    obtain ⟨hfirst, hok, hgone'⟩ := h.succeeded hmiddle
    refine ⟨hfirst, ?_, ?_⟩
    · rw [hok, hoks]
      rfl
    · intro other member habsent
      rcases List.mem_cons.mp member with rfl | hmem
      · rw [hstays]
        exact hgone' habsent
      · exact hgone other hmem habsent

/-- Snapshots are complete as long as their files stay. -/
theorem Snapshotted.of_paths {fs fs' : FileSystem C} (h : Snapshotted found fs)
    (hsnapshot : ∀ key, fs' (.snapshot key) = fs (.snapshot key))
    (hpresent : ∀ key, fs' (.present key) = fs (.present key)) : Snapshotted found fs' := by
  constructor
  · intro key
    exact (hsnapshot key).trans (h.snapshot key)
  · intro key
    rw [← h.present key]
    unfold FileSystem.test
    rw [hpresent key]

theorem watched_restoreSnapshots {keys : List Managed} (hkeys : keys.Nodup)
    (h : Snapshotted found watched.1.fs) :
    Holds (watching atRestart) (RestoresAll found keys watched) (restoreSnapshots keys)
      watched := by
  induction keys generalizing watched with
  | nil => exact holds_solo_done.mpr restoresAll_nil
  | cons key rest ih =>
      rw [List.nodup_cons] at hkeys
      apply holds_bind
      refine holds_mono (watched_restoreSnapshot key h) ?_
      intro ok middle hrestores
      have hsnapshots : Snapshotted found middle.1.fs := by
        apply h.of_paths
        · exact fun other => hrestores.paths _ rfl fun heq => by cases heq
        · exact fun other => hrestores.paths _ rfl fun heq => by cases heq
      apply holds_bind
      refine holds_mono (ih hkeys.2 hsnapshots) ?_
      intro oks last hrest
      exact holds_solo_done.mpr (hrestores.cons hrest hkeys.1)

/-! The source and the two paths beside it. -/

def FilePath.isSource : FilePath → Bool
  | .sourceDir | .sourceBackup | .failedSource => true
  | _ => false

/-- Nothing kept has changed but the source. -/
structure Moved (watched watched' : Watched C) : Prop where
  paths : ∀ path : FilePath, path.isKept = true → path.isSource = false →
    watched'.1.fs path = watched.1.fs path
  removals : ∀ key, removal key ∈ watched'.2 ↔ removal key ∈ watched.2
  succeeded : watched'.Succeeded → watched.Succeeded

theorem Quiet.moved {watched' : Watched C} (h : Quiet watched watched') :
    Moved watched watched' :=
  ⟨fun path hpath _ => h.paths path hpath, h.removals, h.succeeded⟩

theorem Moved.trans {first second third : Watched C} (h : Moved first second)
    (g : Moved second third) : Moved first third := by
  constructor
  · exact fun path hpath hsource =>
      (g.paths path hpath hsource).trans (h.paths path hpath hsource)
  · exact fun key => (g.removals key).trans (h.removals key)
  · exact fun hsucceeded => h.succeeded (g.succeeded hsucceeded)

theorem Ran.untouched {command : Command} {status : Bool} {watched' : Watched C}
    (h : Ran watched command status watched') {path : FilePath}
    (hpath : command.touches path = false) : watched'.1.fs path = watched.1.fs path :=
  Command.leads_untouched h.leads hpath

theorem Ran.moved {command : Command} {status : Bool} {watched' : Watched C}
    (h : Ran watched command status watched')
    (htouches : ∀ path : FilePath, path.isKept = true → path.isSource = false →
      command.touches path = false) : Moved watched watched' := by
  constructor
  · exact fun path hpath hsource => h.untouched (htouches path hpath hsource)
  · intro key
    rw [h.log]
    apply removals_concat
    intro heq
    cases heq
    have hself := htouches (.managed key) rfl rfl
    simp [Command.touches] at hself
  · exact fun hsucceeded => (h.succeeded hsucceeded).1

theorem ne_source {path other : FilePath} (hother : other.isSource = true)
    (hpath : path.isSource = false) : (path == other) = false := by
  apply beq_eq_false_iff_ne.mpr
  rintro rfl
  rw [hpath] at hother
  cases hother

theorem mv_moved {source destination : FilePath} {noTargetDirectory status : Bool}
    {watched' : Watched C}
    (h : Ran watched (.mv source destination noTargetDirectory) status watched')
    (hsource : source.isSource = true) (hdestination : destination.isSource = true) :
    Moved watched watched' := by
  apply h.moved
  intro path _ hpath
  simp only [Command.touches, ne_source hsource hpath, ne_source hdestination hpath,
    Bool.or_self]

theorem rmTree_moved {path : FilePath} {status : Bool} {watched' : Watched C}
    (h : Ran watched (.rmTree path) status watched') (hpath : path.isSource = true) :
    Moved watched watched' := by
  apply h.moved
  intro other _ hother
  cases path with
  | sourceDir | sourceBackup | failedSource =>
      cases other <;> first | rfl | cases hother
  | _ => cases hpath

/-- A move to where nothing is. -/
theorem Ran.mv_free {source destination : FilePath} {watched' : Watched C}
    (h : Ran watched (.mv source destination false) true watched')
    (hfree : watched.1.fs destination = none) (hne : source ≠ destination) :
    watched'.1.fs destination = watched.1.fs source ∧ watched'.1.fs source = none := by
  obtain ⟨node, landed, hnode, hlands, hfs⟩ := h.leads
  rw [hfree] at hlands
  cases hlands
  rw [hfs, Function.update_self, Function.update_of_ne hne, Function.update_self]
  exact ⟨hnode.symm, rfl⟩

theorem watched_isOccupied {post : α → Watched C → Prop} {path : FilePath}
    {next : Bool → Sh α}
    (h : ∀ watched', Looked watched watched' →
      Holds (watching atRestart) post (next (watched.1.fs path).isSome) watched') :
    Holds (watching atRestart) post (isOccupied path >>= next) watched := by
  refine watched_test fun w₀ hlooked => ?_
  have hanswer := watched.1.fs.exists_or_link path
  cases hexists : watched.1.fs.test .exists path with
  | true =>
      rw [hexists] at hanswer
      rw [← hanswer] at h
      exact h w₀ hlooked
  | false =>
      rw [hexists, Bool.false_or] at hanswer
      refine watched_test fun w₁ hlinked => ?_
      rw [hlooked.host, hanswer]
      exact h w₁ ⟨hlinked.host.trans hlooked.host, hlooked.quiet.trans hlinked.quiet⟩

/-- A copy of the source that is put back survives, at one of two places. -/
structure PutsBack (old : Option (Node C)) (watched : Watched C) (ok : Bool)
    (watched' : Watched C) : Prop where
  moved : Moved watched watched'
  kept : watched'.1.fs .sourceDir = old ∨ watched'.1.fs .sourceBackup = old
  restored : ok = true → watched'.1.fs .sourceDir = old
  succeeded : watched'.Succeeded → watched'.1.fs .sourceDir = old

theorem PutsBack.after {old : Option (Node C)} {ok : Bool} {middle last : Watched C}
    (h : Moved watched middle) (g : PutsBack old middle ok last) :
    PutsBack old watched ok last :=
  ⟨h.trans g.moved, g.kept, g.restored, g.succeeded⟩

/-- It may still be in the backup. -/
theorem putsBack_backup {old : Option (Node C)} {watched' : Watched C}
    (h : Moved watched watched') (hkept : watched'.1.fs .sourceBackup = old)
    (hfails : ¬ watched'.Succeeded) : PutsBack old watched false watched' := by
  constructor
  · exact h
  · exact .inr hkept
  · intro hok
    cases hok
  · exact fun hsucceeded => absurd hsucceeded hfails

/-- The backup of the source is moved back to its path. If the move succeeds, the old source is
there again; if it fails, the backup survives where it was. -/
theorem watched_putBackSource {old : Option (Node C)}
    (hfree : watched.1.fs .sourceDir = none) (hold : watched.1.fs .sourceBackup = old)
    (hsome : old.isSome = true) :
    Holds (watching atRestart) (PutsBack old watched) putBackSource watched := by
  have hthere : (watched.1.fs .sourceBackup).isSome = true := by
    rw [hold]
    exact hsome
  refine watched_run hthere (fun heq => by cases heq) fun status w₀ hran => ?_
  have hmoved := mv_moved hran rfl rfl
  cases status with
  | true =>
      have hback : w₀.1.fs .sourceDir = old := (hran.mv_free hfree (by decide)).1.trans hold
      have hdone : ∀ (ok : Bool) (last : Watched C), Moved w₀ last →
          last.1.fs .sourceDir = w₀.1.fs .sourceDir → PutsBack old watched ok last := by
        intro ok last hlast hdir
        have hplace := hdir.trans hback
        exact ⟨hmoved.trans hlast, .inl hplace, fun _ => hplace, fun _ => hplace⟩
      refine watched_assign fun log hremovals hlog => ?_
      refine watched_isOccupied fun w₂ hlooked => ?_
      have hafter : Moved w₀ w₂ := by
        have hassigned : Moved w₀
            ({ w₀.1 with vars := w₀.1.vars.assign (.sourceBackup false) }, log) :=
          ⟨fun _ _ _ => rfl, hremovals, hlog⟩
        exact hassigned.trans hlooked.quiet.moved
      have hdir : w₂.1.fs .sourceDir = w₀.1.fs .sourceDir := by
        rw [hlooked.host]
      cases (w₀.1.fs .failedSource).isSome with
      | false => exact holds_solo_done.mpr (hdone true w₂ hafter hdir)
      | true =>
          refine watched_run trivial (fun heq => by cases heq) fun removed w₃ hremoved => ?_
          have hstays : w₃.1.fs .sourceDir = w₂.1.fs .sourceDir := hremoved.untouched rfl
          exact holds_solo_done.mpr
            (hdone removed w₃ (hafter.trans (rmTree_moved hremoved rfl)) (hstays.trans hdir))
  | false =>
      have hsame : w₀.1.fs = watched.1.fs := hran.leads
      refine watched_isOccupied fun w₁ hlooked => ?_
      have hbackup : w₁.1.fs .sourceBackup = old := by
        rw [hlooked.host, hsame]
        exact hold
      have hafter := hmoved.trans hlooked.quiet.moved
      have hfails : ¬ w₁.Succeeded := fun hsucceeded =>
        hran.failed (hlooked.quiet.succeeded hsucceeded)
      cases hfailed : (w₀.1.fs .failedSource).isSome with
      | false => exact holds_solo_done.mpr (putsBack_backup hafter hbackup hfails)
      | true =>
          have hthere' : (w₁.1.fs .failedSource).isSome = true := by
            rw [hlooked.host]
            exact hfailed
          refine watched_run hthere' (fun heq => by cases heq) fun recovered w₂ hrecovered => ?_
          have hlast := mv_moved hrecovered rfl rfl
          have hbackup' : w₂.1.fs .sourceBackup = old :=
            (hrecovered.untouched rfl).trans hbackup
          exact holds_solo_done.mpr (putsBack_backup (hafter.trans hlast) hbackup'
            fun hsucceeded => hfails (hlast.succeeded hsucceeded))

/-- With something at the failed path, nothing is moved. -/
theorem watched_restoreBackup_blocked (hfailed : (watched.1.fs .failedSource).isSome = true) :
    Holds (watching atRestart) (fun ok watched' => ok = false ∧ Quiet watched watched')
      restoreBackup watched := by
  refine watched_isOccupied fun w₀ hlooked => ?_
  rw [hfailed]
  exact holds_solo_done.mpr ⟨rfl, hlooked.quiet⟩

/-- The source that the transaction has brought is moved out of the way and the backup is put
back. The old source survives every failure on the way, at its path or as the backup. -/
theorem watched_restoreBackup {old : Option (Node C)}
    (hfailed : watched.1.fs .failedSource = none) (hold : watched.1.fs .sourceBackup = old)
    (hsome : old.isSome = true) :
    Holds (watching atRestart) (PutsBack old watched) restoreBackup watched := by
  refine watched_isOccupied fun w₀ hlooked => ?_
  rw [hfailed]
  refine watched_isOccupied fun w₁ hlooked' => ?_
  have hhost : w₁.1 = watched.1 := hlooked'.host.trans hlooked.host
  have hquiet := hlooked.quiet.trans hlooked'.quiet
  have hdir : w₀.1.fs .sourceDir = watched.1.fs .sourceDir := by rw [hlooked.host]
  cases hthere : (w₀.1.fs .sourceDir).isSome with
  | false =>
      have hfree : w₁.1.fs .sourceDir = none := by
        rw [hhost, ← hdir]
        simpa using hthere
      have hold' : w₁.1.fs .sourceBackup = old := by
        rw [hhost]
        exact hold
      refine holds_mono (watched_putBackSource hfree hold' hsome) ?_
      intro ok last hputs
      exact hputs.after hquiet.moved
  | true =>
      have hthere' : (w₁.1.fs .sourceDir).isSome = true := by
        rw [hhost, ← hdir]
        exact hthere
      have hfree : w₁.1.fs .failedSource = none := by
        rw [hhost]
        exact hfailed
      refine watched_run hthere' (fun heq => by cases heq) fun status w₂ hran => ?_
      have hafter := hquiet.moved.trans (mv_moved hran rfl rfl)
      have hbackup : w₂.1.fs .sourceBackup = old := by
        rw [hran.untouched rfl, hhost]
        exact hold
      cases status with
      | true =>
          have hgone := (hran.mv_free hfree (by decide)).2
          refine holds_mono (watched_putBackSource hgone hbackup hsome) ?_
          intro ok last hputs
          exact hputs.after hafter
      | false => exact holds_solo_done.mpr (putsBack_backup hafter hbackup hran.failed)

/-- Where no source was, `STAGED_SOURCE` names a source that is in place. -/
def NewSourceNamed (found : FileSystem C) (host : Host C) : Prop :=
  found .sourceDir = none → host.fs .sourceDir ≠ none →
    host.vars.stagedSource = some .sourceDir

/-- The host is such that a rollback can put the source back. -/
structure SourceRestorable (found : FileSystem C) (host : Host C) : Prop where
  /-- What is at a recorded backup path is left alone, or it is the source itself. -/
  notStale : host.vars.sourceBackup = true → found.test .exists .sourceBackup = true →
    (found .failedSource).isSome = true ∨ found .sourceBackup = found .sourceDir
  /-- Something at the failed path keeps a source that has been moved from coming back. -/
  notBlocked : (found .sourceDir).isSome = true → (found .failedSource).isSome = true →
    host.fs .sourceDir = found .sourceDir
  named : NewSourceNamed found host

/-- What a rollback does to the source that a transaction has found, from the host as the
transaction has left it. -/
structure RestoresSource (found : FileSystem C) (before : Host C) (watched : Watched C)
    (ok : Bool) (watched' : Watched C) : Prop where
  moved : Moved watched watched'
  kept : found .sourceBackup = none → found .failedSource = none →
    (found .sourceDir).isSome = true →
    watched'.1.fs .sourceDir = found .sourceDir ∨ watched'.1.fs .sourceBackup = found .sourceDir
  flagged : found .sourceBackup = none → found .failedSource = none → ok = true →
    (watched'.1.fs .sourceDir = found .sourceDir ↔ NewSourceNamed found before)
  succeeded : watched'.Succeeded →
    (watched'.1.fs .sourceDir = found .sourceDir ↔ SourceRestorable found before)

variable {before : Host C}

theorem test_exists_none {fs : FileSystem C} {path : FilePath} (h : fs path = none) :
    fs.test .exists path = false := by
  unfold FileSystem.test
  rw [h]
  rfl

/-- What is there and is no link passes `-e`. -/
theorem test_exists_of_no_link {fs : FileSystem C} {path : FilePath}
    (hlink : fs.test .link path = false) (hsome : (fs path).isSome = true) :
    fs.test .exists path = true := by
  have hthere := fs.exists_or_link path
  rw [hlink, Bool.or_false, hsome] at hthere
  exact hthere

theorem restorable_of_same (hsame : before.fs .sourceDir = found .sourceDir)
    (hstale : before.vars.sourceBackup = true → found.test .exists .sourceBackup = true →
      (found .failedSource).isSome = true ∨ found .sourceBackup = found .sourceDir) :
    SourceRestorable found before := by
  constructor
  · exact hstale
  · exact fun _ _ => hsame
  · intro hnone hnew
    rw [hsame] at hnew
    exact absurd hnone hnew

/-- A source that has stayed in its place. -/
theorem restoresSource_same {ok : Bool} {watched' : Watched C}
    (hmoved : Moved watched watched')
    (hdir : watched'.1.fs .sourceDir = found .sourceDir) (h : SourceRestorable found before) :
    RestoresSource found before watched ok watched' := by
  constructor
  · exact hmoved
  · exact fun _ _ _ => .inl hdir
  · exact fun _ _ _ => iff_of_true hdir h.named
  · exact fun _ => iff_of_true hdir h

/-- A source that is moved back from the backup that the transaction made. -/
theorem PutsBack.restoresSource {ok : Bool} {watched' : Watched C}
    (h : PutsBack (found .sourceDir) watched ok watched') (hbackup : found .sourceBackup = none)
    (hfailed : found .failedSource = none) (hsome : (found .sourceDir).isSome = true) :
    RestoresSource found before watched ok watched' := by
  have hnamed : NewSourceNamed found before := by
    intro hnone
    rw [hnone] at hsome
    cases hsome
  have hrestorable : SourceRestorable found before := by
    constructor
    · intro _ htest
      rw [test_exists_none hbackup] at htest
      cases htest
    · intro _ hblocked
      rw [hfailed] at hblocked
      cases hblocked
    · exact hnamed
  constructor
  · exact h.moved
  · exact fun _ _ _ => h.kept
  · exact fun _ _ hok => iff_of_true (h.restored hok) hnamed
  · exact fun hsucceeded => iff_of_true (h.succeeded hsucceeded) hrestorable

/-- A source that has been moved away, behind something at the failed path. -/
theorem restoresSource_blocked {watched' : Watched C} (hmoved : Moved watched watched')
    (hsame : watched'.1.fs .sourceDir = before.fs .sourceDir)
    (hbackup : found .sourceBackup = none) (hfailed : (found .failedSource).isSome = true)
    (hsome : (found .sourceDir).isSome = true) :
    RestoresSource found before watched false watched' := by
  have hfree : found .failedSource ≠ none := by
    intro hnone
    rw [hnone] at hfailed
    cases hfailed
  constructor
  · exact hmoved
  · exact fun _ hnone => absurd hnone hfree
  · exact fun _ hnone => absurd hnone hfree
  · intro _
    rw [hsame]
    constructor
    · intro heq
      apply restorable_of_same heq
      intro _ htest
      rw [test_exists_none hbackup] at htest
      cases htest
    · exact fun h => h.notBlocked hsome hfailed

/-- The backup that the transaction made is tried. -/
theorem watched_restoreOwnBackup (hdir : watched.1.fs .sourceDir = before.fs .sourceDir)
    (hold : watched.1.fs .sourceBackup = found .sourceDir)
    (hfailed : watched.1.fs .failedSource = found .failedSource)
    (hbackup : found .sourceBackup = none) (hsome : (found .sourceDir).isSome = true) :
    Holds (watching atRestart) (RestoresSource found before watched) restoreBackup watched := by
  cases hblocked : (found .failedSource).isSome with
  | true =>
      rw [← hfailed] at hblocked
      refine holds_mono (watched_restoreBackup_blocked hblocked) ?_
      rintro ok last ⟨rfl, hquiet⟩
      rw [hfailed] at hblocked
      have hsame : last.1.fs .sourceDir = before.fs .sourceDir :=
        (hquiet.paths _ rfl).trans hdir
      exact restoresSource_blocked hquiet.moved hsame hbackup hblocked hsome
  | false =>
      have hnone : found .failedSource = none := by simpa using hblocked
      refine holds_mono (watched_restoreBackup (hfailed.trans hnone) hold hsome) ?_
      intro ok last hputs
      exact hputs.restoresSource hbackup hnone hsome

/-- Nothing was at the backup path, so that what is there now is the source. -/
theorem watched_removeNewSource (hdir : watched.1.fs .sourceDir = before.fs .sourceDir)
    (hbackup : found .sourceBackup = none) (hnew : (before.fs .sourceDir).isSome = true)
    (hnone : found .sourceDir = none) (hexisting : before.vars.sourceHadExisting = false) :
    Holds (watching atRestart) (RestoresSource found before watched)
      (removeNewSource before.vars) watched := by
  have hstale : before.vars.sourceBackup = true → found.test .exists .sourceBackup = true →
      (found .failedSource).isSome = true ∨ found .sourceBackup = found .sourceDir := by
    intro _ htest
    rw [test_exists_none hbackup] at htest
    cases htest
  have hblocked : (found .sourceDir).isSome = true → (found .failedSource).isSome = true →
      before.fs .sourceDir = found .sourceDir := by
    intro hsome
    rw [hnone] at hsome
    cases hsome
  unfold removeNewSource
  rw [hexisting]
  cases hstaged : before.vars.stagedSource == some .sourceDir with
  | true =>
      have hnamed : NewSourceNamed found before := fun _ _ => by simpa using hstaged
      refine watched_run trivial (fun heq => by cases heq) fun status last hran => ?_
      have hgone : status = true → last.1.fs .sourceDir = found .sourceDir := by
        rintro rfl
        rw [hnone]
        exact hran.leads.2 .sourceDir rfl
      have hpost : RestoresSource found before watched status last := by
        constructor
        · exact rmTree_moved hran rfl
        · intro _ _ hsome
          rw [hnone] at hsome
          cases hsome
        · exact fun _ _ hok => iff_of_true (hgone hok) hnamed
        · intro hsucceeded
          exact iff_of_true (hgone (hran.succeeded hsucceeded).2) ⟨hstale, hblocked, hnamed⟩
      exact holds_solo_done.mpr hpost
  | false =>
      have hthere : watched.1.fs .sourceDir ≠ found .sourceDir := by
        rw [hdir, hnone]
        intro heq
        rw [heq] at hnew
        cases hnew
      have hunnamed : ¬ NewSourceNamed found before := by
        intro hnamed
        have hstaged' := hnamed hnone (by rw [← hdir, ← hnone]; exact hthere)
        rw [hstaged'] at hstaged
        cases hstaged
      have hpost : RestoresSource found before watched true watched := by
        constructor
        · exact (quiet_refl watched).moved
        · intro _ _ hsome
          rw [hnone] at hsome
          cases hsome
        · exact fun _ _ _ => iff_of_false hthere hunnamed
        · exact fun _ => iff_of_false hthere fun h => hunnamed h.named
      exact holds_solo_done.mpr hpost

/-- A source that has not been promoted is left alone. -/
theorem watched_leaveSource (hdir : watched.1.fs .sourceDir = found .sourceDir)
    (h : SourceRestorable found before)
    (hold : before.vars.sourceHadExisting = true ∨ before.vars.stagedSource ≠ some .sourceDir) :
    Holds (watching atRestart) (RestoresSource found before watched)
      (removeNewSource before.vars) watched := by
  have hkeeps : (before.vars.sourceHadExisting == false &&
      before.vars.stagedSource == some .sourceDir) = false := by
    rcases hold with hexisting | hstaged
    · rw [hexisting]
      rfl
    · rw [Bool.and_eq_false_iff]
      right
      exact beq_eq_false_iff_ne.mpr hstaged
  unfold removeNewSource
  rw [hkeeps]
  exact holds_solo_done.mpr (restoresSource_same (quiet_refl watched).moved hdir h)

theorem Looked.restoresSource {middle : Watched C} (hlooked : Looked watched middle) {ok : Bool}
    {last : Watched C} (h : RestoresSource found before middle ok last) :
    RestoresSource found before watched ok last :=
  ⟨hlooked.quiet.moved.trans h.moved, h.kept, h.flagged, h.succeeded⟩

/-- What is done about the source where nothing has happened to it. -/
theorem watched_restoreUntouched (huntouched : SourceUntouched found before.fs)
    (hsame : ∀ path : FilePath, path.isSource = true → watched.1.fs path = before.fs path)
    (hold : before.vars.sourceHadExisting = true ∨ before.vars.stagedSource ≠ some .sourceDir) :
    Holds (watching atRestart) (RestoresSource found before watched)
      (restoreSource before.vars) watched := by
  have hdir : watched.1.fs .sourceDir = found .sourceDir := (hsame _ rfl).trans huntouched.1
  have hbackup : watched.1.fs .sourceBackup = found .sourceBackup :=
    (hsame _ rfl).trans huntouched.2.1
  have hfailed : watched.1.fs .failedSource = found .failedSource :=
    (hsame _ rfl).trans huntouched.2.2
  have htest : watched.1.fs.test .exists .sourceBackup = found.test .exists .sourceBackup := by
    unfold FileSystem.test
    rw [hbackup]
  unfold restoreSource
  cases hrecorded : before.vars.sourceBackup with
  | false =>
      apply watched_leaveSource hdir _ hold
      apply restorable_of_same huntouched.1
      intro htrue
      rw [hrecorded] at htrue
      cases htrue
  | true =>
      refine watched_test fun w₀ hlooked => ?_
      rw [htest]
      cases hstale : found.test .exists .sourceBackup with
      | false =>
          have hdir' : w₀.1.fs .sourceDir = found .sourceDir := by
            rw [hlooked.host]
            exact hdir
          have hrestorable : SourceRestorable found before := by
            apply restorable_of_same huntouched.1
            intro _ htrue
            rw [hstale] at htrue
            cases htrue
          refine holds_mono (watched_leaveSource hdir' hrestorable hold) ?_
          intro ok last hrestores
          exact hlooked.restoresSource hrestores
      | true =>
          have hthere : found .sourceBackup ≠ none := by
            intro hnone
            rw [test_exists_none hnone] at hstale
            cases hstale
          cases hblocked : (found .failedSource).isSome with
          | true =>
              have hblocked' : (w₀.1.fs .failedSource).isSome = true := by
                rw [hlooked.host, hfailed]
                exact hblocked
              refine holds_mono (watched_restoreBackup_blocked hblocked') ?_
              rintro ok last ⟨rfl, hquiet⟩
              have hquiet' := hlooked.quiet.trans hquiet
              have hdir' : last.1.fs .sourceDir = found .sourceDir :=
                (hquiet'.paths _ rfl).trans hdir
              exact restoresSource_same hquiet'.moved hdir'
                (restorable_of_same huntouched.1 fun _ _ => .inl hblocked)
          | false =>
              have hnone : found .failedSource = none := by simpa using hblocked
              have hnone' : w₀.1.fs .failedSource = none := by
                rw [hlooked.host, hfailed]
                exact hnone
              have hold' : w₀.1.fs .sourceBackup = found .sourceBackup := by
                rw [hlooked.host]
                exact hbackup
              have hsome : (found .sourceBackup).isSome = true :=
                Option.isSome_iff_ne_none.mpr hthere
              refine holds_mono (watched_restoreBackup hnone' hold' hsome) ?_
              intro ok last hputs
              constructor
              · exact hlooked.quiet.moved.trans hputs.moved
              · exact fun hfree => absurd hfree hthere
              · exact fun hfree => absurd hfree hthere
              · intro hsucceeded
                rw [hputs.succeeded hsucceeded]
                constructor
                · intro heq
                  exact restorable_of_same huntouched.1 fun _ _ => .inr heq
                · intro h
                  rcases h.notStale hrecorded hstale with hsome' | heq
                  · rw [hblocked] at hsome'
                    cases hsome'
                  · exact heq

/-- The same where the source is in the backup that the transaction made. -/
theorem watched_restoreAside (hlink : found.test .link .sourceDir = false)
    (hrecorded : before.vars.sourceBackup = true) (hbackup : found .sourceBackup = none)
    (hkept : before.fs .sourceBackup = found .sourceDir)
    (hother : before.fs .failedSource = found .failedSource)
    (hsome : (found .sourceDir).isSome = true)
    (hsame : ∀ path : FilePath, path.isSource = true → watched.1.fs path = before.fs path) :
    Holds (watching atRestart) (RestoresSource found before watched)
      (restoreSource before.vars) watched := by
  have hold : watched.1.fs .sourceBackup = found .sourceDir := (hsame _ rfl).trans hkept
  have htest : watched.1.fs.test .exists .sourceBackup = true := by
    have hthere := test_exists_of_no_link hlink hsome
    unfold FileSystem.test at hthere ⊢
    rw [hold]
    exact hthere
  unfold restoreSource
  rw [hrecorded]
  refine watched_test fun w₀ hlooked => ?_
  rw [htest]
  have hdir : w₀.1.fs .sourceDir = before.fs .sourceDir := by
    rw [hlooked.host]
    exact hsame _ rfl
  have hold' : w₀.1.fs .sourceBackup = found .sourceDir := by
    rw [hlooked.host]
    exact hold
  have hfailed : w₀.1.fs .failedSource = found .failedSource := by
    rw [hlooked.host]
    exact (hsame _ rfl).trans hother
  refine holds_mono (watched_restoreOwnBackup hdir hold' hfailed hbackup hsome) ?_
  intro ok last hrestores
  exact hlooked.restoresSource hrestores

/-- Wherever the promotion has got to. -/
theorem watched_restoreSource (hlink : found.test .link .sourceDir = false)
    (hstage : SourceStage found before)
    (hsame : ∀ path : FilePath, path.isSource = true → watched.1.fs path = before.fs path) :
    Holds (watching atRestart) (RestoresSource found before watched)
      (restoreSource before.vars) watched := by
  cases hstage with
  | untouched huntouched hexisting hstaged =>
      exact watched_restoreUntouched huntouched hsame (.inr hstaged)
  | existing huntouched hfree hrecorded hexisting =>
      exact watched_restoreUntouched huntouched hsame (.inl hexisting)
  | aside hmoved hkept hsome hother hfree hrecorded hexisting =>
      exact watched_restoreAside hlink hrecorded hfree hkept hother hsome hsame
  | promoted hnew hkept hother hfree hrecorded hexisting =>
      cases hsome : (found .sourceDir).isSome with
      | true => exact watched_restoreAside hlink hrecorded hfree hkept hother hsome hsame
      | false =>
          have hnone : found .sourceDir = none := by simpa using hsome
          have hgone : watched.1.fs.test .exists .sourceBackup = false := by
            apply test_exists_none
            rw [hsame _ rfl, hkept]
            exact hnone
          have hexisting' : before.vars.sourceHadExisting = false := hexisting.trans hsome
          unfold restoreSource
          rw [hrecorded]
          refine watched_test fun w₀ hlooked => ?_
          rw [hgone]
          have hdir : w₀.1.fs .sourceDir = before.fs .sourceDir := by
            rw [hlooked.host]
            exact hsame _ rfl
          refine holds_mono (watched_removeNewSource hdir hfree hnew hnone hexisting') ?_
          intro ok last hrestores
          exact hlooked.restoresSource hrestores

end

end Cirrusync.Installer
