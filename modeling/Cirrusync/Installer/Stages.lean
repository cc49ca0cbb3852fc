import Cirrusync.Installer.Frame
import Cirrusync.Effect.Simulation

/-!
What a transaction has done to the host when it stops, wherever that is: the snapshots
are those of the files it found, and the source is at one of the points of its
promotion.
-/

namespace Cirrusync.Installer

open Effect

section

variable {C : Type}

/-- The snapshots of the managed paths are complete. -/
structure Snapshotted (found : FileSystem C) (fs : FileSystem C) : Prop where
  snapshot : ∀ key, fs (.snapshot key) = found (.managed key)
  present : ∀ key, fs.test .exists (.present key) = (found (.managed key)).isSome

/-- Nothing has happened to the source and its neighbours. -/
def SourceUntouched (found fs : FileSystem C) : Prop :=
  fs .sourceDir = found .sourceDir ∧ fs .sourceBackup = found .sourceBackup ∧
    fs .failedSource = found .failedSource

/-- The points of `promote_source`. -/
inductive SourceStage (found : FileSystem C) (host : Host C) : Prop where
  /-- The backup path may be recorded, whatever is there. -/
  | untouched : SourceUntouched found host.fs →
      host.vars.sourceHadExisting = false → host.vars.stagedSource ≠ some .sourceDir →
      SourceStage found host
  | existing : SourceUntouched found host.fs → found .sourceBackup = none →
      host.vars.sourceBackup = true → host.vars.sourceHadExisting = true →
      SourceStage found host
  | aside : host.fs .sourceDir = none → host.fs .sourceBackup = found .sourceDir →
      (found .sourceDir).isSome = true → host.fs .failedSource = found .failedSource →
      found .sourceBackup = none → host.vars.sourceBackup = true →
      host.vars.sourceHadExisting = true → SourceStage found host
  /-- The new source is in place; `STAGED_SOURCE` may not say so yet. -/
  | promoted : (host.fs .sourceDir).isSome = true → host.fs .sourceBackup = found .sourceDir →
      host.fs .failedSource = found .failedSource → found .sourceBackup = none →
      host.vars.sourceBackup = true →
      host.vars.sourceHadExisting = (found .sourceDir).isSome → SourceStage found host

/-- What a rollback can rely on. -/
structure Recoverable (found : FileSystem C) (host : Host C) : Prop where
  snapshotted : Snapshotted found host.fs
  rollbackDir : host.vars.rollbackDir = true
  source : SourceStage found host

/-- The same while a transaction is active. -/
def Guarded (found : FileSystem C) (host : Host C) : Prop :=
  host.vars.transactionActive = true → Recoverable found host

/-- What `main` has set up when it begins a transaction. -/
structure Prepared (host : Host C) : Prop where
  inactive : host.vars.transactionActive = false
  sourceBackup : host.vars.sourceBackup = false
  sourceHadExisting : host.vars.sourceHadExisting = false
  stagedSource : host.vars.stagedSource = none ∨ host.vars.stagedSource = some .stagedSource
  /-- `validate_managed_paths` refuses a source directory that is a symbolic link. -/
  sourceDir : host.fs.test .link .sourceDir = false

theorem Snapshotted.agrees {found : FileSystem C} {host host' : Host C}
    (h : Snapshotted found host.fs) (hagrees : Agrees host host') :
    Snapshotted found host'.fs := by
  constructor
  · intro key
    rw [hagrees.paths _ rfl]
    exact h.snapshot key
  · intro key
    have hsame : host'.fs.test .exists (.present key) = host.fs.test .exists (.present key) := by
      unfold FileSystem.test
      rw [hagrees.paths _ rfl]
    rw [hsame]
    exact h.present key

theorem SourceUntouched.agrees {found : FileSystem C} {host host' : Host C}
    (h : SourceUntouched found host.fs) (hagrees : Agrees host host') :
    SourceUntouched found host'.fs := by
  unfold SourceUntouched
  rw [hagrees.paths .sourceDir rfl, hagrees.paths .sourceBackup rfl,
    hagrees.paths .failedSource rfl]
  exact h

theorem SourceStage.agrees {found : FileSystem C} {host host' : Host C}
    (h : SourceStage found host) (hagrees : Agrees host host') : SourceStage found host' := by
  have hdir := hagrees.paths .sourceDir rfl
  have hbackup := hagrees.paths .sourceBackup rfl
  have hfailed := hagrees.paths .failedSource rfl
  have hrecorded := hagrees.sourceBackup
  have hhad := hagrees.sourceHadExisting
  have hstaged := hagrees.stagedSource
  cases h with
  | untouched huntouched hexisting hnew =>
      apply SourceStage.untouched (huntouched.agrees hagrees)
      · rw [hhad]
        exact hexisting
      · rw [hstaged]
        exact hnew
  | existing huntouched hfree hrecord hexisting =>
      exact .existing (huntouched.agrees hagrees) hfree (hrecorded.trans hrecord)
        (hhad.trans hexisting)
  | aside hmoved hkept hsome hother hfree hrecord hexisting =>
      exact .aside (hdir.trans hmoved) (hbackup.trans hkept) hsome (hfailed.trans hother) hfree
        (hrecorded.trans hrecord) (hhad.trans hexisting)
  | promoted hnew hkept hother hfree hrecord hexisting =>
      apply SourceStage.promoted _ (hbackup.trans hkept) (hfailed.trans hother) hfree
        (hrecorded.trans hrecord) (hhad.trans hexisting)
      rw [hdir]
      exact hnew

theorem Recoverable.agrees {found : FileSystem C} {host host' : Host C}
    (h : Recoverable found host) (hagrees : Agrees host host') : Recoverable found host' := by
  constructor
  · exact h.snapshotted.agrees hagrees
  · rw [hagrees.rollbackDir]
    exact h.rollbackDir
  · exact h.source.agrees hagrees

/-- A host on which every operation finds the transaction guarded. -/
def guarded (found : FileSystem C) : Contract Ans (Host C) :=
  .solo (fun host _ => Guarded found host) Host.Advances

/-- A script keeps the transaction guarded, and its value and the host at its end are
as `post` says. -/
def Keeps {α : Type} (found : FileSystem C) (post : α → Host C → Prop) (p : StrictSh α)
    (host : Host C) : Prop :=
  Holds (guarded found) (fun result host' => match result with
    | some value => post value host'
    | none => Guarded found host') p.run host

variable {found : FileSystem C} {α β : Type} {host : Host C}

theorem keeps_bind {post : β → Host C → Prop} {p : StrictSh α} {f : α → StrictSh β}
    (h : Keeps found (fun value => Keeps found post (f value)) p host) :
    Keeps found post (p >>= f) host := by
  apply holds_script_bind
  refine holds_mono h ?_
  intro result host' hpost
  cases result with
  | some value => exact hpost
  | none => exact holds_solo_done.mpr hpost

theorem keeps_mono {post post' : α → Host C → Prop} {p : StrictSh α}
    (h : Keeps found post p host) (himp : ∀ value host', post value host' → post' value host') :
    Keeps found post' p host := by
  refine holds_mono h ?_
  intro result host' hpost
  cases result with
  | some value => exact himp value host' hpost
  | none => exact hpost

theorem keeps_pure {post : α → Host C → Prop} {value : α} (h : post value host) :
    Keeps found post (pure value) host :=
  holds_solo_done.mpr h

theorem keeps_exit {post : α → Host C → Prop} (h : Guarded found host) :
    Keeps found post Script.exit host :=
  holds_solo_done.mpr h

theorem keeps_op {post : Ans op → Host C → Prop} (hguarded : Guarded found host)
    (h : ∀ answer host', host.Advances op answer host' → post answer host') :
    Keeps found post (Script.step (Program.perform op)) host := by
  refine holds_solo_ask.mpr ⟨hguarded, fun answer host' hadvances => ?_⟩
  exact holds_solo_done.mpr (h answer host' hadvances)

theorem keeps_get {post : Variables → Host C → Prop} (hguarded : Guarded found host)
    (h : post host.vars host) : Keeps found post (Script.step get) host := by
  apply keeps_op hguarded
  rintro answer host' ⟨rfl, rfl⟩
  exact h

theorem keeps_set {post : Unit → Host C → Prop} {assignment : Assignment}
    (hguarded : Guarded found host)
    (h : post () { host with vars := host.vars.assign assignment }) :
    Keeps found post (set assignment) host := by
  apply keeps_op hguarded
  intro answer host' hadvances
  have hassign : host' = { host with vars := host.vars.assign assignment } := hadvances
  rw [hassign]
  exact h

theorem keeps_test {post : Bool → Host C → Prop} {condition : Test} {path : FilePath}
    (hguarded : Guarded found host) (h : post (host.fs.test condition path) host) :
    Keeps found post (Script.step (test condition path)) host := by
  apply keeps_op hguarded
  rintro answer host' ⟨rfl, rfl⟩
  exact h

theorem keeps_isOccupied {post : Bool → Host C → Prop} {path : FilePath}
    (hguarded : Guarded found host) (h : post (host.fs path).isSome host) :
    Keeps found post (Script.step (isOccupied path)) host := by
  rw [← host.fs.exists_or_link path] at h
  refine holds_solo_ask.mpr ⟨hguarded, fun answer host' hadvances => ?_⟩
  obtain ⟨hanswer, hsame⟩ := hadvances
  rw [hanswer, hsame]
  cases hexists : host.fs.test .exists path with
  | true =>
      rw [hexists] at h
      exact holds_solo_done.mpr h
  | false =>
      rw [hexists] at h
      refine holds_solo_ask.mpr ⟨hguarded, fun linked host'' hlinked => ?_⟩
      obtain ⟨hlink, hsame'⟩ := hlinked
      rw [hlink, hsame']
      exact holds_solo_done.mpr h

theorem keeps_must {post : Unit → Host C → Prop} {command : Command}
    (hguarded : Guarded found host)
    (h : ∀ fs', command.Leads host.fs true fs' → post () ⟨fs', host.vars⟩)
    (hfails : ∀ fs', command.Leads host.fs false fs' → Guarded found ⟨fs', host.vars⟩) :
    Keeps found post (must command) host := by
  unfold must
  apply keeps_bind
  apply keeps_op hguarded
  rintro status ⟨fs', vars'⟩ ⟨hvars, hleads⟩
  have hsame : vars' = host.vars := hvars
  subst hsame
  cases status with
  | true => exact keeps_pure (h fs' hleads)
  | false => exact keeps_exit (hfails fs' hleads)

theorem keeps_onlyIf {post : Unit → Host C → Prop} {condition : Bool} {body : StrictSh Unit}
    (hthen : condition = true → Keeps found post body host)
    (helse : condition = false → post () host) :
    Keeps found post (onlyIf condition body) host := by
  cases condition with
  | true => exact hthen rfl
  | false => exact keeps_pure (helse rfl)

theorem keeps_check {post : Unit → Host C → Prop} {condition : String}
    (hguarded : Guarded found host) (h : post () host) :
    Keeps found post (check condition) host := by
  unfold check
  apply keeps_bind
  apply keeps_op hguarded
  intro answer host' hsame
  have hhost : host' = host := hsame
  rw [hhost]
  cases answer with
  | true => exact keeps_pure h
  | false => exact keeps_exit hguarded

/-- What agreeing hosts share, a script that spares the protected keeps. -/
theorem keeps_of_spares {p : StrictSh α} (huses : Uses Op.Spares p.run)
    {holds : Host C → Prop} (hagrees : ∀ {host host' : Host C}, holds host →
      Agrees host host' → holds host')
    (hguarded : ∀ {host : Host C}, holds host → Guarded found host) (h : holds host) :
    Keeps found (fun _ => holds) p host := by
  have hkeeps : Holds (guarded found) (fun _ host' => holds host') p.run host := by
    apply holds_of_uses _ _ huses h
    · rintro host' _ hholds rfl
      exact hholds
    · intro host' op hholds hspares
      exact ⟨hguarded hholds, fun answer host'' hadvances =>
        hagrees hholds (hspares.agrees hadvances)⟩
  refine holds_mono hkeeps ?_
  intro result host' hholds
  cases result with
  | some value => exact hholds
  | none => exact hguarded hholds

/-- The snapshots are complete and nothing has happened to the source yet. -/
structure Opened (found : FileSystem C) (active : Bool) (host : Host C) : Prop where
  transactionActive : host.vars.transactionActive = active
  rollbackDir : host.vars.rollbackDir = true
  snapshotted : Snapshotted found host.fs
  source : SourceUntouched found host.fs
  sourceBackup : host.vars.sourceBackup = false
  sourceHadExisting : host.vars.sourceHadExisting = false
  stagedSource : host.vars.stagedSource ≠ some .sourceDir

theorem guarded_of_inactive (h : host.vars.transactionActive = false) : Guarded found host := by
  intro hactive
  rw [h] at hactive
  cases hactive

theorem Opened.guarded {active : Bool} (h : Opened found active host) : Guarded found host :=
  fun _ => ⟨h.snapshotted, h.rollbackDir,
    .untouched h.source h.sourceHadExisting h.stagedSource⟩

theorem Opened.agrees {active : Bool} {host' : Host C} (h : Opened found active host)
    (hagrees : Agrees host host') : Opened found active host' := by
  constructor
  · exact hagrees.transactionActive.trans h.transactionActive
  · exact hagrees.rollbackDir.trans h.rollbackDir
  · exact h.snapshotted.agrees hagrees
  · exact h.source.agrees hagrees
  · exact hagrees.sourceBackup.trans h.sourceBackup
  · exact hagrees.sourceHadExisting.trans h.sourceHadExisting
  · rw [hagrees.stagedSource]
    exact h.stagedSource

theorem Opened.activate {active : Bool} (h : Opened found active host) :
    Opened found true { host with vars := host.vars.assign (.transactionActive true) } :=
  ⟨rfl, h.rollbackDir, h.snapshotted, h.source, h.sourceBackup, h.sourceHadExisting,
    h.stagedSource⟩

/-- The snapshots of some keys have been taken, and the others' are still to come. -/
structure Snapping (found : FileSystem C) (taken : List Managed) (host : Host C) : Prop where
  inactive : host.vars.transactionActive = false
  rollbackDir : host.vars.rollbackDir = true
  managed : ∀ key, host.fs (.managed key) = found (.managed key)
  source : SourceUntouched found host.fs
  sourceBackup : host.vars.sourceBackup = false
  sourceHadExisting : host.vars.sourceHadExisting = false
  stagedSource : host.vars.stagedSource ≠ some .sourceDir
  snapshot : ∀ key ∈ taken, host.fs (.snapshot key) = found (.managed key) ∧
    host.fs.test .exists (.present key) = (found (.managed key)).isSome
  waiting : ∀ key ∉ taken, host.fs (.snapshot key) = none ∧ host.fs (.present key) = none

theorem Snapping.guarded {taken : List Managed} (h : Snapping found taken host) :
    Guarded found host :=
  guarded_of_inactive h.inactive

/-- One path more. -/
theorem Snapping.take {taken : List Managed} {key : Managed} {fs' : FileSystem C}
    (h : Snapping found taken host)
    (hsnapshot : fs' (.snapshot key) = found (.managed key))
    (hpresent : fs'.test .exists (.present key) = (found (.managed key)).isSome)
    (hrest : ∀ path, path ≠ .snapshot key → path ≠ .present key → fs' path = host.fs path) :
    Snapping found (key :: taken) ⟨fs', host.vars⟩ := by
  have hother : ∀ other : Managed, other ≠ key →
      fs' (.snapshot other) = host.fs (.snapshot other) ∧
        fs' (.present other) = host.fs (.present other) := by
    intro other hne
    constructor
    · exact hrest _ (by simpa using hne) (by simp)
    · exact hrest _ (by simp) (by simpa using hne)
  constructor
  · exact h.inactive
  · exact h.rollbackDir
  · intro other
    exact (hrest _ (by simp) (by simp)).trans (h.managed other)
  · obtain ⟨hdir, hbackup, hfailed⟩ := h.source
    exact ⟨(hrest _ (by simp) (by simp)).trans hdir,
      (hrest _ (by simp) (by simp)).trans hbackup,
      (hrest _ (by simp) (by simp)).trans hfailed⟩
  · exact h.sourceBackup
  · exact h.sourceHadExisting
  · exact h.stagedSource
  · intro other member
    by_cases hkey : other = key
    · subst hkey
      exact ⟨hsnapshot, hpresent⟩
    · have htaken := (List.mem_cons.mp member).resolve_left hkey
      obtain ⟨hsame, hsame'⟩ := hother other hkey
      obtain ⟨hold, hold'⟩ := h.snapshot other htaken
      have htest : fs'.test .exists (.present other) =
          host.fs.test .exists (.present other) := by
        unfold FileSystem.test
        rw [hsame']
      exact ⟨hsame.trans hold, htest.trans hold'⟩
  · intro other hnot
    rw [List.mem_cons, not_or] at hnot
    obtain ⟨hsame, hsame'⟩ := hother other hnot.1
    obtain ⟨hnone, hnone'⟩ := h.waiting other hnot.2
    exact ⟨hsame.trans hnone, hsame'.trans hnone'⟩

/-- `snapshot_path` adds the snapshot of one more path to those taken and touches nothing that is
managed. -/
theorem keeps_snapshotPath {taken : List Managed} {key : Managed}
    (hkey : key ∉ taken) (h : Snapping found taken host) :
    Keeps found (fun _ => Snapping found (key :: taken)) (snapshotPath key) host := by
  obtain ⟨hsnapshot, hpresent⟩ := h.waiting key hkey
  have hguarded : ∀ fs', Guarded found ⟨fs', host.vars⟩ :=
    fun _ => guarded_of_inactive h.inactive
  unfold snapshotPath
  apply keeps_bind
  apply keeps_isOccupied h.guarded
  apply keeps_onlyIf
  · intro hoccupied
    apply keeps_bind
    apply keeps_must h.guarded
    · rintro fs' ⟨-, rfl⟩
      apply keeps_must (hguarded _)
      · rintro fs'' ⟨content, rfl⟩
        apply h.take
        · rw [Function.update_of_ne (by simp)]
          exact (Function.update_self _ _ _).trans (h.managed key)
        · rw [h.managed] at hoccupied
          simp [FileSystem.test, Node.passes, hoccupied]
        · intro path hne hne'
          exact (Function.update_of_ne hne' _ _).trans (Function.update_of_ne hne _ _)
      · exact fun fs'' _ => hguarded fs''
    · exact fun fs' _ => hguarded fs'
  · intro hfree
    have hnone : found (.managed key) = none := by
      rw [← h.managed]
      simpa using hfree
    apply h.take
    · rw [hsnapshot, hnone]
    · simp [FileSystem.test, hpresent, hnone]
    · exact fun _ _ _ => rfl

theorem Snapping.opened {taken : List Managed} (h : Snapping found taken host)
    (hall : ∀ key, key ∈ taken) : Opened found false host where
  transactionActive := h.inactive
  rollbackDir := h.rollbackDir
  snapshotted := ⟨fun key => (h.snapshot key (hall key)).1,
    fun key => (h.snapshot key (hall key)).2⟩
  source := h.source
  sourceBackup := h.sourceBackup
  sourceHadExisting := h.sourceHadExisting
  stagedSource := h.stagedSource

/-- What agreeing hosts share goes on through the first step of a sequence. -/
theorem keeps_spares_bind {post : β → Host C → Prop} {p : StrictSh α} {f : α → StrictSh β}
    (huses : Uses Op.Spares p.run) {holds : Host C → Prop}
    (hagrees : ∀ {host host' : Host C}, holds host → Agrees host host' → holds host')
    (hguarded : ∀ {host : Host C}, holds host → Guarded found host) (h : holds host)
    (hrest : ∀ value {host'}, holds host' → Keeps found post (f value) host') :
    Keeps found post (p >>= f) host := by
  apply keeps_bind
  refine keeps_mono (keeps_of_spares huses hagrees hguarded h) ?_
  intro value host' hholds
  exact hrest value hholds

theorem Prepared.snapping {host : Host C} (h : Prepared host) {fs' : FileSystem C}
    {vars' : Variables} (hpaths : ∀ path, FilePath.rollbackDir.holds path = false →
      fs' path = host.fs path)
    (hempty : ∀ path, FilePath.rollbackDir.holds path = true → path ≠ .rollbackDir →
      fs' path = none)
    (hvars : vars' = ((host.vars.assign (.preserveRollback false)).assign
      (.rollbackDir true))) :
    Snapping host.fs [] ⟨fs', vars'⟩ := by
  subst hvars
  constructor
  · exact h.inactive
  · rfl
  · exact fun key => hpaths _ rfl
  · exact ⟨hpaths _ rfl, hpaths _ rfl, hpaths _ rfl⟩
  · exact h.sourceBackup
  · exact h.sourceHadExisting
  · rcases h.stagedSource with hnone | hstaged
    · simp [Variables.assign, hnone]
    · simp [Variables.assign, hstaged]
  · exact fun key member => absurd member List.not_mem_nil
  · exact fun key _ => ⟨hempty _ rfl (by simp), hempty _ rfl (by simp)⟩

theorem Snapping.chmod {mode : String} {fs' : FileSystem C} (h : Snapping found [] host)
    (hleads : Command.Leads host.fs (.chmod mode .rollbackDir) true fs') :
    Snapping found [] ⟨fs', host.vars⟩ := by
  have hsame : ∀ path, path ≠ .rollbackDir → fs' path = host.fs path := hleads
  constructor
  · exact h.inactive
  · exact h.rollbackDir
  · exact fun key => (hsame _ (by simp)).trans (h.managed key)
  · obtain ⟨hdir, hbackup, hfailed⟩ := h.source
    exact ⟨(hsame _ (by simp)).trans hdir, (hsame _ (by simp)).trans hbackup,
      (hsame _ (by simp)).trans hfailed⟩
  · exact h.sourceBackup
  · exact h.sourceHadExisting
  · exact h.stagedSource
  · exact fun key member => absurd member List.not_mem_nil
  · intro key hnot
    obtain ⟨hnone, hnone'⟩ := h.waiting key hnot
    exact ⟨(hsame _ (by simp)).trans hnone, (hsame _ (by simp)).trans hnone'⟩

/-- `begin_transaction` takes a snapshot of every managed file and marks the transaction as
active only then, so that a command that fails on the way leaves the files as they were found.
-/
theorem keeps_beginTransaction (h : Prepared host) :
    Keeps host.fs (fun _ => Opened host.fs true) beginTransaction host := by
  have hagrees : ∀ {active : Bool} {one other : Host C}, Opened host.fs active one →
      Agrees one other → Opened host.fs active other := Opened.agrees
  have hguarded : ∀ {active : Bool} {one : Host C}, Opened host.fs active one →
      Guarded host.fs one := Opened.guarded
  have hquiet : ∀ fs', Guarded host.fs ⟨fs', host.vars.assign (.preserveRollback false)⟩ :=
    fun _ => guarded_of_inactive h.inactive
  have hnamed : ∀ fs', Guarded host.fs ⟨fs', (host.vars.assign (.preserveRollback false)).assign
      (.rollbackDir true)⟩ :=
    fun _ => guarded_of_inactive h.inactive
  unfold beginTransaction
  apply keeps_bind
  apply keeps_get (guarded_of_inactive h.inactive)
  apply keeps_bind
  apply keeps_onlyIf
  · intro hactive
    rw [h.inactive] at hactive
    cases hactive
  intro _
  apply keeps_bind
  apply keeps_check (guarded_of_inactive h.inactive)
  apply keeps_bind
  apply keeps_set (guarded_of_inactive h.inactive)
  apply keeps_bind
  apply keeps_must (hquiet _)
  · rintro fs' ⟨hpaths, -, hempty⟩
    apply keeps_bind
    apply keeps_set (hquiet _)
    have hsnapping := h.snapping hpaths hempty rfl
    apply keeps_bind
    apply keeps_must hsnapping.guarded
    · intro fs'' hleads
      have hstart := hsnapping.chmod hleads
      apply keeps_bind
      refine keeps_mono (keeps_snapshotPath List.not_mem_nil hstart) fun _ _ hbinary => ?_
      apply keeps_bind
      refine keeps_mono (keeps_snapshotPath (by decide) hbinary) fun _ _ hunit => ?_
      apply keeps_bind
      refine keeps_mono (keeps_snapshotPath (by decide) hunit) fun _ _ hoverride => ?_
      apply keeps_bind
      refine keeps_mono (keeps_snapshotPath (by decide) hoverride) fun _ _ hconfig => ?_
      apply keeps_bind
      refine keeps_mono (keeps_snapshotPath (by decide) hconfig) fun _ _ htoken => ?_
      have hopened := htoken.opened fun key => by cases key <;> decide
      apply keeps_spares_bind (spares_set rfl) hagrees hguarded hopened
      intro _ _ hopened
      apply keeps_spares_bind (spares_set rfl) hagrees hguarded hopened
      intro _ _ hopened
      apply keeps_spares_bind (spares_set rfl) hagrees hguarded hopened
      intro _ _ hopened
      apply keeps_spares_bind (spares_set rfl) hagrees hguarded hopened
      intro _ _ hopened
      apply keeps_spares_bind (spares_set rfl) hagrees hguarded hopened
      intro _ _ hopened
      apply keeps_spares_bind (spares_set rfl) hagrees hguarded hopened
      intro _ _ hopened
      apply keeps_spares_bind (spares_set rfl) hagrees hguarded hopened
      intro _ _ hopened
      apply keeps_spares_bind (spares_set rfl) hagrees hguarded hopened
      intro _ _ hopened
      apply keeps_spares_bind (spares_ask _) hagrees hguarded hopened
      intro user _ hopened
      apply keeps_spares_bind (spares_onlyIf (spares_set rfl)) hagrees hguarded hopened
      intro _ _ hopened
      apply keeps_spares_bind (spares_ask _) hagrees hguarded hopened
      intro group _ hopened
      apply keeps_spares_bind (spares_onlyIf (spares_set rfl)) hagrees hguarded hopened
      intro _ _ hopened
      apply keeps_spares_bind (spares_recordDirectory _ (fun _ => rfl) fun _ => rfl) hagrees
        hguarded hopened
      intro _ _ hopened
      apply keeps_spares_bind (spares_recordDirectory _ (fun _ => rfl) fun _ => rfl) hagrees
        hguarded hopened
      intro _ _ hopened
      apply keeps_spares_bind (spares_recordDirectory _ (fun _ => rfl) fun _ => rfl) hagrees
        hguarded hopened
      intro _ _ hopened
      apply keeps_spares_bind spares_recordServiceState hagrees hguarded hopened
      intro _ _ hopened
      apply keeps_bind
      apply keeps_set hopened.guarded
      exact keeps_of_spares spares_stopService hagrees hguarded hopened.activate
    · exact fun fs'' _ => hnamed fs''
  · exact fun fs' _ => hquiet fs'

theorem Snapshotted.update {fs : FileSystem C} (h : Snapshotted found fs) {path : FilePath}
    (hsnapshot : ∀ key, path ≠ .snapshot key) (hpresent : ∀ key, path ≠ .present key)
    (node : Option (Node C)) : Snapshotted found (Function.update fs path node) := by
  constructor
  · intro key
    rw [Function.update_of_ne (hsnapshot key).symm]
    exact h.snapshot key
  · intro key
    unfold FileSystem.test
    rw [Function.update_of_ne (hpresent key).symm]
    exact h.present key

/-- A move next to the source. -/
theorem Snapshotted.move {fs : FileSystem C} (h : Snapshotted found fs)
    {source destination : FilePath} (hsource : ∀ key, source ≠ .snapshot key)
    (hsource' : ∀ key, source ≠ .present key) (hdestination : ∀ key, destination ≠ .snapshot key)
    (hdestination' : ∀ key, destination ≠ .present key) (node : Option (Node C)) :
    Snapshotted found (Function.update (Function.update fs source none) destination node) :=
  (h.update hsource hsource' none).update hdestination hdestination' node

theorem lands_free {noTargetDirectory : Bool} {node landed : Node C}
    (h : Lands noTargetDirectory none node landed) : landed = node := by
  cases h
  rfl

/-- The place of the source is free: what was there is at the backup path. -/
structure SourceCleared (found : FileSystem C) (host : Host C) : Prop where
  snapshotted : Snapshotted found host.fs
  rollbackDir : host.vars.rollbackDir = true
  sourceDir : host.fs .sourceDir = none
  kept : host.fs .sourceBackup = found .sourceDir
  failedSource : host.fs .failedSource = found .failedSource
  free : found .sourceBackup = none
  sourceBackup : host.vars.sourceBackup = true
  sourceHadExisting : host.vars.sourceHadExisting = (found .sourceDir).isSome

theorem keeps_moveStaged (h : SourceCleared found host) (hguarded : Guarded found host) :
    Keeps found (fun _ => Guarded found) (do
      must (.mv .stagedSource .sourceDir false)
      set (.stagedSource (some .sourceDir)) : StrictSh Unit) host := by
  apply keeps_bind
  apply keeps_must hguarded
  · rintro fs' ⟨node, landed, -, -, rfl⟩
    have hsnapshotted : Snapshotted found (Function.update
        (Function.update host.fs .stagedSource none) .sourceDir (some landed)) :=
      h.snapshotted.move (by simp) (by simp) (by simp) (by simp) _
    have hpromoted : ∀ vars : Variables, vars.rollbackDir = host.vars.rollbackDir →
        vars.sourceBackup = host.vars.sourceBackup →
        vars.sourceHadExisting = host.vars.sourceHadExisting →
        Recoverable found ⟨Function.update (Function.update host.fs .stagedSource none)
          .sourceDir (some landed), vars⟩ := by
      intro vars hdir hbackup hhad
      refine ⟨hsnapshotted, hdir.trans h.rollbackDir, .promoted ?_ ?_ ?_ h.free
        (hbackup.trans h.sourceBackup) (hhad.trans h.sourceHadExisting)⟩
      · simp
      · simpa using h.kept
      · simpa using h.failedSource
    apply keeps_set
    · exact fun _ => hpromoted _ rfl rfl rfl
    · exact fun _ => hpromoted _ rfl rfl rfl
  · rintro fs' rfl
    exact hguarded

/-- `promote_source` keeps the transaction guarded at each of its commands: the source is in
place, or the backup has it and the variables say so. The proof goes through the script command by
command, with what is known of the source directory after each. -/
theorem keeps_promoteSource (h : Opened found true host)
    (hplain : found.test .link .sourceDir = false) :
    Keeps found (fun _ => Guarded found) promoteSource host := by
  obtain ⟨hdir, hbackup, hfailed⟩ := h.source
  unfold promoteSource
  apply keeps_bind
  apply keeps_get h.guarded
  apply keeps_bind
  apply keeps_onlyIf
  · exact fun _ => keeps_exit h.guarded
  intro hstaged
  have hstaged' : host.vars.stagedSource = some .stagedSource := by simpa using hstaged
  apply keeps_bind
  apply keeps_test h.guarded
  apply keeps_bind
  apply keeps_onlyIf
  · exact fun _ => keeps_exit h.guarded
  intro _
  apply keeps_bind
  apply keeps_set h.guarded
  have hnew : Opened found true
      { host with vars := host.vars.assign (.sourceHadExisting false) } :=
    ⟨h.transactionActive, h.rollbackDir, h.snapshotted, h.source, h.sourceBackup, rfl,
      h.stagedSource⟩
  apply keeps_bind
  apply keeps_set hnew.guarded
  have hrecorded : Guarded found ⟨host.fs, (host.vars.assign (.sourceHadExisting false)).assign
      (.sourceBackup true)⟩ :=
    fun _ => ⟨h.snapshotted, h.rollbackDir,
      .untouched h.source rfl h.stagedSource⟩
  apply keeps_bind
  apply keeps_isOccupied hrecorded
  apply keeps_bind
  apply keeps_onlyIf
  · exact fun _ => keeps_exit hrecorded
  intro hstale
  have hfree : host.fs .sourceBackup = none := by simpa using hstale
  apply keeps_bind
  apply keeps_test hrecorded
  apply keeps_bind
  apply keeps_onlyIf
  · intro hexists
    apply keeps_bind
    apply keeps_set hrecorded
    have hexisting : Guarded found ⟨host.fs, ((host.vars.assign (.sourceHadExisting false)).assign
        (.sourceBackup true)).assign (.sourceHadExisting true)⟩ :=
      fun _ => ⟨h.snapshotted, h.rollbackDir,
        .existing h.source (hbackup.symm.trans hfree) rfl rfl⟩
    apply keeps_must hexisting
    · rintro fs' ⟨node, landed, hnode, hlands, rfl⟩
      have hkept : landed = node := by
        apply lands_free
        rw [← hfree]
        exact hlands
      have hfound : found .sourceDir = some node := hdir.symm.trans hnode
      have hcleared : SourceCleared found ⟨Function.update (Function.update host.fs .sourceDir none)
          .sourceBackup (some landed), ((host.vars.assign (.sourceHadExisting false)).assign
        (.sourceBackup true)).assign (.sourceHadExisting true)⟩ := by
        refine ⟨h.snapshotted.move (by simp) (by simp) (by simp) (by simp) _, h.rollbackDir,
          ?_, ?_, ?_, hbackup.symm.trans hfree, rfl, ?_⟩
        · simp
        · simp [hkept, hfound]
        · simpa using hfailed
        · simp [Variables.assign, hfound]
      apply keeps_moveStaged hcleared
      refine fun _ => ⟨hcleared.snapshotted, h.rollbackDir, .aside hcleared.sourceDir
        hcleared.kept ?_ hcleared.failedSource hcleared.free rfl rfl⟩
      simp [hfound]
    · rintro fs' rfl
      exact hexisting
  · intro habsent
    have hnone : host.fs .sourceDir = none := by
      have hoccupied := host.fs.exists_or_link .sourceDir
      have hlink : host.fs.test .link .sourceDir = false := by
        unfold FileSystem.test at hplain ⊢
        rw [hdir]
        exact hplain
      have htest : host.fs.test .exists .sourceDir = false := habsent
      rw [htest, hlink] at hoccupied
      simpa using hoccupied.symm
    have hfound : found .sourceDir = none := hdir.symm.trans hnone
    have hkept : host.fs .sourceBackup = found .sourceDir := hfree.trans hfound.symm
    have hcleared : SourceCleared found ⟨host.fs,
        (host.vars.assign (.sourceHadExisting false)).assign
          (.sourceBackup true)⟩ := by
      refine ⟨h.snapshotted, h.rollbackDir, hnone, hkept, hfailed, hbackup.symm.trans hfree,
        rfl, ?_⟩
      simp [Variables.assign, hfound]
    exact keeps_moveStaged hcleared hrecorded

def Inactive (host : Host C) : Prop := host.vars.transactionActive = false

/-- An operation that does not make a transaction active. -/
def Op.LeavesInactive : Op → Prop
  | .assign (.transactionActive value) => value = false
  | _ => True

theorem Op.LeavesInactive.inactive {op : Op} (h : op.LeavesInactive) {answer : Ans op}
    {host' : Host C} (hadvances : host.Advances op answer host') (hinactive : Inactive host) :
    Inactive host' := by
  unfold Inactive at hinactive ⊢
  cases op with
  | get | test condition path =>
      rw [hadvances.2]
      exact hinactive
  | stat path | ask question | readServiceEnablement =>
      have hsame : host' = host := hadvances
      rw [hsame]
      exact hinactive
  | assign assignment =>
      have hassign : host' = { host with vars := host.vars.assign assignment } := hadvances
      rw [hassign]
      cases assignment with
      | transactionActive value => exact h
      | _ => exact hinactive
  | run command =>
      rw [hadvances.1]
      exact hinactive

theorem keeps_inactive {p : StrictSh α} (huses : Uses Op.LeavesInactive p.run)
    (h : Inactive host) : Keeps found (fun _ => Guarded found) p host := by
  have hkeeps : Holds (guarded found) (fun _ => Inactive) p.run host := by
    apply holds_of_uses _ _ huses h
    · rintro one _ hinactive rfl
      exact hinactive
    · intro one op hinactive hleaves
      exact ⟨guarded_of_inactive hinactive, fun answer two hadvances =>
        hleaves.inactive hadvances hinactive⟩
  refine holds_mono hkeeps ?_
  intro result host' hinactive
  cases result with
  | some value => exact guarded_of_inactive hinactive
  | none => exact guarded_of_inactive hinactive

theorem leaves_op {op : Op} (h : op.LeavesInactive) :
    Uses Op.LeavesInactive (Script.step (Program.perform op : Sh (Ans op))).run :=
  uses_script_step ⟨h, fun _ => trivial⟩

/-- `commit_transaction` keeps the transaction guarded: it ends it first, and what it removes
afterwards is needed for a rollback no more. -/
theorem keeps_commitTransaction (h : Guarded found host) :
    Keeps found (fun _ => Guarded found) commitTransaction host := by
  unfold commitTransaction
  apply keeps_bind
  apply keeps_get h
  apply keeps_bind
  apply keeps_onlyIf
  · exact fun _ => keeps_exit h
  intro _
  apply keeps_bind
  apply keeps_set h
  have hinactive : Inactive { host with vars := host.vars.assign (.transactionActive false) } :=
    rfl
  refine keeps_inactive ?_ hinactive
  apply uses_script_bind
  · cases host.vars.sourceBackup with
    | false => trivial
    | true =>
        apply uses_script_bind
        · exact leaves_op trivial
        · intro there
          cases there with
          | false => trivial
          | true =>
              apply uses_script_bind
              · exact leaves_op trivial
              · intro removed
                cases removed with
                | false => trivial
                | true => exact leaves_op trivial
  intro _
  apply uses_script_bind
  · exact leaves_op trivial
  · intro removed
    cases removed with
    | true => exact leaves_op trivial
    | false => exact leaves_op trivial

/-- A step before the promotion of the source. -/
theorem keeps_opened_bind {p : StrictSh α} {f : α → StrictSh Unit}
    (huses : Uses Op.Spares p.run) (h : Opened found true host)
    (hrest : ∀ value {host'}, Opened found true host' →
      Keeps found (fun _ => Guarded found) (f value) host') :
    Keeps found (fun _ => Guarded found) (p >>= f) host :=
  keeps_spares_bind huses Opened.agrees Opened.guarded h hrest

/-- Wherever the installer has got to, an active transaction can be recovered from. -/
theorem keeps_deploy (settings : Settings) (h : Prepared host) :
    Keeps host.fs (fun _ => Guarded host.fs) (deploy settings) host := by
  unfold deploy
  split
  · apply keeps_bind
    refine keeps_mono (keeps_beginTransaction h) fun _ _ hopened => ?_
    apply keeps_opened_bind spares_createServiceAccount hopened
    intro _ _ hopened
    apply keeps_opened_bind spares_secureExistingConfigurationFiles hopened
    intro _ _ hopened
    apply keeps_opened_bind (spares_writeConfiguration settings) hopened
    intro _ _ hopened
    apply keeps_opened_bind spares_activateBinary hopened
    intro _ _ hopened
    apply keeps_opened_bind (spares_installSystemdUnit settings) hopened
    intro _ _ hopened
    apply keeps_opened_bind spares_validateConfiguration hopened
    intro _ _ hopened
    apply keeps_opened_bind spares_startService hopened
    intro _ _ hopened
    apply keeps_bind
    refine keeps_mono (keeps_promoteSource hopened h.sourceDir) fun _ _ hpromoted => ?_
    exact keeps_commitTransaction hpromoted
  · apply keeps_bind
    refine keeps_mono (keeps_beginTransaction h) fun _ _ hopened => ?_
    apply keeps_opened_bind spares_createServiceAccount hopened
    intro _ _ hopened
    apply keeps_opened_bind spares_secureExistingConfigurationFiles hopened
    intro _ _ hopened
    apply keeps_opened_bind (spares_writeConfiguration settings) hopened
    intro _ _ hopened
    apply keeps_opened_bind spares_activateBinary hopened
    intro _ _ hopened
    apply keeps_opened_bind (spares_installSystemdUnit settings) hopened
    intro _ _ hopened
    apply keeps_opened_bind spares_validateConfiguration hopened
    intro _ _ hopened
    apply keeps_opened_bind spares_startService hopened
    intro _ _ hopened
    apply keeps_bind
    refine keeps_mono (keeps_promoteSource hopened h.sourceDir) fun _ _ hpromoted => ?_
    exact keeps_commitTransaction hpromoted
  · apply keeps_bind
    refine keeps_mono (keeps_beginTransaction h) fun _ _ hopened => ?_
    apply keeps_opened_bind spares_createServiceAccount hopened
    intro _ _ hopened
    apply keeps_opened_bind spares_secureExistingConfigurationFiles hopened
    intro _ _ hopened
    apply keeps_opened_bind (spares_writeConfiguration settings) hopened
    intro _ _ hopened
    apply keeps_opened_bind (spares_installSystemdUnit settings) hopened
    intro _ _ hopened
    apply keeps_opened_bind spares_validateConfiguration hopened
    intro _ _ hopened
    apply keeps_opened_bind spares_startService hopened
    intro _ _ hopened
    exact keeps_commitTransaction hopened.guarded
  · apply keeps_bind
    refine keeps_mono (keeps_beginTransaction h) fun _ _ hopened => ?_
    apply keeps_opened_bind spares_createServiceAccount hopened
    intro _ _ hopened
    apply keeps_opened_bind spares_secureExistingConfigurationFiles hopened
    intro _ _ hopened
    apply keeps_opened_bind (spares_installSystemdUnit settings) hopened
    intro _ _ hopened
    apply keeps_opened_bind spares_validateConfiguration hopened
    intro _ _ hopened
    apply keeps_opened_bind spares_startService hopened
    intro _ _ hopened
    exact keeps_commitTransaction hopened.guarded

/-- The same of every host in which the installer can stop. -/
theorem guarded_of_reaches {settings : Settings} {host' : Host C} {trace : List (Event Ans)}
    {rest : Program Ans (Option Unit)} (h : Prepared host)
    (hreach : Reaches (deploy settings).run trace rest)
    (hpath : Path (shell C) host trace host') : Guarded host.fs host' := by
  have hpath' : Path (guarded host.fs) host trace host' :=
    path_mono (fun _ _ _ _ hadvances => hadvances) hpath
  have hrest := holds_reaches (keeps_deploy settings h) hreach hpath'
  cases rest with
  | done result =>
      have hpost := holds_solo_done.mp hrest
      cases result <;> exact hpost
  | ask op next => exact (holds_solo_ask.mp hrest).1

end

end Cirrusync.Installer
