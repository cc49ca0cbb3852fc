import Cirrusync.Installer.Recovery

/-!
From the exit of the installer to the end of `cleanup`: what the verdict of a rollback
says when the service is restarted, and what is left of every file at the end.
-/

namespace Cirrusync.Installer

open Effect

section

variable {C α : Type}

/-- Everything is as it was found. -/
def Restored (found fs : FileSystem C) : Prop :=
  (∀ key, fs (.managed key) = found (.managed key)) ∧ fs .sourceDir = found .sourceDir

/-- Every path that was absent has not come up or has been removed. -/
def AbsentRemoved (found : FileSystem C) (before : Host C) (log : List (Event Ans)) : Prop :=
  ∀ key, found (.managed key) = none →
    before.fs (.managed key) = none ∨ removal key ∈ log

/-- When the service is restarted, the files are as they were found exactly if nothing
has come up that the rollback does not notice. -/
def AtRestart (found : FileSystem C) (before : Host C) (watched : Watched C) : Prop :=
  found .sourceBackup = none → found .failedSource = none →
    (Restored found watched.1.fs ↔
      AbsentRemoved found before watched.2 ∧ NewSourceNamed found before)

/-- A source that was there is there or in the backup. -/
def SourceKept (found fs : FileSystem C) : Prop :=
  found .sourceBackup = none → found .failedSource = none → (found .sourceDir).isSome = true →
    fs .sourceDir = found .sourceDir ∨ fs .sourceBackup = found .sourceDir

/-- What a rollback without a failed command leaves. -/
def Faultless (found : FileSystem C) (before : Host C) (watched : Watched C) : Prop :=
  watched.Succeeded → (∀ key, watched.1.fs (.managed key) = found (.managed key)) ∧
    (watched.1.fs .sourceDir = found .sourceDir ↔ SourceRestorable found before)

/-- What has been put back, and what the verdict says about it. -/
structure Judged (found : FileSystem C) (before : Host C) (restored : Bool)
    (watched : Watched C) : Prop where
  absent : ∀ key, found (.managed key) = none → (watched.1.fs (.managed key) = none ↔
    before.fs (.managed key) = none ∨ removal key ∈ watched.2)
  present : restored = true → ∀ key, (found (.managed key)).isSome = true →
    watched.1.fs (.managed key) = found (.managed key)
  snapshot : ∀ key, watched.1.fs (.snapshot key) = found (.managed key)
  kept : SourceKept found watched.1.fs
  flagged : found .sourceBackup = none → found .failedSource = none → restored = true →
    (watched.1.fs .sourceDir = found .sourceDir ↔ NewSourceNamed found before)
  faultless : Faultless found before watched

/-- A rollback is over: the good copies are at the paths or in the preserved workspace. -/
structure Concluded (found : FileSystem C) (before : Host C) (watched : Watched C) : Prop where
  managed : (watched.1.vars.preserveRollback = true ∧
      ∀ key, watched.1.fs (.snapshot key) = found (.managed key)) ∨
    ∀ key, (found (.managed key)).isSome = true →
      watched.1.fs (.managed key) = found (.managed key)
  kept : SourceKept found watched.1.fs
  faultless : Faultless found before watched

/-- What is left at the end of `cleanup`. -/
structure Recovered (found : FileSystem C) (before : Host C) (watched : Watched C) : Prop where
  managed : ∀ key, (found (.managed key)).isSome = true →
    watched.1.fs (.managed key) = found (.managed key) ∨
      watched.1.fs (.snapshot key) = found (.managed key)
  kept : SourceKept found watched.1.fs
  faultless : Faultless found before watched

/-- Nothing has been rolled back yet. -/
structure Entered (before : Host C) (watched : Watched C) : Prop where
  paths : ∀ path : FilePath, path.isKept = true → watched.1.fs path = before.fs path
  removals : ∀ key, removal key ∉ watched.2

variable {found : FileSystem C} {before : Host C} {atRestart : Watched C → Prop}
  {watched watched' : Watched C} {restored : Bool}

theorem SourceKept.of_paths {fs fs' : FileSystem C} (h : SourceKept found fs)
    (hdir : fs' .sourceDir = fs .sourceDir) (hbackup : fs' .sourceBackup = fs .sourceBackup) :
    SourceKept found fs' := by
  intro hfree hfailed hsome
  rw [hdir, hbackup]
  exact h hfree hfailed hsome

theorem Faultless.of_paths (h : Faultless found before watched)
    (hmanaged : ∀ key, watched'.1.fs (.managed key) = watched.1.fs (.managed key))
    (hdir : watched'.1.fs .sourceDir = watched.1.fs .sourceDir)
    (hsucceeded : watched'.Succeeded → watched.Succeeded) : Faultless found before watched' := by
  intro hall
  have hbefore := h (hsucceeded hall)
  rw [hdir]
  exact ⟨fun key => (hmanaged key).trans (hbefore.1 key), hbefore.2⟩

theorem Judged.quiet (h : Judged found before restored watched) (hquiet : Quiet watched watched') :
    Judged found before restored watched' := by
  have hdir := hquiet.paths .sourceDir rfl
  have hbackup := hquiet.paths .sourceBackup rfl
  constructor
  · intro key habsent
    rw [hquiet.paths (.managed key) rfl, hquiet.removals key]
    exact h.absent key habsent
  · intro hrestored key hsome
    rw [hquiet.paths (.managed key) rfl]
    exact h.present hrestored key hsome
  · intro key
    rw [hquiet.paths (.snapshot key) rfl]
    exact h.snapshot key
  · exact h.kept.of_paths hdir hbackup
  · rw [hdir]
    exact h.flagged
  · exact h.faultless.of_paths (fun key => hquiet.paths _ rfl) hdir hquiet.succeeded

theorem Judged.weaken {weaker : Bool} (h : Judged found before restored watched)
    (himp : weaker = true → restored = true) : Judged found before weaker watched := by
  constructor
  · exact h.absent
  · exact fun hweaker => h.present (himp hweaker)
  · exact h.snapshot
  · exact h.kept
  · exact fun hfree hfailed hweaker => h.flagged hfree hfailed (himp hweaker)
  · exact h.faultless

/-- A good verdict is right as far as the rollback can see. -/
theorem Judged.allowsRestart (h : Judged found before true watched) :
    AtRestart found before watched := by
  intro hfree hfailed
  have hsource := h.flagged hfree hfailed rfl
  constructor
  · rintro ⟨hmanaged, hdir⟩
    refine ⟨?_, hsource.mp hdir⟩
    intro key habsent
    rw [← h.absent key habsent, hmanaged key]
    exact habsent
  · rintro ⟨hremoved, hnamed⟩
    refine ⟨?_, hsource.mpr hnamed⟩
    intro key
    cases hfound : found (.managed key) with
    | none => exact (h.absent key hfound).mpr (hremoved key hfound)
    | some node =>
        rw [← hfound]
        apply h.present rfl key
        rw [hfound]
        rfl

/-- A command that leaves what is kept, once everything is put back. -/
theorem judged_run {post : α → Watched C → Prop} {command : Command} {next : Bool → Sh α}
    (h : Judged found before restored watched)
    (hcalm : ∀ path : FilePath, path.isKept = true → command.touches path = false)
    (hpossible : command.Possible watched.1.fs)
    (hrestart : command = .systemctl .restart → atRestart watched)
    (hnext : ∀ status watched', Judged found before restored watched' →
      Holds (watching atRestart) post (next status) watched') :
    Holds (watching atRestart) post (.ask (.run command) next) watched := by
  refine watched_run hpossible hrestart fun status last hran => ?_
  exact hnext status last (h.quiet (hran.quiet hcalm))

/-- The service is restarted after a good verdict only. -/
theorem judged_restartPriorService (h : Judged found before true watched) :
    Holds (watching (AtRestart found before)) (Judged found before) restartPriorService
      watched := by
  have hfails : ∀ {last : Watched C}, Judged found before true last →
      Holds (watching (AtRestart found before)) (Judged found before)
        (.done false) last := by
    intro last hlast
    exact holds_solo_done.mpr (hlast.weaken fun heq => by cases heq)
  have hquiesce : ∀ {last : Watched C}, Judged found before true last →
      Holds (watching (AtRestart found before)) (Judged found before)
        (.ask (.run (.helper .quiesceFailedService)) fun _ => .done false) last := by
    intro last hlast
    refine judged_run hlast (fun _ _ => rfl) trivial (fun heq => by cases heq) ?_
    intro _ last' hlast'
    exact hfails hlast'
  refine judged_run h (fun _ _ => rfl) trivial (fun heq => by cases heq) ?_
  intro _ w₀ h₀
  refine judged_run h₀ (fun _ _ => rfl) trivial (fun heq => by cases heq) ?_
  intro shown w₁ h₁
  cases shown with
  | false => exact hfails h₁
  | true =>
      refine judged_run h₁ (fun _ _ => rfl) trivial (fun _ => h₁.allowsRestart) ?_
      intro restarted w₂ h₂
      cases restarted with
      | false => exact hquiesce h₂
      | true =>
          refine judged_run h₂ (fun _ _ => rfl) trivial (fun heq => by cases heq) ?_
          intro healthy w₃ h₃
          cases healthy with
          | true => exact holds_solo_done.mpr h₃
          | false => exact hquiesce h₃

theorem watched_question {post : α → Watched C → Prop} {question : Question}
    {next : Bool → Sh α}
    (h : ∀ answer watched', Quiet watched watched' →
      Holds (watching atRestart) post (next answer) watched') :
    Holds (watching atRestart) post (.ask (.ask question) next) watched := by
  apply watched_ask
  · intro command heq
    cases heq
  · intro heq
    cases heq
  · intro answer host' hadvances
    have hcalm : Op.Calm (.ask question) := trivial
    exact h answer _ (hcalm.quiet hadvances)

theorem judged_restoreService {vars : Variables} (h : Judged found before restored watched) :
    Holds (watching (AtRestart found before)) (Judged found before)
      (restoreService vars restored) watched := by
  refine watched_question fun running w₀ hquiet => ?_
  have h₀ := h.quiet hquiet
  cases running with
  | false => exact holds_solo_done.mpr h₀
  | true =>
      refine judged_run h₀ (fun _ _ => rfl) trivial (fun heq => by cases heq) ?_
      intro reloaded w₁ h₁
      refine judged_run h₁ (fun _ _ => rfl) trivial (fun heq => by cases heq) ?_
      intro enabled w₂ h₂
      have hweaker : Judged found before (restored && reloaded && enabled) w₂ := by
        apply h₂.weaken
        intro hall
        rw [Bool.and_eq_true, Bool.and_eq_true] at hall
        exact hall.1.1
      change Holds _ (Judged found before)
        (if (vars.serviceWasActive && (restored && reloaded && enabled)) = true then
          restartPriorService else .done (restored && reloaded && enabled)) w₂
      split
      · next hactive =>
          rw [Bool.and_eq_true] at hactive
          rw [hactive.2] at hweaker
          exact judged_restartPriorService hweaker
      · exact holds_solo_done.mpr hweaker

/-- The end of the workspace touches neither the paths nor the source. -/
theorem Ran.emptied {status : Bool} (hran : Ran watched (.rmTree .rollbackDir) status watched') :
    (∀ key, watched'.1.fs (.managed key) = watched.1.fs (.managed key)) ∧
      watched'.1.fs .sourceDir = watched.1.fs .sourceDir ∧
      watched'.1.fs .sourceBackup = watched.1.fs .sourceBackup :=
  ⟨fun _ => hran.untouched rfl, hran.untouched rfl, hran.untouched rfl⟩

theorem judged_concludeRollback (h : Judged found before restored watched) :
    Holds (watching atRestart) (fun _ => Concluded found before) (concludeRollback restored)
      watched := by
  have hpreserves : ∀ {one : Watched C}, (∀ key, one.1.fs (.snapshot key) =
      found (.managed key)) → SourceKept found one.1.fs → Faultless found before one →
      Holds (watching atRestart) (fun _ => Concluded found before)
        (assign (.preserveRollback true)) one := by
    intro one hsnapshot hkept hfaultless
    refine watched_assign fun log _ hlog => ?_
    exact holds_solo_done.mpr
      ⟨.inl ⟨rfl, hsnapshot⟩, hkept, hfaultless.of_paths (fun _ => rfl) rfl hlog⟩
  cases restored with
  | false => exact hpreserves h.snapshot h.kept h.faultless
  | true =>
      refine watched_run trivial (fun heq => by cases heq) fun status w₀ hran => ?_
      obtain ⟨hmanaged, hdir, hbackup⟩ := hran.emptied
      have hpresent : ∀ key, (found (.managed key)).isSome = true →
          w₀.1.fs (.managed key) = found (.managed key) :=
        fun key hsome => (hmanaged key).trans (h.present rfl key hsome)
      have hkept := h.kept.of_paths hdir hbackup
      have hfaultless := h.faultless.of_paths hmanaged hdir fun hall => (hran.succeeded hall).1
      cases status <;>
      · refine watched_assign fun log _ hlog => ?_
        exact holds_solo_done.mpr
          ⟨.inr hpresent, hkept, hfaultless.of_paths (fun _ => rfl) rfl hlog⟩

/-- The verdict after the paths, the override's directory and the source. -/
theorem judged_of_restores {snapshots source : Bool} {first second third : Watched C}
    (hentered : Entered before watched) (hsnapshotted : Snapshotted found watched.1.fs)
    (hrestores : RestoresAll found rollbackOrder watched snapshots first)
    (hquiet : Quiet first second) (hsource : RestoresSource found before second source third) :
    Judged found before (snapshots && source) third := by
  have hall : ∀ key, key ∈ rollbackOrder := by
    intro key
    cases key <;> decide
  have hmanaged : ∀ key, third.1.fs (.managed key) = first.1.fs (.managed key) :=
    fun key => (hsource.moved.paths _ rfl rfl).trans (hquiet.paths _ rfl)
  have hsnapshot : ∀ key, third.1.fs (.snapshot key) = watched.1.fs (.snapshot key) := by
    intro key
    calc
      third.1.fs (.snapshot key) = second.1.fs (.snapshot key) := hsource.moved.paths _ rfl rfl
      _ = first.1.fs (.snapshot key) := hquiet.paths _ rfl
      _ = watched.1.fs (.snapshot key) :=
        hrestores.paths _ rfl fun other _ heq => by cases heq
  have hremovals : ∀ key, removal key ∈ third.2 ↔ removal key ∈ first.2 :=
    fun key => (hsource.moved.removals key).trans (hquiet.removals key)
  constructor
  · intro key habsent
    rw [hmanaged key, hremovals key, ← hentered.paths (.managed key) rfl]
    exact hrestores.absent key (hall key) habsent (hentered.removals key)
  · intro hrestored key hsome
    rw [Bool.and_eq_true] at hrestored
    rw [hmanaged key]
    exact hrestores.present key (hall key) hsome hrestored.1
  · exact fun key => (hsnapshot key).trans (hsnapshotted.snapshot key)
  · exact hsource.kept
  · intro hfree hfailed hrestored
    rw [Bool.and_eq_true] at hrestored
    exact hsource.flagged hfree hfailed hrestored.2
  · intro hsucceeded
    refine ⟨?_, hsource.succeeded hsucceeded⟩
    obtain ⟨-, hok, hgone⟩ :=
      hrestores.succeeded (hquiet.succeeded (hsource.moved.succeeded hsucceeded))
    intro key
    rw [hmanaged key]
    cases hfound : found (.managed key) with
    | none => exact hgone key (hall key) hfound
    | some node =>
        rw [← hfound]
        apply hrestores.present key (hall key) _ hok
        rw [hfound]
        rfl

/-- A part of the rollback that leaves what is kept. -/
theorem judged_apart {post : α → Watched C → Prop} {β : Type} {p : Sh β} {next : β → Sh α}
    (huses : Uses Op.Apart p) (h : Judged found before restored watched)
    (hnext : ∀ value watched', Judged found before restored watched' →
      Holds (watching atRestart) post (next value) watched') :
    Holds (watching atRestart) post (p >>= next) watched := by
  apply holds_bind
  refine holds_mono (watched_apart huses) ?_
  intro value last hquiet
  exact hnext value last (h.quiet hquiet)

/-- The restoring part of a rollback puts back the source and every managed file for which it can,
and where one of them fails it keeps the workspace with the good copies. Either way they are at
their paths or preserved when it ends. -/
theorem watched_restoreEverything (hentered : Entered before watched)
    (hlink : found.test .link .sourceDir = false) (h : Recoverable found before) :
    Holds (watching (AtRestart found before)) (fun _ => Concluded found before)
      (restoreEverything before.vars) watched := by
  have hsnapshotted : Snapshotted found watched.1.fs := by
    apply h.snapshotted.of_paths
    · exact fun key => hentered.paths _ rfl
    · exact fun key => hentered.paths _ rfl
  have horder : rollbackOrder.Nodup := by decide
  unfold restoreEverything
  apply holds_bind
  refine holds_mono (watched_restoreSnapshots horder hsnapshotted) ?_
  intro snapshots first hrestores
  apply holds_bind
  refine holds_mono (watched_apart (apart_restoreUnitOverrideDir before.vars)) ?_
  intro overrideDir second hquiet
  have hsame : ∀ path : FilePath, path.isSource = true →
      second.1.fs path = before.fs path := by
    intro path hpath
    have hkept : path.isKept = true := by cases path <;> first | rfl | cases hpath
    have hother : ∀ key ∈ rollbackOrder, path ≠ .managed key := by
      rintro key - rfl
      cases hpath
    calc
      second.1.fs path = first.1.fs path := hquiet.paths path hkept
      _ = watched.1.fs path := hrestores.paths path hkept hother
      _ = before.fs path := hentered.paths path hkept
  apply holds_bind
  refine holds_mono (watched_restoreSource hlink h.source hsame) ?_
  intro source third hsource
  have hjudged := judged_of_restores hentered hsnapshotted hrestores hquiet hsource
  refine judged_apart (apart_restoreConfigDir before.vars) hjudged fun configDir w₀ h₀ => ?_
  refine judged_apart (apart_restoreStateDir before.vars) h₀ fun state w₁ h₁ => ?_
  obtain ⟨stateDir, retain⟩ := state
  refine judged_apart (apart_removeIdentity ?_ ?_) h₁ fun user w₂ h₂ => ?_
  · exact fun _ _ => rfl
  · exact fun _ _ => rfl
  refine judged_apart (apart_removeIdentity ?_ ?_) h₂ fun group w₃ h₃ => ?_
  · exact fun _ _ => rfl
  · exact fun _ _ => rfl
  have hverdict : Judged found before (snapshots && overrideDir && source && configDir &&
      stateDir && user && group) w₃ := by
    apply h₃.weaken
    intro hall
    simp only [Bool.and_eq_true] at hall ⊢
    exact ⟨hall.1.1.1.1.1.1, hall.1.1.1.1.2⟩
  apply holds_bind
  refine holds_mono (judged_restoreService hverdict) ?_
  intro restored last hlast
  exact judged_concludeRollback hlast

/-- A rollback that finds the service busy touches nothing. -/
theorem watched_quiesceForRollback (vars : Variables) :
    Holds (watching atRestart) (fun ok last => Quiet watched last ∧
      (last.Succeeded → ok = true)) (quiesceForRollback vars) watched := by
  have hterminates : ∀ {one : Watched C}, Quiet watched one →
      Holds (watching atRestart) (fun ok last => Quiet watched last ∧
        (last.Succeeded → ok = true))
        (if vars.serviceAccountValidated then run (.helper .terminateServiceProcesses)
          else .done true) one := by
    intro one hone
    split
    · refine watched_run trivial (fun heq => by cases heq) fun status last hran => ?_
      exact holds_solo_done.mpr
        ⟨hone.trans (hran.quiet fun _ _ => rfl), fun hall => (hran.succeeded hall).2⟩
    · exact holds_solo_done.mpr ⟨hone, fun _ => rfl⟩
  refine watched_question fun running w₀ h₀ => ?_
  cases running with
  | false => exact hterminates h₀
  | true =>
      refine watched_run trivial (fun heq => by cases heq) fun status w₁ hran => ?_
      have h₁ := h₀.trans (hran.quiet fun _ _ => rfl)
      cases status with
      | true => exact hterminates h₁
      | false => exact holds_solo_done.mpr ⟨h₁, fun hall => absurd hall hran.failed⟩

theorem Quiet.entered (h : Quiet (before, []) watched) : Entered before watched := by
  constructor
  · exact h.paths
  · intro key hmember
    rw [h.removals key] at hmember
    cases hmember

/-- Where the source is when nothing has been rolled back. -/
theorem SourceStage.kept (h : SourceStage found before) : SourceKept found before.fs := by
  intro _ _ _
  cases h with
  | untouched huntouched _ _ => exact .inl huntouched.1
  | existing huntouched _ _ _ => exact .inl huntouched.1
  | aside _ hkept _ _ _ _ _ => exact .inr hkept
  | promoted _ hkept _ _ _ _ => exact .inr hkept

/-- A rollback of an active transaction ends with the good copies at their paths or preserved, and
where it restarts the service, the files are as they were found unless something has come up that
it does not notice. -/
theorem watched_rollbackTransaction (hentered : Quiet (before, []) watched)
    (hactive : before.vars.transactionActive = true)
    (hlink : found.test .link .sourceDir = false) (h : Recoverable found before) :
    Holds (watching (AtRestart found before)) (fun _ => Concluded found before)
      rollbackTransaction watched := by
  refine watched_get fun w₀ hlooked => ?_
  have hvars : watched.1.vars = before.vars := hentered.vars
  rw [hvars, if_pos hactive]
  refine watched_assign fun log hremovals hlog => ?_
  have hfirst : Entered before
      ({ w₀.1 with vars := w₀.1.vars.assign (.transactionActive false) }, log) := by
    have hbefore := (hentered.trans hlooked.quiet).entered
    constructor
    · exact hbefore.paths
    · intro key hmember
      exact hbefore.removals key ((hremovals key).mp hmember)
  change Holds _ _ (quiesceForRollback before.vars >>= fun ok =>
    if ok = true then restoreEverything before.vars else assign (.preserveRollback true)) _
  apply holds_bind
  refine holds_mono (watched_quiesceForRollback before.vars) ?_
  rintro ok w₁ ⟨hquiet, hok⟩
  have hsecond : Entered before w₁ := by
    constructor
    · exact fun path hpath => (hquiet.paths path hpath).trans (hfirst.paths path hpath)
    · intro key hmember
      exact hfirst.removals key ((hquiet.removals key).mp hmember)
  cases ok with
  | true => exact watched_restoreEverything hsecond hlink h
  | false =>
      refine watched_assign fun log' _ hlog' => ?_
      have hsnapshot : ∀ key, w₁.1.fs (.snapshot key) = found (.managed key) :=
        fun key => (hsecond.paths _ rfl).trans (h.snapshotted.snapshot key)
      have hkept : SourceKept found w₁.1.fs :=
        h.source.kept.of_paths (hsecond.paths _ rfl) (hsecond.paths _ rfl)
      have hfaultless : Faultless found before
          ({ w₁.1 with vars := w₁.1.vars.assign (.preserveRollback true) }, log') := by
        intro hsucceeded
        have hfalse := hok (hlog' hsucceeded)
        cases hfalse
      exact holds_solo_done.mpr ⟨.inl ⟨rfl, hsnapshot⟩, hkept, hfaultless⟩

theorem Concluded.quiet (h : Concluded found before watched) (hquiet : Quiet watched watched') :
    Concluded found before watched' := by
  have hmanaged : ∀ key, watched'.1.fs (.managed key) = watched.1.fs (.managed key) :=
    fun key => hquiet.paths _ rfl
  have hdir := hquiet.paths .sourceDir rfl
  constructor
  · rw [hquiet.vars]
    rcases h.managed with ⟨hpreserved, hsnapshot⟩ | hpresent
    · left
      exact ⟨hpreserved, fun key => (hquiet.paths _ rfl).trans (hsnapshot key)⟩
    · right
      exact fun key hsome => (hmanaged key).trans (hpresent key hsome)
  · exact h.kept.of_paths hdir (hquiet.paths _ rfl)
  · exact h.faultless.of_paths hmanaged hdir hquiet.succeeded

theorem Concluded.recovered (h : Concluded found before watched) :
    Recovered found before watched := by
  constructor
  · intro key hsome
    rcases h.managed with ⟨-, hsnapshot⟩ | hpresent
    · exact .inr (hsnapshot key)
    · exact .inl (hpresent key hsome)
  · exact h.kept
  · exact h.faultless

theorem concluded_apart {post : α → Watched C → Prop} {β : Type} {p : Sh β} {next : β → Sh α}
    (huses : Uses Op.Apart p) (h : Concluded found before watched)
    (hnext : ∀ value watched', Quiet watched watched' → Concluded found before watched' →
      Holds (watching atRestart) post (next value) watched') :
    Holds (watching atRestart) post (p >>= next) watched := by
  apply holds_bind
  refine holds_mono (watched_apart huses) ?_
  intro value last hquiet
  exact hnext value last hquiet (h.quiet hquiet)

/-- The workspace goes unless it is preserved. -/
theorem watched_removeRollbackDir {held : Bool} (h : Concluded found before watched)
    (hheld : held = true → watched.1.vars.preserveRollback = false) :
    Holds (watching atRestart) (fun _ => Recovered found before)
      (removeTemporary held .directory .rollbackDir (.rmTree .rollbackDir)) watched := by
  unfold removeTemporary
  cases held with
  | false => exact holds_solo_done.mpr h.recovered
  | true =>
      refine watched_test fun w₀ hlooked => ?_
      have h₀ := h.quiet hlooked.quiet
      cases watched.1.fs.test .directory .rollbackDir with
      | false => exact holds_solo_done.mpr h₀.recovered
      | true =>
          refine watched_run trivial (fun heq => by cases heq) fun status w₁ hran => ?_
          obtain ⟨hmanaged, hdir, hbackup⟩ := hran.emptied
          have hpost : Recovered found before w₁ := by
            constructor
            · intro key hsome
              rcases h₀.managed with ⟨hpreserved, -⟩ | hpresent
              · rw [hlooked.host, hheld rfl] at hpreserved
                cases hpreserved
              · exact .inl ((hmanaged key).trans (hpresent key hsome))
            · exact h₀.kept.of_paths hdir hbackup
            · exact h₀.faultless.of_paths hmanaged hdir fun hall => (hran.succeeded hall).1
          exact holds_solo_done.mpr hpost

/-- The workspaces that hold nothing kept. -/
theorem apart_rmTree {path : FilePath}
    (h : path = .buildDir ∨ path = .sourceStageRoot ∨ path = .tempDir) :
    Op.Apart (.run (.rmTree path)) := by
  intro other hkept
  rcases h with rfl | rfl | rfl <;> cases other <;> first | rfl | cases hkept

theorem watched_removeWorkspaces (h : Concluded found before watched) :
    Holds (watching atRestart) (fun _ => Recovered found before) removeWorkspaces watched := by
  refine watched_get fun w₀ hlooked => ?_
  have h₀ := h.quiet hlooked.quiet
  have hrm : ∀ {path : FilePath}, path.isKept = false → Op.Apart (.run (.rm path)) :=
    fun hpath _ => ne_kept hpath
  refine concluded_apart (apart_removeTemporary (hrm rfl)) h₀ fun _ w₁ hq₁ h₁ => ?_
  have hbuild := apart_rmTree (.inl rfl)
  refine concluded_apart (apart_removeTemporary hbuild) h₁ fun _ w₂ hq₂ h₂ => ?_
  have hstage := apart_rmTree (.inr (.inl rfl))
  refine concluded_apart (apart_removeTemporary hstage) h₂ fun _ w₃ hq₃ h₃ => ?_
  refine concluded_apart (apart_removeTemporary (hrm rfl)) h₃ fun _ w₄ hq₄ h₄ => ?_
  have htemp := apart_rmTree (.inr (.inr rfl))
  refine concluded_apart (apart_removeTemporary htemp) h₄ fun _ w₅ hq₅ h₅ => ?_
  apply watched_removeRollbackDir h₅
  intro hheld
  have hvars : w₅.1.vars = watched.1.vars :=
    ((((hlooked.quiet.trans hq₁).trans hq₂).trans hq₃).trans hq₄ |>.trans hq₅).vars
  rw [hvars]
  rw [Bool.and_eq_true] at hheld
  simpa using hheld.1

/-- From any host that an active transaction leaves, whatever the commands come back
with. -/
theorem watched_cleanup (hactive : before.vars.transactionActive = true)
    (hlink : found.test .link .sourceDir = false) (h : Recoverable found before) :
    Holds (watching (AtRestart found before)) (fun _ => Recovered found before) cleanup
      (before, []) := by
  have hrm : ∀ {path : FilePath}, path.isKept = false → Op.Apart (.run (.rm path)) :=
    fun hpath _ => ne_kept hpath
  refine watched_get fun w₀ hlooked => ?_
  apply holds_bind
  refine holds_mono (watched_apart (apart_removeTemporary (hrm rfl))) fun _ w₁ hq₁ => ?_
  apply holds_bind
  refine holds_mono (watched_apart (apart_removeTemporary (hrm rfl))) fun _ w₂ hq₂ => ?_
  apply holds_bind
  refine holds_mono (watched_apart (apart_removeTemporary (hrm rfl))) fun _ w₃ hq₃ => ?_
  apply holds_bind
  refine holds_mono (watched_apart (apart_removeTemporary (hrm rfl))) fun _ w₄ hq₄ => ?_
  have hentered := (((hlooked.quiet.trans hq₁).trans hq₂).trans hq₃).trans hq₄
  apply holds_bind
  refine holds_mono (watched_rollbackTransaction hentered hactive hlink h) ?_
  intro _ w₅ hconcluded
  refine concluded_apart (apart_terminateBuilds _) hconcluded fun _ w₆ _ h₆ => ?_
  exact watched_removeWorkspaces h₆

end

end Cirrusync.Installer
