import Cirrusync.Installer.Cleanup
import Cirrusync.Installer.Machine

/-!
What becomes of an installation that is interrupted: which files are restored when
nothing fails, what survives when the rollback fails as well, and on which files the
service is started again.
-/

namespace Cirrusync.Installer

open Effect

section

variable {C : Type}

/-- The installer has stopped while its transaction was active. -/
structure Interrupted (settings : Settings) (start host : Host C) : Prop where
  prepared : Prepared start
  reached : ∃ trace rest, Reaches (deploy settings).run trace rest ∧
    Path (shell C) start trace host
  active : host.vars.transactionActive = true

/-- If all that `cleanup` does succeeds, everything is as it was found. -/
def RestoresFound (found : FileSystem C) (host : Host C) : Prop :=
  ∀ trace host', Runs cleanup trace () → Path (shell C) host trace host' →
    (∀ event ∈ trace, Succeeds event) → Restored found host'.fs

theorem Interrupted.recoverable {settings : Settings} {start host : Host C}
    (h : Interrupted settings start host) : Recoverable start.fs host := by
  obtain ⟨trace, rest, hreach, hpath⟩ := h.reached
  exact guarded_of_reaches h.prepared hreach hpath h.active

theorem Interrupted.watched_cleanup {settings : Settings} {start host : Host C}
    (h : Interrupted settings start host) :
    Holds (watching (AtRestart start.fs host)) (fun _ => Recovered start.fs host) cleanup
      (host, []) :=
  Installer.watched_cleanup h.active h.prepared.sourceDir h.recoverable

theorem watching_path {atRestart : Watched C → Prop} {host host' : Host C}
    {trace : List (Event Ans)} (h : Path (shell C) host trace host') :
    Path (watching atRestart) (host, []) trace (host', trace) :=
  path_logged h

/-- What a complete `cleanup` leaves. -/
theorem Interrupted.recovered {settings : Settings} {start host host' : Host C}
    {trace : List (Event Ans)} (h : Interrupted settings start host)
    (hrun : Runs cleanup trace ()) (hpath : Path (shell C) host trace host') :
    Recovered start.fs host (host', trace) := by
  have hpost := holds_run h.watched_cleanup hrun (watching_path hpath)
  exact hpost

/-! A host on which nothing fails. -/

def smooth : Circumstances := ⟨fun _ => true, fun _ => false⟩

/-- The same with the commands remembered. -/
def watchedRespond [Inhabited C] : Responder Ans (Watched C) :=
  fun watched op => ((smooth.respond watched.1 op).1,
    ((smooth.respond watched.1 op).2, watched.2 ++ [⟨op, (smooth.respond watched.1 op).1⟩]))

/-- The changes of a host on which every command succeeds. -/
def Host.Succeeding (host : Host C) (op : Op) (answer : Ans op) (host' : Host C) : Prop :=
  host.Advances op answer host' ∧ Succeeds ⟨op, answer⟩

theorem succeeding_events {permits : Host C → Op → Prop} {host host' : Host C}
    {trace : List (Event Ans)} (h : Path (.solo permits Host.Succeeding) host trace host') :
    ∀ event ∈ trace, Succeeds event := by
  induction h with
  | nil => simp
  | cons _ hadv _ ih =>
      rw [List.forall_mem_cons]
      exact ⟨hadv.2, ih⟩

/-- A rollback in which nothing fails exists. -/
theorem Interrupted.simulates [Inhabited C] {settings : Settings} {start host : Host C}
    (h : Interrupted settings start host) :
    ∃ trace host', Runs cleanup trace () ∧ Path (shell C) host trace host' ∧
      (∀ event ∈ trace, Succeeds event) ∧ Recovered start.fs host (host', trace) := by
  have hholds : Holds (.logged (fun watched op =>
      (∀ command, op = .run command → command.Possible watched.1.fs) ∧
        (op = .run (.systemctl .restart) → AtRestart start.fs host watched)) Host.Succeeding)
      (fun _ => Recovered start.fs host) cleanup (host, []) := by
    refine holds_weaken ?_ ?_ ?_ h.watched_cleanup
    · exact fun _ _ hsame => hsame
    · exact fun _ _ hpermits => hpermits
    · exact fun _ _ _ _ hadvances => ⟨hadvances.1.1, hadvances.2⟩
  have hrespond : ∀ (watched : Watched C) (op : Op),
      (∀ command, op = .run command → command.Possible watched.1.fs) ∧
        (op = .run (.systemctl .restart) → AtRestart start.fs host watched) →
      watched.1.Succeeding op (watchedRespond watched op).1 (watchedRespond watched op).2.1 ∧
        (watchedRespond watched op).2.2 = watched.2 ++ [⟨op, (watchedRespond watched op).1⟩] := by
    intro watched op hpermits
    refine ⟨⟨smooth.respond_advances watched.1 op, ?_⟩, rfl⟩
    cases op with
    | run command =>
        exact Circumstances.attempt_succeeds rfl (hpermits.1 command rfl)
    | _ => trivial
  obtain ⟨trace, value, last, hrun, hpath, hpost⟩ := holds_simulates hrespond hholds
  obtain ⟨hsolo, hlog⟩ := logged_path hpath
  have hsolo' : Path (.solo (fun _ _ => True) Host.Succeeding) host trace last.1 := hsolo
  have hsucceeds := succeeding_events hsolo'
  refine ⟨trace, last.1, hrun, path_mono (fun _ _ _ _ hadv => hadv.1) hsolo', hsucceeds, ?_⟩
  have hlast : last = (last.1, trace) := by
    rw [List.nil_append] at hlog
    rw [← hlog]
  rw [← hlast]
  exact hpost

instance : DecidablePred Succeeds
  | ⟨.run _, status⟩ => inferInstanceAs (Decidable (status = true))
  | ⟨.get, _⟩ | ⟨.assign _, _⟩ | ⟨.test _ _, _⟩ | ⟨.stat _, _⟩ | ⟨.readServiceEnablement, _⟩
  | ⟨.ask _, _⟩ => isTrue trivial

/-- The first operations of the installer, and a stop. -/
theorem interrupted_walk [Inhabited C] (around : Circumstances) (settings : Settings)
    {start : Host C} (count : Nat) (hprepared : Prepared start)
    (hactive : (walk around.respond count (deploy settings).run start).2.2.vars.transactionActive
      = true) :
    Interrupted settings start (walk around.respond count (deploy settings).run start).2.2 :=
  ⟨hprepared, ⟨_, _, walk_reaches _ _ _ _, walk_path around.respond_advances _ _ _⟩, hactive⟩

/-! Hosts to look at: an installed version 1, and a version 2 that is staged. -/

def installedFiles : FileSystem Nat
  | .managed _ => some (.file 1)
  | .sourceDir => some (.directory 1)
  | .sourceStageRoot | .stagedSource => some (.directory 2)
  | .stagedBinary => some (.file 2)
  | .binaryDir | .unitDir | .unitOverrideDir | .configDir | .stateDir => some (.directory 1)
  | _ => none

def preparedVariables : Variables where
  transactionActive := false
  preserveRollback := false
  rollbackDir := false
  sourceBackup := false
  sourceHadExisting := false
  sourceStageRoot := true
  stagedSource := some .stagedSource
  stagedBinary := true
  buildDir := false
  gitSafeConfig := false
  tempDir := false
  tokenTemp := false
  configTemp := false
  unitTemp := false
  overrideTemp := false
  buildAccountValidated := true
  serviceAccountValidated := false
  serviceUserHadExisting := false
  serviceGroupHadExisting := false
  configDirHadExisting := false
  configDirMetadata := ⟨"", ""⟩
  stateDirHadExisting := false
  stateDirMetadata := ⟨"", ""⟩
  unitOverrideDirHadExisting := false
  unitOverrideDirMetadata := ⟨"", ""⟩
  serviceWasActive := false
  serviceEnablementBefore := "disabled"

def installedHost : Host Nat := ⟨installedFiles, preparedVariables⟩

def upgradeSettings : Settings := ⟨.update, true, false, true⟩

theorem installedHost_prepared : Prepared installedHost :=
  ⟨rfl, rfl, rfl, .inr rfl, by decide⟩

/-- If everything succeeds, everything is restored exactly if the source can be: what is
at a recorded backup path is the source or is left alone, nothing at the failed path keeps
a source that was moved from coming back, and a source that is new is recorded as such. -/
theorem rollback_restores_iff [Inhabited C] {settings : Settings} {start host : Host C}
    (h : Interrupted settings start host) :
    RestoresFound start.fs host ↔ SourceRestorable start.fs host := by
  constructor
  · intro hrestores
    obtain ⟨trace, host', hrun, hpath, hsucceeds, hrecovered⟩ := h.simulates
    have hrestored := hrestores trace host' hrun hpath hsucceeds
    exact (hrecovered.faultless hsucceeds).2.mp hrestored.2
  · intro hrestorable trace host' hrun hpath hsucceeds
    have hfaultless := (h.recovered hrun hpath).faultless hsucceeds
    exact ⟨hfaultless.1, hfaultless.2.mpr hrestorable⟩

/-- A stop between the two moves of the promotion. -/
def halfPromoted : Host Nat :=
  (walk smooth.respond 126 (deploy upgradeSettings).run installedHost).2.2

theorem halfPromoted_interrupted : Interrupted upgradeSettings installedHost halfPromoted :=
  interrupted_walk smooth upgradeSettings 126 installedHost_prepared (by decide +kernel)

theorem rollback_restores_iff_upgrade :
    RestoresFound installedHost.fs halfPromoted ↔ SourceRestorable installedHost.fs halfPromoted :=
  rollback_restores_iff halfPromoted_interrupted

/-- The same files, with a tree of an older run at the backup path. -/
def staleHost : Host Nat :=
  ⟨Function.update installedFiles .sourceBackup (some (.directory 7)), preparedVariables⟩

/-- `promote_source` refuses the tree and dies, and the rollback takes it for its own. -/
theorem stale_backup_replaces_source :
    ∃ host, Interrupted upgradeSettings staleHost host ∧ ¬ RestoresFound staleHost.fs host := by
  have hprepared : Prepared staleHost := ⟨rfl, rfl, rfl, .inr rfl, by decide⟩
  have hinterrupted := interrupted_walk smooth upgradeSettings 400 hprepared (by decide +kernel)
  refine ⟨_, hinterrupted, ?_⟩
  intro hrestores
  have hrestored := hrestores _ _ (simulate_runs_unit smooth.respond cleanup _)
    (simulate_path smooth.respond_advances cleanup _) (by decide +kernel)
  have hdir := hrestored.2
  revert hdir
  decide +kernel

/-- Whatever fails, a file that was there is in its place or in a workspace that is left,
and a source that was there is in its place or in the backup. -/
theorem rollback_loses_nothing {settings : Settings} {start host host' : Host C}
    {trace : List (Event Ans)} (h : Interrupted settings start host)
    (hbackup : start.fs .sourceBackup = none) (hfailed : start.fs .failedSource = none)
    (hrun : Runs cleanup trace ()) (hpath : Path (shell C) host trace host') :
    (∀ key, (start.fs (.managed key)).isSome = true →
      host'.fs (.managed key) = start.fs (.managed key) ∨
        host'.fs (.snapshot key) = start.fs (.managed key)) ∧
    ((start.fs .sourceDir).isSome = true →
      host'.fs .sourceDir = start.fs .sourceDir ∨
        host'.fs .sourceBackup = start.fs .sourceDir) := by
  have hrecovered := h.recovered hrun hpath
  constructor
  · exact hrecovered.managed
  · exact hrecovered.kept hbackup hfailed

/-- The backup of the source and the copy of the configuration cannot be put back. -/
def stuck : Circumstances :=
  ⟨fun _ => true, fun command => command == .mv .sourceBackup .sourceDir false ||
    command == .cp (.snapshot .config) (.restore .config)⟩

theorem rollback_loses_nothing_stuck :
    (∀ key, (installedHost.fs (.managed key)).isSome = true →
      (simulate stuck.respond cleanup halfPromoted).2.2.fs (.managed key) =
          installedHost.fs (.managed key) ∨
        (simulate stuck.respond cleanup halfPromoted).2.2.fs (.snapshot key) =
          installedHost.fs (.managed key)) ∧
    ((installedHost.fs .sourceDir).isSome = true →
      (simulate stuck.respond cleanup halfPromoted).2.2.fs .sourceDir =
          installedHost.fs .sourceDir ∨
        (simulate stuck.respond cleanup halfPromoted).2.2.fs .sourceBackup =
          installedHost.fs .sourceDir) :=
  rollback_loses_nothing halfPromoted_interrupted rfl rfl
    (simulate_runs_unit stuck.respond cleanup halfPromoted)
    (simulate_path stuck.respond_advances cleanup halfPromoted)

example : (simulate stuck.respond cleanup halfPromoted).2.2.fs .sourceBackup =
    some (.directory 1) := by decide +kernel

/-- When the service is restarted, everything is as it was found exactly if every path
that was absent and has come up is removed, and a source that is new is recorded. -/
theorem restart_on_restored_iff {settings : Settings} {start host host' : Host C}
    {trace : List (Event Ans)} {next : Bool → Sh Unit} (h : Interrupted settings start host)
    (hbackup : start.fs .sourceBackup = none) (hfailed : start.fs .failedSource = none)
    (hreach : Reaches cleanup trace (.ask (.run (.systemctl .restart)) next))
    (hpath : Path (shell C) host trace host') :
    Restored start.fs host'.fs ↔
      AbsentRemoved start.fs host trace ∧ NewSourceNamed start.fs host := by
  have hpermits := permits_of_reaches h.watched_cleanup hreach (watching_path hpath)
  have hatRestart : AtRestart start.fs host (host', trace) := hpermits.2 rfl
  exact hatRestart hbackup hfailed

theorem restart_on_restored_iff_upgrade :
    Restored installedHost.fs (walk smooth.respond 57 cleanup halfPromoted).2.2.fs ↔
      AbsentRemoved installedHost.fs halfPromoted (walk smooth.respond 57 cleanup halfPromoted).1 ∧
        NewSourceNamed installedHost.fs halfPromoted := by
  obtain ⟨next, hreach⟩ : ∃ next, Reaches cleanup (walk smooth.respond 57 cleanup halfPromoted).1
      (.ask (.run (.systemctl .restart)) next) := walk_reaches_ask _ (by decide +kernel)
  exact restart_on_restored_iff halfPromoted_interrupted rfl rfl hreach
    (walk_path smooth.respond_advances 57 cleanup halfPromoted)

/-- An installation without an override, to be reconfigured with a configuration at
another path. -/
def defaultHost : Host Nat :=
  ⟨Function.update installedFiles (.managed .override) none,
    { preparedVariables with
      sourceStageRoot := false, stagedSource := none, stagedBinary := false }⟩

def elsewhereSettings : Settings := ⟨.reconfigure, true, false, false⟩

/-- The new unit is refused, and the new override cannot be removed. -/
def unitRefused : Circumstances :=
  ⟨fun question => question != .holds "systemd-analyze verifies the unit",
    fun command => command == .rm (.managed .override)⟩

/-- A removal that fails is not noticed, and the service is restarted under the override
of the installation that has failed. -/
theorem restart_with_leftover_override :
    ∃ host host' trace next, Interrupted elsewhereSettings defaultHost host ∧
      defaultHost.fs .sourceBackup = none ∧ defaultHost.fs .failedSource = none ∧
      Reaches cleanup trace (.ask (.run (.systemctl .restart)) next) ∧
      Path (shell Nat) host trace host' ∧ ¬ Restored defaultHost.fs host'.fs := by
  have hprepared : Prepared defaultHost := ⟨rfl, rfl, rfl, .inl rfl, by decide⟩
  have hinterrupted :=
    interrupted_walk unitRefused elsewhereSettings 400 hprepared (by decide +kernel)
  obtain ⟨next, hreach⟩ : ∃ next, Reaches cleanup (walk unitRefused.respond 44 cleanup
      (walk unitRefused.respond 400 (deploy elsewhereSettings).run defaultHost).2.2).1
      (.ask (.run (.systemctl .restart)) next) := walk_reaches_ask _ (by decide +kernel)
  refine ⟨_, _, _, next, hinterrupted, rfl, rfl, hreach,
    walk_path unitRefused.respond_advances 44 cleanup _, ?_⟩
  intro hrestored
  have hoverride := hrestored.1 .override
  revert hoverride
  decide +kernel

end

end Cirrusync.Installer
