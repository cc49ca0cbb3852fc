import Cirrusync.Installer.Deploy

/-!
What a command leaves alone. The paths and the variables that a rollback goes by are
protected: what the installer does between the begin of a transaction and the promotion
of the source does not touch them.
-/

namespace Cirrusync.Installer

open Effect

/-- The paths that a command may change. -/
def Command.touches : Command → FilePath → Bool
  | .mkdir path, other | .rmdir path, other | .mktemp path, other | .cp _ path, other
  | .rm path, other | .chown _ path, other | .chmod _ path, other | .setfacl path, other
  | .write path, other => other == path
  | .mv source destination _, other => other == source || other == destination
  | .rmTree path, other | .mktempDirectory path, other => path.holds other
  | .helper .removeNewStateDirectory, other => other == .stateDir
  | _, _ => false

section

variable {C : Type}

/-- A command changes what it touches and nothing else. -/
theorem Command.leads_untouched {command : Command} {fs fs' : FileSystem C} {status : Bool}
    {path : FilePath} (h : command.Leads fs status fs')
    (huntouched : command.touches path = false) : fs' path = fs path := by
  cases command with
  | mkdir other | rmdir other | chown owner other | chmod mode other | setfacl other =>
      have hne : path ≠ other := by simpa [touches] using huntouched
      exact h path hne
  | mktemp other | write other =>
      have hne : path ≠ other := by simpa [touches] using huntouched
      cases status with
      | true =>
          obtain ⟨content, rfl⟩ := h
          exact Function.update_of_ne hne _ _
      | false =>
          first
          | exact h path hne
          | exact congrFun h path
  | mktempDirectory other =>
      cases status with
      | true => exact h.1 path huntouched
      | false => exact congrFun h path
  | cp source destination =>
      have hne : path ≠ destination := by simpa [touches] using huntouched
      cases status with
      | true =>
          obtain ⟨-, rfl⟩ := h
          exact Function.update_of_ne hne _ _
      | false => exact congrFun h path
  | mv source destination noTargetDirectory =>
      have hne : path ≠ source ∧ path ≠ destination := by simpa [touches] using huntouched
      cases status with
      | true =>
          obtain ⟨node, landed, -, -, rfl⟩ := h
          rw [Function.update_of_ne hne.2, Function.update_of_ne hne.1]
      | false => exact congrFun h path
  | rm other =>
      have hne : path ≠ other := by simpa [touches] using huntouched
      cases status with
      | true =>
          rw [h]
          exact Function.update_of_ne hne _ _
      | false => exact congrFun h path
  | rmTree other =>
      cases status with
      | true => exact h.1 path huntouched
      | false => exact h path huntouched
  | systemctl verb | userdel | groupdel => exact congrFun h path
  | helper function =>
      by_cases hstate : function = .removeNewStateDirectory
      · subst hstate
        have hne : path ≠ .stateDir := by simpa [touches] using huntouched
        exact h path hne
      · cases function <;> first | exact congrFun h path | exact absurd rfl hstate

end

/-- The paths that a rollback goes by. -/
def FilePath.isProtected : FilePath → Bool
  | .sourceDir | .sourceBackup | .failedSource | .snapshot _ | .present _ => true
  | _ => false

/-- The variables that a rollback goes by. -/
def Assignment.isProtected : Assignment → Bool
  | .transactionActive _ | .rollbackDir _ | .sourceBackup _ | .sourceHadExisting _
  | .stagedSource _ => true
  | _ => false

/-- An operation that leaves the protected paths and variables alone. -/
def Op.Spares : Op → Prop
  | .assign assignment => assignment.isProtected = false
  | .run command => ∀ path : FilePath, path.isProtected = true → command.touches path = false
  | _ => True

section

variable {C : Type}

/-- Two hosts with the same protected paths and variables. -/
structure Agrees (host host' : Host C) : Prop where
  paths : ∀ path : FilePath, path.isProtected = true → host'.fs path = host.fs path
  transactionActive : host'.vars.transactionActive = host.vars.transactionActive
  rollbackDir : host'.vars.rollbackDir = host.vars.rollbackDir
  sourceBackup : host'.vars.sourceBackup = host.vars.sourceBackup
  sourceHadExisting : host'.vars.sourceHadExisting = host.vars.sourceHadExisting
  stagedSource : host'.vars.stagedSource = host.vars.stagedSource

theorem agrees_refl (host : Host C) : Agrees host host :=
  ⟨fun _ _ => rfl, rfl, rfl, rfl, rfl, rfl⟩

theorem agrees_of_vars {host host' : Host C} (hvars : host'.vars = host.vars)
    (hpaths : ∀ path : FilePath, path.isProtected = true → host'.fs path = host.fs path) :
    Agrees host host' := by
  constructor
  · exact hpaths
  all_goals rw [hvars]

theorem Op.Spares.agrees {op : Op} (h : op.Spares) {host host' : Host C} {answer : Ans op}
    (hadvances : host.Advances op answer host') : Agrees host host' := by
  cases op with
  | get | test condition path =>
      rw [hadvances.2]
      exact agrees_refl host
  | stat path | ask question | readServiceEnablement =>
      have hsame : host' = host := hadvances
      rw [hsame]
      exact agrees_refl host
  | assign assignment =>
      have hassign : host' = { host with vars := host.vars.assign assignment } := hadvances
      rw [hassign]
      have hfree : assignment.isProtected = false := h
      cases assignment <;>
        first | exact ⟨fun _ _ => rfl, rfl, rfl, rfl, rfl, rfl⟩ | cases hfree
  | run command =>
      exact agrees_of_vars hadvances.1 fun path hpath =>
        Command.leads_untouched hadvances.2 (h path hpath)

end

theorem ne_unprotected {path other : FilePath} (hother : other.isProtected = false)
    (hpath : path.isProtected = true) : (path == other) = false := by
  apply beq_eq_false_iff_ne.mpr
  rintro rfl
  rw [hpath] at hother
  cases hother

theorem ne_unprotected_both {path source destination : FilePath}
    (hsource : source.isProtected = false) (hdestination : destination.isProtected = false)
    (hpath : path.isProtected = true) : (path == source || path == destination) = false := by
  rw [ne_unprotected hsource hpath, ne_unprotected hdestination hpath]
  rfl

/-! The functions that spare what is protected. -/

theorem spares_must {command : Command}
    (h : ∀ path : FilePath, path.isProtected = true → command.touches path = false) :
    Uses Op.Spares (must command).run := by
  unfold must
  apply uses_script_bind
  · exact uses_script_step ⟨h, fun _ => trivial⟩
  · intro status
    cases status <;> trivial

theorem spares_run {command : Command}
    (h : ∀ path : FilePath, path.isProtected = true → command.touches path = false) :
    Uses Op.Spares (Script.step (run command)).run :=
  uses_script_step ⟨h, fun _ => trivial⟩

/-- A command on one path that is not protected. -/
theorem spares_on {command : Command} {other : FilePath} (hother : other.isProtected = false)
    (htouches : ∀ path, command.touches path = (path == other)) :
    Uses Op.Spares (must command).run := by
  apply spares_must
  intro path hpath
  rw [htouches]
  exact ne_unprotected hother hpath

theorem spares_mv {source destination : FilePath} {noTargetDirectory : Bool}
    (hsource : source.isProtected = false) (hdestination : destination.isProtected = false) :
    Uses Op.Spares (must (.mv source destination noTargetDirectory)).run :=
  spares_must fun _ => ne_unprotected_both hsource hdestination

/-- A command that touches no path. -/
theorem spares_elsewhere {command : Command} (htouches : ∀ path, command.touches path = false) :
    Uses Op.Spares (must command).run :=
  spares_must fun path _ => htouches path

theorem spares_set {assignment : Assignment} (h : assignment.isProtected = false) :
    Uses Op.Spares (set assignment).run :=
  uses_script_step ⟨h, fun _ => trivial⟩

theorem spares_get : Uses Op.Spares (Script.step get).run :=
  uses_script_step ⟨trivial, fun _ => trivial⟩

theorem spares_ask (question : Question) : Uses Op.Spares (Script.step (ask question)).run :=
  uses_script_step ⟨trivial, fun _ => trivial⟩

theorem spares_test (condition : Test) (path : FilePath) :
    Uses Op.Spares (Script.step (test condition path)).run :=
  uses_script_step ⟨trivial, fun _ => trivial⟩

theorem spares_stat (path : FilePath) :
    Uses Op.Spares (Script.step (stat path)).run :=
  uses_script_step ⟨trivial, fun _ => trivial⟩

theorem spares_enablement :
    Uses Op.Spares (Script.step readServiceEnablement).run :=
  uses_script_step ⟨trivial, fun _ => trivial⟩

theorem spares_pure {α : Type} (value : α) : Uses Op.Spares (pure value : StrictSh α).run :=
  trivial

theorem spares_exit {α : Type} : Uses Op.Spares (Script.exit : StrictSh α).run := trivial

theorem spares_isOccupied (path : FilePath) :
    Uses Op.Spares (Script.step (isOccupied path)).run := by
  apply uses_script_step
  refine ⟨trivial, fun found => ?_⟩
  cases found with
  | true => trivial
  | false => exact ⟨trivial, fun _ => trivial⟩

theorem spares_check (condition : String) : Uses Op.Spares (check condition).run := by
  unfold check
  apply uses_script_bind (spares_ask _)
  intro holds
  cases holds <;> trivial

theorem spares_onlyIf {condition : Bool} {body : StrictSh Unit}
    (h : Uses Op.Spares body.run) : Uses Op.Spares (onlyIf condition body).run := by
  cases condition with
  | true => exact h
  | false => trivial

theorem spares_recordDirectory (path : FilePath) {hadExisting : Bool → Assignment}
    {metadata : Metadata → Assignment}
    (hexisting : ∀ value, (hadExisting value).isProtected = false)
    (hmetadata : ∀ value, (metadata value).isProtected = false) :
    Uses Op.Spares (recordDirectory path hadExisting metadata).run := by
  unfold recordDirectory
  apply uses_script_bind (spares_test _ _)
  intro there
  apply spares_onlyIf
  apply uses_script_bind (spares_set (hexisting true))
  intro _
  apply uses_script_bind (spares_stat path)
  intro found
  exact spares_set (hmetadata found)

theorem spares_recordServiceState : Uses Op.Spares recordServiceState.run := by
  unfold recordServiceState
  apply uses_script_bind (spares_set rfl)
  intro _
  apply uses_script_bind (spares_set rfl)
  intro _
  apply uses_script_bind (spares_ask _)
  intro running
  apply spares_onlyIf
  apply uses_script_bind (spares_check _)
  intro _
  apply uses_script_bind (spares_ask _)
  intro active
  apply uses_script_bind spares_enablement
  intro enablement
  cases enablement with
  | none => exact spares_exit
  | some state =>
      apply uses_script_bind (spares_onlyIf (spares_set rfl))
      intro _
      exact spares_set rfl

theorem spares_stopService : Uses Op.Spares stopService.run := by
  unfold stopService
  apply uses_script_bind spares_get
  intro vars
  apply uses_script_bind
  · apply spares_onlyIf
    apply uses_script_bind (spares_run fun _ _ => rfl)
    intro _
    exact spares_elsewhere fun _ => rfl
  · intro _
    apply uses_script_bind (spares_ask _)
    intro known
    exact spares_onlyIf (spares_check _)

theorem spares_requireRegular (path : FilePath) :
    Uses Op.Spares (requireRegular path).run := by
  unfold requireRegular
  apply uses_script_bind (spares_test _ _)
  intro regular
  apply uses_script_bind (spares_test _ _)
  intro linked
  exact spares_onlyIf spares_exit

theorem spares_requireNoLink (path : FilePath) : Uses Op.Spares (requireNoLink path).run := by
  unfold requireNoLink
  apply uses_script_bind (spares_test _ _)
  intro linked
  exact spares_onlyIf spares_exit

theorem spares_createServiceAccount : Uses Op.Spares createServiceAccount.run := by
  unfold createServiceAccount
  apply uses_script_bind (spares_elsewhere fun _ => rfl)
  intro _
  apply uses_script_bind (spares_set rfl)
  intro _
  apply uses_script_bind (spares_requireNoLink _)
  intro _
  apply uses_script_bind (spares_requireNoLink _)
  intro _
  apply uses_script_bind (spares_check _)
  intro _
  apply uses_script_bind (spares_test _ _)
  intro there
  apply uses_script_bind (spares_onlyIf (spares_check _))
  intro _
  apply uses_script_bind (spares_on rfl fun _ => rfl)
  intro _
  exact spares_on rfl fun _ => rfl

theorem spares_secureExistingFile (key : Managed) :
    Uses Op.Spares (secureExistingFile key).run := by
  unfold secureExistingFile
  apply uses_script_bind (spares_isOccupied _)
  intro occupied
  apply spares_onlyIf
  apply uses_script_bind (spares_requireRegular _)
  intro _
  apply uses_script_bind (spares_check _)
  intro _
  apply uses_script_bind (spares_on rfl fun _ => rfl)
  intro _
  apply uses_script_bind (spares_on rfl fun _ => rfl)
  intro _
  exact spares_on rfl fun _ => rfl

theorem spares_secureExistingConfigurationFiles :
    Uses Op.Spares secureExistingConfigurationFiles.run := by
  unfold secureExistingConfigurationFiles
  apply uses_script_bind (spares_check _)
  intro _
  apply uses_script_bind (spares_secureExistingFile _)
  intro _
  exact spares_secureExistingFile _

theorem spares_replacesToken (settings : Settings) :
    Uses Op.Spares (replacesToken settings).run := by
  unfold replacesToken
  apply uses_script_bind (spares_requireRegular _)
  intro _
  apply uses_script_bind (spares_on rfl fun _ => rfl)
  intro _
  apply uses_script_bind (spares_on rfl fun _ => rfl)
  intro _
  split
  · apply uses_script_bind (spares_ask _)
    intro given
    exact spares_pure _
  · exact spares_ask _

theorem spares_fillToken (settings : Settings) : Uses Op.Spares (fillToken settings).run := by
  unfold fillToken
  apply uses_script_bind (spares_ask _)
  intro source
  split
  · apply uses_script_bind (spares_check _)
    intro _
    apply uses_script_bind (spares_on rfl fun _ => rfl)
    intro _
    exact spares_check _
  · apply uses_script_bind (spares_ask _)
    intro given
    split
    · apply uses_script_bind (spares_check _)
      intro _
      exact spares_on rfl fun _ => rfl
    · split
      · apply uses_script_bind (spares_on rfl fun _ => rfl)
        intro _
        exact spares_exit
      · apply uses_script_bind (spares_check _)
        intro _
        exact spares_on rfl fun _ => rfl

theorem spares_wantsToken (settings : Settings) (occupied : Bool) :
    Uses Op.Spares (wantsToken settings occupied).run := by
  unfold wantsToken
  split
  · exact spares_replacesToken settings
  · exact spares_pure _

theorem spares_writeToken (settings : Settings) : Uses Op.Spares (writeToken settings).run := by
  unfold writeToken
  apply uses_script_bind (spares_isOccupied _)
  intro occupied
  apply uses_script_bind (spares_wantsToken settings occupied)
  intro wanted
  apply spares_onlyIf
  apply uses_script_bind (spares_on rfl fun _ => rfl)
  intro _
  apply uses_script_bind (spares_set rfl)
  intro _
  apply uses_script_bind (spares_on rfl fun _ => rfl)
  intro _
  apply uses_script_bind (spares_fillToken settings)
  intro _
  apply uses_script_bind (spares_on rfl fun _ => rfl)
  intro _
  apply uses_script_bind (spares_on rfl fun _ => rfl)
  intro _
  apply uses_script_bind (spares_mv rfl rfl)
  intro _
  exact spares_set rfl

theorem spares_replacesConfiguration (settings : Settings) :
    Uses Op.Spares (replacesConfiguration settings).run := by
  unfold replacesConfiguration
  apply uses_script_bind (spares_requireRegular _)
  intro _
  split
  · apply uses_script_bind (spares_onlyIf (spares_check _))
    intro _
    exact spares_pure _
  · apply uses_script_bind (spares_ask _)
    intro given
    split
    · exact spares_pure _
    · apply uses_script_bind (spares_on rfl fun _ => rfl)
      intro _
      apply uses_script_bind (spares_on rfl fun _ => rfl)
      intro _
      apply uses_script_bind (spares_test _ _)
      intro token
      apply uses_script_bind (spares_ask _)
      intro tokenGiven
      apply uses_script_bind (spares_onlyIf (spares_writeToken settings))
      intro _
      exact spares_pure _

theorem spares_wantsConfiguration (settings : Settings) (occupied : Bool) :
    Uses Op.Spares (wantsConfiguration settings occupied).run := by
  unfold wantsConfiguration
  split
  · exact spares_replacesConfiguration settings
  · exact spares_pure _

theorem spares_writeConfiguration (settings : Settings) :
    Uses Op.Spares (writeConfiguration settings).run := by
  unfold writeConfiguration
  apply uses_script_bind (spares_isOccupied _)
  intro occupied
  apply uses_script_bind (spares_wantsConfiguration settings occupied)
  intro wanted
  apply spares_onlyIf
  apply uses_script_bind (spares_check _)
  intro _
  apply uses_script_bind (spares_writeToken settings)
  intro _
  apply uses_script_bind (spares_on rfl fun _ => rfl)
  intro _
  apply uses_script_bind (spares_set rfl)
  intro _
  apply uses_script_bind (spares_on rfl fun _ => rfl)
  intro _
  apply uses_script_bind (spares_on rfl fun _ => rfl)
  intro _
  apply uses_script_bind (spares_on rfl fun _ => rfl)
  intro _
  apply uses_script_bind (spares_on rfl fun _ => rfl)
  intro _
  apply uses_script_bind (spares_mv rfl rfl)
  intro _
  exact spares_set rfl

theorem spares_activateBinary : Uses Op.Spares activateBinary.run := by
  unfold activateBinary
  apply uses_script_bind spares_get
  intro vars
  apply uses_script_bind (spares_onlyIf spares_exit)
  intro _
  apply uses_script_bind (spares_check _)
  intro _
  apply uses_script_bind (spares_mv rfl rfl)
  intro _
  apply uses_script_bind (spares_set rfl)
  intro _
  apply uses_script_bind (spares_on rfl fun _ => rfl)
  intro _
  exact spares_on rfl fun _ => rfl

theorem spares_installOverride (settings : Settings) :
    Uses Op.Spares (installOverride settings).run := by
  unfold installOverride
  split
  · apply uses_script_bind (spares_on rfl fun _ => rfl)
    intro _
    apply uses_script_bind (spares_run fun _ => ne_unprotected rfl)
    intro _
    exact spares_pure _
  · apply uses_script_bind (spares_on rfl fun _ => rfl)
    intro _
    apply uses_script_bind (spares_on rfl fun _ => rfl)
    intro _
    apply uses_script_bind (spares_set rfl)
    intro _
    apply uses_script_bind (spares_on rfl fun _ => rfl)
    intro _
    apply uses_script_bind (spares_on rfl fun _ => rfl)
    intro _
    apply uses_script_bind (spares_on rfl fun _ => rfl)
    intro _
    apply uses_script_bind (spares_mv rfl rfl)
    intro _
    exact spares_set rfl

theorem spares_installSystemdUnit (settings : Settings) :
    Uses Op.Spares (installSystemdUnit settings).run := by
  unfold installSystemdUnit
  apply uses_script_bind (spares_check _)
  intro _
  apply uses_script_bind (spares_on rfl fun _ => rfl)
  intro _
  apply uses_script_bind (spares_set rfl)
  intro _
  apply uses_script_bind (spares_on rfl fun _ => rfl)
  intro _
  apply uses_script_bind (spares_check _)
  intro _
  apply uses_script_bind (spares_mv rfl rfl)
  intro _
  apply uses_script_bind (spares_set rfl)
  intro _
  apply uses_script_bind (spares_installOverride settings)
  intro _
  exact spares_check _

theorem spares_validateConfiguration : Uses Op.Spares validateConfiguration.run := by
  unfold validateConfiguration
  apply uses_script_bind (spares_check _)
  intro _
  apply uses_script_bind (spares_ask _)
  intro valid
  apply uses_script_bind
  · apply spares_onlyIf
    apply uses_script_bind (spares_run fun _ _ => rfl)
    intro _
    exact spares_exit
  · intro _
    exact spares_elsewhere fun _ => rfl

theorem spares_startService : Uses Op.Spares startService.run := by
  unfold startService
  apply uses_script_bind (spares_check _)
  intro _
  apply uses_script_bind (spares_elsewhere fun _ => rfl)
  intro _
  apply uses_script_bind (spares_run fun _ _ => rfl)
  intro _
  apply uses_script_bind (spares_elsewhere fun _ => rfl)
  intro _
  apply uses_script_bind (spares_elsewhere fun _ => rfl)
  intro _
  apply uses_script_bind (spares_elsewhere fun _ => rfl)
  intro _
  apply uses_script_bind (spares_run fun _ _ => rfl)
  intro healthy
  apply spares_onlyIf
  apply uses_script_bind (spares_run fun _ _ => rfl)
  intro _
  exact spares_exit

end Cirrusync.Installer
