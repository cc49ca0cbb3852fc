import Cirrusync.Installer.Shell

/-!
The transaction of the installer: the snapshot it begins with, what undoes it and what
ends it. `cleanup` is what the shell runs when it exits, for whatever reason.
-/

namespace Cirrusync.Installer

open Effect

def snapshotPath (key : Managed) : StrictSh Unit := do
  let occupied ← Script.step (isOccupied (.managed key))
  onlyIf occupied do
    must (.cp (.managed key) (.snapshot key))
    must (.write (.present key))

/-- Whether a directory is there, and its owner and mode if it is. -/
def recordDirectory (path : FilePath) (hadExisting : Bool → Assignment)
    (metadata : Metadata → Assignment) : StrictSh Unit := do
  let there ← Script.step (test .directory path)
  onlyIf there do
    set (hadExisting true)
    let found ← Script.step (stat path)
    set (metadata found)

def recordServiceState : StrictSh Unit := do
  set (.serviceWasActive false)
  set (.serviceEnablementBefore "disabled")
  let running ← Script.step (ask .systemdIsRunning)
  onlyIf running do
    check "the prior activity state of the service is known"
    let active ← Script.step (ask .serviceIsActive)
    match ← Script.step readServiceEnablement with
    | none => Script.exit
    | some enablement => do
        onlyIf active (set (.serviceWasActive true))
        set (.serviceEnablementBefore enablement)

/-- The end of `begin_transaction`, from where the transaction is active. -/
def stopService : StrictSh Unit := do
  let vars ← Script.step get
  onlyIf vars.serviceWasActive do
    let _ ← Script.step (run (.systemctl .stop))
    must (.helper .waitForServiceQuiescence)
  let known ← Script.step (ask .serviceUserExists)
  onlyIf known (check "no process owned by the service user is running")

def beginTransaction : StrictSh Unit := do
  let vars ← Script.step get
  onlyIf vars.transactionActive Script.exit
  check "the configuration directory has no extended or default ACL"
  set (.preserveRollback false)
  must (.mktempDirectory .rollbackDir)
  set (.rollbackDir true)
  must (.chmod "0700" .rollbackDir)
  snapshotPath .binary
  snapshotPath .unit
  snapshotPath .override
  snapshotPath .config
  snapshotPath .token
  set (.serviceUserHadExisting false)
  set (.serviceGroupHadExisting false)
  set (.configDirHadExisting false)
  set (.configDirMetadata ⟨"", ""⟩)
  set (.stateDirHadExisting false)
  set (.stateDirMetadata ⟨"", ""⟩)
  set (.unitOverrideDirHadExisting false)
  set (.unitOverrideDirMetadata ⟨"", ""⟩)
  let user ← Script.step (ask .serviceUserExists)
  onlyIf user (set (.serviceUserHadExisting true))
  let group ← Script.step (ask .serviceGroupExists)
  onlyIf group (set (.serviceGroupHadExisting true))
  recordDirectory .configDir .configDirHadExisting .configDirMetadata
  recordDirectory .stateDir .stateDirHadExisting .stateDirMetadata
  recordDirectory .unitOverrideDir .unitOverrideDirHadExisting .unitOverrideDirMetadata
  recordServiceState
  set (.transactionActive true)
  stopService

def commitTransaction : StrictSh Unit := do
  let vars ← Script.step get
  onlyIf (!vars.transactionActive) Script.exit
  set (.transactionActive false)
  onlyIf vars.sourceBackup do
    let there ← Script.step (test .exists .sourceBackup)
    onlyIf there do
      let removed ← Script.step (run (.rmTree .sourceBackup))
      onlyIf removed (set (.sourceBackup false))
  let removed ← Script.step (run (.rmTree .rollbackDir))
  if removed then set (.rollbackDir false) else set (.preserveRollback true)

/-- Whether a path has been put back. A path that was absent is removed, and this counts
as done whether `rm` succeeds or not. -/
def restoreSnapshot (key : Managed) : Sh Bool := do
  if ← test .exists (.present key) then
    if ← run (.mkdir key.directory) then
      if ← run (.mktemp (.restore key)) then
        if ← run (.rm (.restore key)) then
          if ← run (.cp (.snapshot key) (.restore key)) then
            if ← run (.mv (.restore key) (.managed key) true) then
              return true
            else
              let _ ← run (.rm (.restore key))
              return false
          else
            let _ ← run (.rm (.restore key))
            return false
        else return false
      else return false
    else return false
  else
    let _ ← run (.rm (.managed key))
    return true

def restoreSnapshots : List Managed → Sh Bool
  | [] => return true
  | key :: rest => do
      let restored ← restoreSnapshot key
      let others ← restoreSnapshots rest
      return restored && others

def restoreMetadata (path : FilePath) (metadata : Metadata) : Sh Bool := do
  let owned ← run (.chown metadata.owner path)
  let moded ← run (.chmod metadata.mode path)
  return owned && moded

def restoreUnitOverrideDir (vars : Variables) : Sh Bool := do
  if vars.unitOverrideDirHadExisting then
    let made ← run (.mkdir .unitOverrideDir)
    let restored ← restoreMetadata .unitOverrideDir vars.unitOverrideDirMetadata
    return made && restored
  else
    let _ ← run (.rmdir .unitOverrideDir)
    return true

/-- The backup of the source back to its place, where nothing is any more. -/
def putBackSource : Sh Bool := do
  if ← run (.mv .sourceBackup .sourceDir false) then
    assign (.sourceBackup false)
    if ← isOccupied .failedSource then run (.rmTree .failedSource)
    else return true
  else
    if ← isOccupied .failedSource then
      let _ ← run (.mv .failedSource .sourceDir false)
      return false
    else return false

def restoreBackup : Sh Bool := do
  if ← isOccupied .failedSource then return false
  else
    if ← isOccupied .sourceDir then
      if ← run (.mv .sourceDir .failedSource false) then putBackSource
      else return false
    else putBackSource

def removeNewSource (vars : Variables) : Sh Bool := do
  if vars.sourceHadExisting == false && vars.stagedSource == some .sourceDir then
    run (.rmTree .sourceDir)
  else return true

def restoreSource (vars : Variables) : Sh Bool := do
  if vars.sourceBackup then
    if ← test .exists .sourceBackup then restoreBackup
    else removeNewSource vars
  else removeNewSource vars

def restoreConfigDir (vars : Variables) : Sh Bool := do
  if vars.configDirHadExisting then restoreMetadata .configDir vars.configDirMetadata
  else
    if ← test .directory .configDir then run (.rmdir .configDir)
    else return true

/-- Whether the state directory is as before, and whether the service identity has to
stay. -/
def restoreStateDir (vars : Variables) : Sh (Bool × Bool) := do
  if vars.stateDirHadExisting then
    let restored ← restoreMetadata .stateDir vars.stateDirMetadata
    return (restored, !vars.serviceUserHadExisting)
  else
    if ← test .directory .stateDir then
      if ← run (.helper .removeNewStateDirectory) then return (true, false)
      else return (false, true)
    else return (true, false)

/-- An account that the installation has made goes again, once it is validated. -/
def removeIdentity (hadExisting retain : Bool) (known : Question) (validate : Helper)
    (remove : Command) : Sh Bool := do
  if hadExisting || retain then return true
  else
    if ← ask known then
      if ← run (.helper validate) then run remove
      else return false
    else return true

def restartPriorService : Sh Bool := do
  let _ ← run (.systemctl .resetFailed)
  if ← run (.systemctl .showRestarts) then
    if ← run (.systemctl .restart) then
      if ← run (.helper .serviceRemainsHealthy) then return true
      else
        let _ ← run (.helper .quiesceFailedService)
        return false
    else
      let _ ← run (.helper .quiesceFailedService)
      return false
  else return false

/-- The service is started again only where nothing has failed. -/
def restoreService (vars : Variables) (restored : Bool) : Sh Bool := do
  if ← ask .systemdIsRunning then
    let reloaded ← run (.systemctl .daemonReload)
    let enabled ← run (.helper (.restoreServiceEnablement vars.serviceEnablementBefore))
    if vars.serviceWasActive && (restored && reloaded && enabled) then restartPriorService
    else return restored && reloaded && enabled
  else return restored

def concludeRollback (restored : Bool) : Sh Unit := do
  if restored then
    if ← run (.rmTree .rollbackDir) then assign (.rollbackDir false)
    else assign (.preserveRollback true)
  else assign (.preserveRollback true)

/-- The order in which `rollback_transaction` puts the paths back. -/
def rollbackOrder : List Managed := [.token, .config, .binary, .unit, .override]

/-- What `rollback_transaction` does once the service is quiet. -/
def restoreEverything (vars : Variables) : Sh Unit := do
  let snapshots ← restoreSnapshots rollbackOrder
  let overrideDir ← restoreUnitOverrideDir vars
  let source ← restoreSource vars
  let configDir ← restoreConfigDir vars
  let (stateDir, retain) ← restoreStateDir vars
  let user ← removeIdentity vars.serviceUserHadExisting retain .serviceUserExists
    .validateServiceIdentity .userdel
  let group ← removeIdentity vars.serviceGroupHadExisting retain .serviceGroupExists
    .validateServiceGroup .groupdel
  let restored ← restoreService vars
    (snapshots && overrideDir && source && configDir && stateDir && user && group)
  concludeRollback restored

def quiesceRunningService : Sh Bool := do
  if ← ask .systemdIsRunning then run (.helper .quiesceService)
  else return true

def quiesceForRollback (vars : Variables) : Sh Bool := do
  if ← quiesceRunningService then
    if vars.serviceAccountValidated then run (.helper .terminateServiceProcesses)
    else return true
  else return false

def rollbackTransaction : Sh Unit := do
  let vars ← get
  if vars.transactionActive then
    assign (.transactionActive false)
    if ← quiesceForRollback vars then restoreEverything vars
    else assign (.preserveRollback true)
  else return ()

/-- Remove a path that a variable holds, where it is there. -/
def removeTemporary (held : Bool) (condition : Test) (path : FilePath) (remove : Command) :
    Sh Unit := do
  if held then
    if ← test condition path then
      let _ ← run remove
      return ()
    else return ()
  else return ()

/-- What the script leaves behind goes, the rollback workspace last. -/
def removeWorkspaces : Sh Unit := do
  let vars ← get
  removeTemporary vars.stagedBinary .exists .stagedBinary (.rm .stagedBinary)
  removeTemporary vars.buildDir .directory .buildDir (.rmTree .buildDir)
  removeTemporary vars.sourceStageRoot .directory .sourceStageRoot (.rmTree .sourceStageRoot)
  removeTemporary vars.gitSafeConfig .exists .gitSafeConfig (.rm .gitSafeConfig)
  removeTemporary vars.tempDir .directory .tempDir (.rmTree .tempDir)
  removeTemporary (!vars.preserveRollback && vars.rollbackDir) .directory .rollbackDir
    (.rmTree .rollbackDir)

def terminateBuilds (vars : Variables) : Sh Unit := do
  if vars.buildAccountValidated then
    let _ ← run (.helper .terminateBuildProcesses)
    return ()
  else return ()

def cleanup : Sh Unit := do
  let vars ← get
  removeTemporary vars.tokenTemp .exists .tokenTemp (.rm .tokenTemp)
  removeTemporary vars.configTemp .exists .configTemp (.rm .configTemp)
  removeTemporary vars.unitTemp .exists .unitTemp (.rm .unitTemp)
  removeTemporary vars.overrideTemp .exists .overrideTemp (.rm .overrideTemp)
  rollbackTransaction
  terminateBuilds vars
  removeWorkspaces

end Cirrusync.Installer
