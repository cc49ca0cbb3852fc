import Cirrusync.Installer.Transaction

/-!
What the installer does between the begin and the commit of a transaction. Conditions
on inputs, accounts and the contents of files are questions; every write to a managed
path is a command.
-/

namespace Cirrusync.Installer

open Effect

/-- The actions that run a transaction. -/
inductive InstallAction where
  | install
  | update
  | reconfigure
  | unit
  deriving DecidableEq, Repr

structure Settings where
  action : InstallAction
  nonInteractive : Bool
  incompleteInstall : Bool
  /-- `CONFIG_PATH` is `DEFAULT_CONFIG_PATH`. -/
  defaultConfigPath : Bool
  deriving DecidableEq, Repr

def serviceOwner : String := "root:cirrusync"

/-- `[[ -f path && ! -L path ]] || die` -/
def requireRegular (path : FilePath) : StrictSh Unit := do
  let regular ← Script.step (test .regular path)
  let linked ← Script.step (test .link path)
  onlyIf (!regular || linked) Script.exit

def requireNoLink (path : FilePath) : StrictSh Unit := do
  let linked ← Script.step (test .link path)
  onlyIf linked Script.exit

def createServiceAccount : StrictSh Unit := do
  must (.helper .ensureServiceIdentity)
  set (.serviceAccountValidated true)
  requireNoLink .configDir
  requireNoLink .stateDir
  check "the directories above are safe"
  let there ← Script.step (test .directory .stateDir)
  onlyIf there (check "the state directory belongs to the service")
  must (.mkdir .configDir)
  must (.mkdir .stateDir)

def secureExistingFile (key : Managed) : StrictSh Unit := do
  let occupied ← Script.step (isOccupied (.managed key))
  onlyIf occupied do
    requireRegular (.managed key)
    check "the file has one link and setfacl is there"
    must (.setfacl (.managed key))
    must (.chown serviceOwner (.managed key))
    must (.chmod "0640" (.managed key))

def secureExistingConfigurationFiles : StrictSh Unit := do
  check "the configuration directory has no extended or default ACL"
  secureExistingFile .config
  secureExistingFile .token

/-- Whether an existing token is to be replaced. -/
def replacesToken (settings : Settings) : StrictSh Bool := do
  requireRegular (.managed .token)
  must (.chown serviceOwner (.managed .token))
  must (.chmod "0640" (.managed .token))
  if settings.nonInteractive then
    let given ← Script.step (ask (.holds "a token source or a token is given"))
    return given && (settings.action == .reconfigure || settings.incompleteInstall)
  else Script.step (ask (.holds "the existing token is to be replaced"))

def fillToken (settings : Settings) : StrictSh Unit := do
  if ← Script.step (ask (.holds "a token source is given")) then
    check "the token source is a private regular file"
    must (.write .tokenTemp)
    check "the copy has the size of a token"
  else
    if ← Script.step (ask (.holds "a token is given")) then
      check "the token is one line"
      must (.write .tokenTemp)
    else
      if settings.nonInteractive then
        must (.rm .tokenTemp)
        Script.exit
      else
        check "the token that is entered is one line"
        must (.write .tokenTemp)

def wantsToken (settings : Settings) (occupied : Bool) : StrictSh Bool :=
  if occupied then replacesToken settings else return true

def writeToken (settings : Settings) : StrictSh Unit := do
  let occupied ← Script.step (isOccupied (.managed .token))
  let wanted ← wantsToken settings occupied
  onlyIf wanted do
    must (.mktemp .tokenTemp)
    set (.tokenTemp true)
    must (.chmod "0600" .tokenTemp)
    fillToken settings
    must (.chown serviceOwner .tokenTemp)
    must (.chmod "0640" .tokenTemp)
    must (.mv .tokenTemp (.managed .token) false)
    set (.tokenTemp false)

/-- Whether an existing configuration is to be replaced. -/
def replacesConfiguration (settings : Settings) : StrictSh Bool := do
  requireRegular (.managed .config)
  if settings.action == .reconfigure then
    onlyIf (!settings.nonInteractive) (check "the existing configuration is to be replaced")
    return true
  else
    let given ← Script.step (ask (.holds "configuration inputs are given"))
    if settings.incompleteInstall && given then return true
    else
      must (.chown serviceOwner (.managed .config))
      must (.chmod "0640" (.managed .config))
      let token ← Script.step (test .regular (.managed .token))
      let tokenGiven ← Script.step (ask (.holds "a token source or a token is given"))
      onlyIf (settings.incompleteInstall && (!token || tokenGiven)) (writeToken settings)
      return false

def wantsConfiguration (settings : Settings) (occupied : Bool) : StrictSh Bool :=
  if occupied then replacesConfiguration settings else return true

def writeConfiguration (settings : Settings) : StrictSh Unit := do
  let occupied ← Script.step (isOccupied (.managed .config))
  let wanted ← wantsConfiguration settings occupied
  onlyIf wanted do
    check "the inputs are valid"
    writeToken settings
    must (.mktemp .configTemp)
    set (.configTemp true)
    must (.chmod "0600" .configTemp)
    must (.write .configTemp)
    must (.chown serviceOwner .configTemp)
    must (.chmod "0640" .configTemp)
    must (.mv .configTemp (.managed .config) false)
    set (.configTemp false)

def activateBinary : StrictSh Unit := do
  let vars ← Script.step get
  onlyIf (!vars.stagedBinary) Script.exit
  check "the staged binary is executable"
  must (.mv .stagedBinary (.managed .binary) false)
  set (.stagedBinary false)
  must (.chown "root:root" (.managed .binary))
  must (.chmod "0755" (.managed .binary))

/-- The override names a configuration that is not at the default path. -/
def installOverride (settings : Settings) : StrictSh Unit := do
  if settings.defaultConfigPath then
    must (.rm (.managed .override))
    let _ ← Script.step (run (.rmdir .unitOverrideDir))
  else
    must (.mkdir .unitOverrideDir)
    must (.mktemp .overrideTemp)
    set (.overrideTemp true)
    must (.write .overrideTemp)
    must (.chown "root:root" .overrideTemp)
    must (.chmod "0644" .overrideTemp)
    must (.mv .overrideTemp (.managed .override) false)
    set (.overrideTemp false)

def installSystemdUnit (settings : Settings) : StrictSh Unit := do
  check "the unit in the source tree is a safe file"
  must (.mktemp .unitTemp)
  set (.unitTemp true)
  must (.write .unitTemp)
  check "the unit has the trusted checksum"
  must (.mv .unitTemp (.managed .unit) false)
  set (.unitTemp false)
  installOverride settings
  check "systemd-analyze verifies the unit"

def validateConfiguration : StrictSh Unit := do
  check "the binary is a trusted executable and the configuration is readable"
  let valid ← Script.step (ask (.holds "the binary's own check of the configuration succeeds"))
  onlyIf (!valid) do
    let _ ← Script.step (run (.helper .terminateServiceProcesses))
    Script.exit
  must (.helper .terminateServiceProcesses)

def startService : StrictSh Unit := do
  check "systemd is running"
  must (.systemctl .daemonReload)
  let _ ← Script.step (run (.systemctl .resetFailed))
  must (.systemctl .showRestarts)
  must (.systemctl .enable)
  must (.systemctl .restart)
  let healthy ← Script.step (run (.helper .serviceRemainsHealthy))
  onlyIf (!healthy) do
    let _ ← Script.step (run (.systemctl .status))
    Script.exit

/-- The backup path is recorded before it is known to be free. -/
def promoteSource : StrictSh Unit := do
  let vars ← Script.step get
  onlyIf (vars.stagedSource != some .stagedSource) Script.exit
  let staged ← Script.step (test .directory .stagedSource)
  onlyIf (!staged) Script.exit
  set (.sourceHadExisting false)
  set (.sourceBackup true)
  let stale ← Script.step (isOccupied .sourceBackup)
  onlyIf stale Script.exit
  let existing ← Script.step (test .exists .sourceDir)
  onlyIf existing do
    set (.sourceHadExisting true)
    must (.mv .sourceDir .sourceBackup false)
  must (.mv .stagedSource .sourceDir false)
  set (.stagedSource (some .sourceDir))

/-- `main` from the begin of the transaction to its end. -/
def deploy (settings : Settings) : StrictSh Unit :=
  match settings.action with
  | .install | .update => do
      beginTransaction
      createServiceAccount
      secureExistingConfigurationFiles
      writeConfiguration settings
      activateBinary
      installSystemdUnit settings
      validateConfiguration
      startService
      promoteSource
      commitTransaction
  | .reconfigure => do
      beginTransaction
      createServiceAccount
      secureExistingConfigurationFiles
      writeConfiguration settings
      installSystemdUnit settings
      validateConfiguration
      startService
      commitTransaction
  | .unit => do
      beginTransaction
      createServiceAccount
      secureExistingConfigurationFiles
      installSystemdUnit settings
      validateConfiguration
      startService
      commitTransaction

end Cirrusync.Installer
