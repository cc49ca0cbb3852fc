import Cirrusync.Effect.Script
import Mathlib.Logic.Function.Basic

/-!
The shell that `cirrusync-install.sh` runs in: the paths it manages, its variables,
its commands and what they do to the files. A command comes back with a status; what a
failed one leaves behind is left open as far as the commands themselves leave it open.
-/

namespace Cirrusync.Installer

open Effect

/-- The paths of which a transaction takes a snapshot, by their keys. -/
inductive Managed where
  | binary
  | unit
  | override
  | config
  | token
  deriving DecidableEq, Repr

/-- The paths of the script. Those with a random or a process id in their names are of
one run. -/
inductive FilePath where
  | managed (key : Managed)
  /-- `SOURCE_DIR`. -/
  | sourceDir
  /-- `${SOURCE_DIR}.rollback.${BASHPID}`. -/
  | sourceBackup
  /-- `${SOURCE_DIR}.failed.${BASHPID}`. -/
  | failedSource
  | sourceStageRoot
  /-- `${SOURCE_STAGE_ROOT}/source`. -/
  | stagedSource
  | rollbackDir
  /-- `${ROLLBACK_DIR}/${key}`. -/
  | snapshot (key : Managed)
  /-- `${ROLLBACK_DIR}/${key}.present`. -/
  | present (key : Managed)
  /-- `${path}.restore.XXXXXX`. -/
  | restore (key : Managed)
  | tokenTemp
  | configTemp
  | unitTemp
  | overrideTemp
  | stagedBinary
  | buildDir
  | gitSafeConfig
  | tempDir
  | binaryDir
  | unitDir
  | unitOverrideDir
  | configDir
  | stateDir
  deriving DecidableEq, Repr

/-- `dirname`. -/
def Managed.directory : Managed → FilePath
  | .binary => .binaryDir
  | .unit => .unitDir
  | .override => .unitOverrideDir
  | .config | .token => .configDir

/-- Whether removing one path with what is in it removes another. -/
def FilePath.holds : FilePath → FilePath → Bool
  | .rollbackDir, .snapshot _ | .rollbackDir, .present _ => true
  | .sourceStageRoot, .stagedSource => true
  | path, other => path == other

inductive Kind where
  | file
  | directory
  deriving DecidableEq, Repr

/-- What is at a path. Contents are all that `cp --archive` keeps: bytes or entries,
owner and mode. -/
inductive Node (C : Type) where
  | file (content : C)
  | directory (content : C)
  /-- A symbolic link and what its target is, if it exists. -/
  | link (target : String) (found : Option Kind)
  deriving DecidableEq, Repr

abbrev FileSystem (C : Type) := FilePath → Option (Node C)

/-- The conditions on paths. -/
inductive Test where
  /-- `-e` -/
  | exists
  /-- `-L` -/
  | link
  /-- `-d` -/
  | directory
  /-- `-f` -/
  | regular
  deriving DecidableEq, Repr

section

variable {C : Type}

def Node.passes : Test → Node C → Bool
  | .exists, .link _ found => found.isSome
  | .exists, _ => true
  | .link, .link _ _ => true
  | .link, _ => false
  | .directory, .directory _ => true
  | .directory, .link _ found => found == some .directory
  | .directory, .file _ => false
  | .regular, .file _ => true
  | .regular, .link _ found => found == some .file
  | .regular, .directory _ => false

def FileSystem.test (fs : FileSystem C) (test : Test) (path : FilePath) : Bool :=
  (fs path).any (Node.passes test)

/-- `[[ -e path || -L path ]]`: something is at the path. -/
theorem FileSystem.exists_or_link (fs : FileSystem C) (path : FilePath) :
    (fs.test .exists path || fs.test .link path) = (fs path).isSome := by
  unfold FileSystem.test
  cases fs path with
  | none => rfl
  | some node => cases node <;> simp [Node.passes]

/-- What is at the destination of an `mv` that has succeeded, by what was there: without
`--no-target-directory` a directory takes the node in. -/
inductive Lands (noTargetDirectory : Bool) : Option (Node C) → Node C → Node C → Prop where
  | free (node : Node C) : Lands noTargetDirectory none node node
  | over {old : Node C} (node : Node C) :
      noTargetDirectory = true ∨ old.passes .directory = false →
      Lands noTargetDirectory (some old) node node
  | into (content content' : C) (node : Node C) : noTargetDirectory = false →
      Lands noTargetDirectory (some (.directory content)) node (.directory content')
  | through (target : String) (node : Node C) : noTargetDirectory = false →
      Lands noTargetDirectory (some (.link target (some .directory))) node
        (.link target (some .directory))

/-- Another file system at one path at most. -/
def FileSystem.ChangesAt (fs : FileSystem C) (path : FilePath) (fs' : FileSystem C) : Prop :=
  ∀ other, other ≠ path → fs' other = fs other

/-- The same for a path with what is in it. -/
def FileSystem.ChangesIn (fs : FileSystem C) (path : FilePath) (fs' : FileSystem C) : Prop :=
  ∀ other, path.holds other = false → fs' other = fs other

end

/-- `%u:%g` and `%a` of `stat`. -/
structure Metadata where
  owner : String
  mode : String
  deriving DecidableEq, Repr

/-- The variables of the script. One that holds nothing but the path of its own name is
here whether it holds it. -/
structure Variables where
  transactionActive : Bool
  preserveRollback : Bool
  rollbackDir : Bool
  sourceBackup : Bool
  sourceHadExisting : Bool
  sourceStageRoot : Bool
  stagedSource : Option FilePath
  stagedBinary : Bool
  buildDir : Bool
  gitSafeConfig : Bool
  tempDir : Bool
  tokenTemp : Bool
  configTemp : Bool
  unitTemp : Bool
  overrideTemp : Bool
  buildAccountValidated : Bool
  serviceAccountValidated : Bool
  serviceUserHadExisting : Bool
  serviceGroupHadExisting : Bool
  configDirHadExisting : Bool
  configDirMetadata : Metadata
  stateDirHadExisting : Bool
  stateDirMetadata : Metadata
  unitOverrideDirHadExisting : Bool
  unitOverrideDirMetadata : Metadata
  serviceWasActive : Bool
  serviceEnablementBefore : String
  deriving DecidableEq, Repr

inductive Assignment where
  | transactionActive (value : Bool)
  | preserveRollback (value : Bool)
  | rollbackDir (value : Bool)
  | sourceBackup (value : Bool)
  | sourceHadExisting (value : Bool)
  | stagedSource (value : Option FilePath)
  | stagedBinary (value : Bool)
  | tokenTemp (value : Bool)
  | configTemp (value : Bool)
  | unitTemp (value : Bool)
  | overrideTemp (value : Bool)
  | serviceAccountValidated (value : Bool)
  | serviceUserHadExisting (value : Bool)
  | serviceGroupHadExisting (value : Bool)
  | configDirHadExisting (value : Bool)
  | configDirMetadata (value : Metadata)
  | stateDirHadExisting (value : Bool)
  | stateDirMetadata (value : Metadata)
  | unitOverrideDirHadExisting (value : Bool)
  | unitOverrideDirMetadata (value : Metadata)
  | serviceWasActive (value : Bool)
  | serviceEnablementBefore (value : String)
  deriving DecidableEq, Repr

def Variables.assign (vars : Variables) : Assignment → Variables
  | .transactionActive value => { vars with transactionActive := value }
  | .preserveRollback value => { vars with preserveRollback := value }
  | .rollbackDir value => { vars with rollbackDir := value }
  | .sourceBackup value => { vars with sourceBackup := value }
  | .sourceHadExisting value => { vars with sourceHadExisting := value }
  | .stagedSource value => { vars with stagedSource := value }
  | .stagedBinary value => { vars with stagedBinary := value }
  | .tokenTemp value => { vars with tokenTemp := value }
  | .configTemp value => { vars with configTemp := value }
  | .unitTemp value => { vars with unitTemp := value }
  | .overrideTemp value => { vars with overrideTemp := value }
  | .serviceAccountValidated value => { vars with serviceAccountValidated := value }
  | .serviceUserHadExisting value => { vars with serviceUserHadExisting := value }
  | .serviceGroupHadExisting value => { vars with serviceGroupHadExisting := value }
  | .configDirHadExisting value => { vars with configDirHadExisting := value }
  | .configDirMetadata value => { vars with configDirMetadata := value }
  | .stateDirHadExisting value => { vars with stateDirHadExisting := value }
  | .stateDirMetadata value => { vars with stateDirMetadata := value }
  | .unitOverrideDirHadExisting value => { vars with unitOverrideDirHadExisting := value }
  | .unitOverrideDirMetadata value => { vars with unitOverrideDirMetadata := value }
  | .serviceWasActive value => { vars with serviceWasActive := value }
  | .serviceEnablementBefore value => { vars with serviceEnablementBefore := value }

inductive Systemctl where
  | stop
  | daemonReload
  | resetFailed
  /-- `systemctl show`, its answer read and checked. -/
  | showRestarts
  | enable
  | restart
  | status
  deriving DecidableEq, Repr

/-- Functions of the script that are a command to their callers. They look after
processes, accounts and the unit's enablement, not after the paths above; one removes
the empty state directory. -/
inductive Helper where
  | quiesceService
  | quiesceFailedService
  | waitForServiceQuiescence
  | terminateServiceProcesses
  | terminateBuildProcesses
  | ensureServiceIdentity
  | validateServiceIdentity
  | validateServiceGroup
  | restoreServiceEnablement (state : String)
  | serviceRemainsHealthy
  | removeNewStateDirectory
  deriving DecidableEq, Repr

inductive Command where
  | mkdir (path : FilePath)
  | rmdir (path : FilePath)
  | mktemp (path : FilePath)
  | mktempDirectory (path : FilePath)
  | cp (source destination : FilePath)
  | mv (source destination : FilePath) (noTargetDirectory : Bool)
  | rm (path : FilePath)
  /-- `rm -rf` -/
  | rmTree (path : FilePath)
  | chown (owner : String) (path : FilePath)
  | chmod (mode : String) (path : FilePath)
  | setfacl (path : FilePath)
  /-- A redirection, `dd` or `install` into a file. -/
  | write (path : FilePath)
  | systemctl (verb : Systemctl)
  | userdel
  | groupdel
  | helper (helper : Helper)
  deriving DecidableEq, Repr

/-- What the script finds out from elsewhere. -/
inductive Question where
  | systemdIsRunning
  | serviceUserExists
  | serviceGroupExists
  | serviceIsActive
  /-- Any other condition or prompt, in words. -/
  | holds (condition : String)
  deriving DecidableEq, Repr

inductive Op where
  | get
  | assign (assignment : Assignment)
  | test (test : Test) (path : FilePath)
  | stat (path : FilePath)
  | readServiceEnablement
  | ask (question : Question)
  | run (command : Command)
  deriving DecidableEq, Repr

@[reducible] def Ans : Op → Type
  | .get => Variables
  | .assign _ => Unit
  | .test _ _ | .ask _ | .run _ => Bool
  | .stat _ => Metadata
  | .readServiceEnablement => Option String

/-- Code that goes on whatever its commands come back with, as under `set +e`. -/
abbrev Sh (α : Type) : Type := Program Ans α

/-- Code under `set -e`, which exits at the first failure. -/
abbrev StrictSh (α : Type) : Type := Script Ans α

def get : Sh Variables := Program.perform Op.get

def assign (assignment : Assignment) : Sh Unit := Program.perform (Op.assign assignment)

def test (condition : Test) (path : FilePath) : Sh Bool :=
  Program.perform (Op.test condition path)

def stat (path : FilePath) : Sh Metadata := Program.perform (Op.stat path)

def readServiceEnablement : Sh (Option String) := Program.perform Op.readServiceEnablement

def ask (question : Question) : Sh Bool := Program.perform (Op.ask question)

def run (command : Command) : Sh Bool := Program.perform (Op.run command)

/-- A command under `set -e`. -/
def must (command : Command) : StrictSh Unit := do
  if ← Script.step (run command) then return () else Script.exit

def set (assignment : Assignment) : StrictSh Unit := Script.step (assign assignment)

/-- `[[ condition ]] || die`, and the like. -/
def check (condition : String) : StrictSh Unit := do
  if ← Script.step (ask (.holds condition)) then return () else Script.exit

def onlyIf (condition : Bool) (body : StrictSh Unit) : StrictSh Unit :=
  if condition then body else return ()

/-- `[[ -e path || -L path ]]` -/
def isOccupied (path : FilePath) : Sh Bool := do
  if ← test .exists path then return true
  test .link path

/-- A host: its files and the variables of the shell. -/
structure Host (C : Type) where
  fs : FileSystem C
  vars : Variables

section

variable {C : Type}

/-- What a command does to the files, by its status. -/
def Command.Leads (fs : FileSystem C) : Command → Bool → FileSystem C → Prop
  | .mkdir path, _, fs' | .rmdir path, _, fs' | .chown _ path, _, fs'
  | .chmod _ path, _, fs' | .setfacl path, _, fs' | .write path, false, fs' =>
      fs.ChangesAt path fs'
  | .write path, true, fs' | .mktemp path, true, fs' =>
      ∃ content, fs' = Function.update fs path (some (.file content))
  | .mktempDirectory path, true, fs' =>
      fs.ChangesIn path fs' ∧ (∃ content, fs' path = some (.directory content)) ∧
        ∀ other, path.holds other = true → other ≠ path → fs' other = none
  | .cp source destination, true, fs' =>
      (fs source).isSome = true ∧ fs' = Function.update fs destination (fs source)
  | .mv source destination noTargetDirectory, true, fs' =>
      ∃ node landed, fs source = some node ∧
        Lands noTargetDirectory (fs destination) node landed ∧
        fs' = Function.update (Function.update fs source none) destination (some landed)
  | .rm path, true, fs' => fs' = Function.update fs path none
  | .rmTree path, true, fs' =>
      fs.ChangesIn path fs' ∧ ∀ other, path.holds other = true → fs' other = none
  | .rmTree path, false, fs' => fs.ChangesIn path fs'
  | .helper .removeNewStateDirectory, _, fs' => fs.ChangesAt .stateDir fs'
  | _, _, fs' => fs' = fs

/-- How an answered operation changes the host. -/
def Host.Advances (host : Host C) : (op : Op) → Ans op → Host C → Prop
  | .get, answer, host' => answer = host.vars ∧ host' = host
  | .assign assignment, _, host' => host' = { host with vars := host.vars.assign assignment }
  | .test condition path, answer, host' => answer = host.fs.test condition path ∧ host' = host
  | .stat _, _, host' | .ask _, _, host' | .readServiceEnablement, _, host' => host' = host
  | .run command, status, host' =>
      host'.vars = host.vars ∧ command.Leads host.fs status host'.fs

/-- A host on which nobody else touches these paths. -/
def shell (C : Type) : Contract Ans (Host C) := .solo (fun _ _ => True) Host.Advances

end

end Cirrusync.Installer
