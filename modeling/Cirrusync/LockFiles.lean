import Cirrusync.RuntimeLock
import Cirrusync.Files.Scope

/-!
The runtime locks on disk: how a process finds the directory for its lock files, what it
asks of that directory and of each file before it trusts them, and how it takes and gives
up the locks. This is the code for Linux, which the operations `prepareLockParent` and
`openRuntimeLock` of the updater stand for.
-/

namespace Cirrusync.LockFiles

open Effect Files RuntimeLockIdentity

abbrev FileM (α : Type) : Type := Raising Answer RuntimeLockError α

/-- A failed operation on a path is an error of opening it. -/
def opening {α : Type} (path : String) : Except IoError α → FileM α :=
  orRaise fun source => .open path source.text

def refuse {α : Type} (path reason : String) : FileM α := throw (.insecure path reason)

/-- `{:0width$x}` and the like. -/
def padded (base width n : Nat) : String :=
  .ofList (List.leftpad width '0' (Nat.toDigits base n))

/-- The mode that the code shows in its errors. -/
def permissions (data : Metadata) : Nat := data.mode &&& 0o777

def displayMode (data : Metadata) : String := padded 8 4 (permissions data)

structure PreparedLockParent where
  path : String
  expectedOwner : Nat

def validatePrivateLockContainer (probeRoot : String) : FileM Unit := do
  let root ← opening probeRoot (← call (.lstat probeRoot))
  if root.data.fileType == .symlink || root.data.fileType != .directory then
    refuse probeRoot "ownership-probe parent must be a real directory"
  if root.data.mode &&& 0o022 != 0 && root.data.mode &&& 0o1000 == 0 then
    refuse probeRoot
      "ownership-probe parent is writable by other users without the sticky bit"

def probeName (processId timestamp sequence attempt : Nat) : String :=
  s!".cirrusync-owner-{processId}-{padded 16 32 timestamp}-{padded 16 16 sequence}-" ++
    padded 16 2 attempt

/-- The attempts to make a probe, of which so many are left. -/
def probeOwner (probeRoot : String) (timestamp : Nat) : (attempt left : Nat) → FileM Nat
  | _, 0 => refuse probeRoot "could not create a collision-free ownership probe"
  | attempt, left + 1 => do
      let sequence ← call .counter
      let processId ← call .processId
      let probePath := joinPath probeRoot (probeName processId timestamp sequence attempt)
      match ← call (.openNew probePath 0o600) with
      | .ok file => do
          let ownerResult ← call (.fstat file)
          let cleanupResult ← call (.unlink probePath)
          call (.close file)
          let owner ← opening probePath ownerResult
          opening probePath cleanupResult
          return owner.data.uid
      | .error source =>
          if source.kind == .alreadyExists then
            probeOwner probeRoot timestamp (attempt + 1) left
          else throw (.open probePath source.text)

def currentFileOwner (probeRoot : String) : FileM Nat := do
  validatePrivateLockContainer probeRoot
  let timestamp ← call .clock
  probeOwner probeRoot timestamp 0 16

def createPrivateLockDirectory (parent : String) : FileM Unit := do
  match ← call (.mkdir parent 0o700) with
  | .ok () => return ()
  | .error source =>
      if source.kind == .alreadyExists then return ()
      else throw (.open parent source.text)

def lockDirectoryMetadata (path : String) : FileM Metadata := do
  let stat ← opening path (← call (.lstat path))
  if stat.data.fileType == .symlink || stat.data.fileType != .directory then
    refuse path "lock parent must be a real directory, not a symbolic link"
  return stat.data

def validateOwnerMatch (path : String) (parentOwner currentOwner : Nat) : FileM Unit := do
  if parentOwner != currentOwner then
    refuse path
      s!"lock directory owner {parentOwner} does not match process owner {currentOwner}"

def prepareTemporaryLockParent (root : String) : FileM PreparedLockParent := do
  validatePrivateLockContainer root
  let currentOwner ← currentFileOwner root
  let parent := joinPath root s!"cirrusync-runtime-{currentOwner}"
  createPrivateLockDirectory parent
  let metadata ← lockDirectoryMetadata parent
  if permissions metadata &&& 0o077 != 0 then
    refuse parent s!"private lock directory mode {displayMode metadata} is too permissive"
  validateOwnerMatch parent metadata.uid currentOwner
  return ⟨parent, currentOwner⟩

def validateInstalledLockParent (root : String) (metadata : Metadata) (currentOwner : Nat) :
    FileM PreparedLockParent := do
  if permissions metadata &&& 0o022 != 0 then
    refuse root
      s!"installed lock directory mode {displayMode metadata} permits group or other writes"
  validateOwnerMatch root metadata.uid currentOwner
  return ⟨root, metadata.uid⟩

def prepareInstalledLockParent (temporaryLockRoot root : String) :
    FileM PreparedLockParent := do
  let metadata ← lockDirectoryMetadata root
  let currentOwner ← currentFileOwner temporaryLockRoot
  validateInstalledLockParent root metadata currentOwner

def prepareLockParent (temporaryLockRoot root : String) (temporary : Bool) :
    FileM PreparedLockParent :=
  if temporary then prepareTemporaryLockParent root
  else prepareInstalledLockParent temporaryLockRoot root

/-- The checks of owner, links and mode, in the order of the existing target. -/
def validateExistingLockTarget (path : String) (expectedOwner : Nat) : FileM Unit := do
  match ← call (.lstat path) with
  | .error source =>
      if source.kind == .notFound then return ()
      else throw (.open path source.text)
  | .ok stat => do
      if stat.data.fileType == .symlink || stat.data.fileType != .regular then
        refuse path "existing lock target must be a regular, non-symbolic-link file"
      if stat.data.uid != expectedOwner then
        refuse path (s!"lock file owner {stat.data.uid} does not match lock directory " ++
          s!"owner {expectedOwner}")
      if stat.data.nlink != 1 then
        refuse path "hard-linked lock files are not accepted"
      if permissions stat.data &&& 0o077 != 0 then
        refuse path s!"lock file mode {displayMode stat.data} is too permissive"

/-- What an opened lock file has to be, and its path still has to name. -/
def validateOpenedLock (path : String) (expectedOwner file : Nat) : FileM Unit := do
  let opened ← opening path (← call (.fstat file))
  let named ← opening path (← call (.lstat path))
  if named.data.fileType == .symlink || opened.data.fileType != .regular then
    refuse path "lock target must be a regular file, not a symbolic link"
  if named.file != opened.file then
    refuse path "lock path changed while it was being opened"
  if opened.data.nlink != 1 then
    refuse path "hard-linked lock files are not accepted"
  if opened.data.uid != expectedOwner then
    refuse path (s!"lock file owner {opened.data.uid} does not match lock directory " ++
      s!"owner {expectedOwner}")
  if permissions opened.data &&& 0o077 != 0 then
    refuse path s!"lock file mode {displayMode opened.data} is too permissive"

def openRuntimeLock (path : String) (expectedOwner : Nat) : FileM Nat := do
  validateExistingLockTarget path expectedOwner
  let file ← opening path (← call (.openFile path 0o600))
  keepingOpen file (validateOpenedLock path expectedOwner file)

/-- `EWOULDBLOCK`, the number of `fs2::lock_contended_error`. -/
def lockContendedError : Option Nat := some 11

def isLockContended (error : IoError) : Bool :=
  error.kind == .wouldBlock ||
    (error.rawOsError.isSome && error.rawOsError == lockContendedError)

/-- The open lock files of a process that holds its locks. -/
structure FileGuard where
  files : List Nat
  deriving DecidableEq, Repr

/-- Dropping open files, in order. -/
def closeFiles : List Nat → Program Answer Unit
  | [] => return ()
  | file :: rest => do
      Program.perform (Call.close file)
      closeFiles rest

/-- The loop of `acquire`; an early return drops the files locked so far. -/
def lockFiles (expectedOwner : Nat) : List String → List Nat →
    Program Answer (Except RuntimeLockError FileGuard)
  | [], files => return .ok ⟨files⟩
  | path :: rest, files => do
      match ← (openRuntimeLock path expectedOwner).run with
      | .error error => do
          closeFiles files
          return .error error
      | .ok file =>
          match ← Program.perform (Call.tryLock file) with
          | .ok () => lockFiles expectedOwner rest (files ++ [file])
          | .error source => do
              closeFiles (file :: files)
              return .error (if isLockContended source then .alreadyRunning path
                else .lock path source.text)

def acquire (temporaryLockRoot : String) (self : RuntimeLockIdentity) :
    Program Answer (Except RuntimeLockError FileGuard) := do
  if self.resourceHashes.isEmpty then
    return .error (.insecure "" "no managed DNS resources were available to lock")
  match ← (prepareLockParent temporaryLockRoot self.lockRoot self.temporaryRoot).run with
  | .error error => return .error error
  | .ok prepared => lockFiles prepared.expectedOwner (self.lockPathsIn prepared.path) []

namespace FileGuard

def unlockFiles : List Nat → Program Answer Unit
  | [] => return ()
  | file :: rest => do
      Program.perform (Call.unlock file)
      unlockFiles rest

/-- `Drop`: unlock every file, then close them. -/
def drop (self : FileGuard) : Program Answer Unit := do
  unlockFiles self.files
  closeFiles self.files

end FileGuard

/-- Whether the service has been installed, as far as can be told. -/
def isInstalled : Program Answer Bool := do
  match ← Program.perform (Call.lstat "/var/lib/cirrusync") with
  | .ok _ => return true
  | .error error => return error.kind != .notFound

/-- The identity of the locks for a configuration. -/
def forConfig (temporaryLockRoot : String) (config : Config) :
    Program Answer RuntimeLockIdentity := do
  let installed ← isInstalled
  return RuntimeLockIdentity.forConfig installed temporaryLockRoot config

end Cirrusync.LockFiles
