import Cirrusync.Effect.Raising
import Cirrusync.Release.Bump

/-!
The version files of a checkout and the operations on them by which
`VersionRepository.bump` reads and replaces them. Every operation may raise
`OSError`, before or after it has taken effect.
-/

namespace Cirrusync.Release

open Effect

inductive VersionFile where
  | manifest
  | lockfile
deriving DecidableEq, Repr

/-- An exception by its text. -/
structure OSError where
  fileNotFound : Bool
  text : String
deriving DecidableEq, Repr

/-- What `handle.read()` raises. -/
inductive ReadError where
  | os (exception : OSError)
  | unicode (text : String)
deriving DecidableEq, Repr

/-- What `path.stat()` tells. -/
structure Stat where
  regular : Bool
  size : Nat
  mode : Nat
deriving DecidableEq, Repr

/-- A temporary file is known by the random part of its name. -/
abbrev TemporaryName := Nat

inductive FileOp where
  | isSymlink (path : VersionFile)
  | stat (path : VersionFile)
  /-- `path.open("r", encoding="utf-8", newline="")` and the read of all of it. -/
  | read (path : VersionFile)
  | mkstemp (path : VersionFile)
  | fdopen (name : TemporaryName)
  | write (name : TemporaryName) (contents : List Char)
  | flush (name : TemporaryName)
  | fsync (name : TemporaryName)
  | close (name : TemporaryName)
  | chmod (name : TemporaryName) (mode : Nat)
  | replace (name : TemporaryName) (path : VersionFile)
  | unlink (name : TemporaryName)

abbrev FileAns : FileOp → Type
  | .isSymlink _ => Except OSError Bool
  | .stat _ => Except OSError Stat
  | .read _ => Except ReadError (List Char)
  | .mkstemp _ => Except OSError TemporaryName
  | .fdopen _ | .write _ _ | .flush _ | .fsync _ | .close _ | .chmod _ _ | .replace _ _
  | .unlink _ => Except OSError Unit

/-! ## What the operations do -/

def encode (contents : List Char) : List UInt8 := (String.ofList contents).toUTF8.data.toList

def decode (bytes : List UInt8) : Option (List Char) :=
  (String.fromUTF8? ⟨bytes.toArray⟩).map String.toList

structure File where
  symlink : Bool
  regular : Bool
  mode : Nat
  bytes : List UInt8
deriving DecidableEq, Repr

/-- A temporary file and what is still in the buffer of its handle. -/
structure Temporary where
  mode : Nat
  written : List UInt8
  buffered : List UInt8
deriving DecidableEq, Repr

structure Disk where
  files : VersionFile → File
  temporaries : TemporaryName → Option Temporary

def Disk.setTemporary (disk : Disk) (name : TemporaryName) (temporary : Option Temporary) :
    Disk :=
  { disk with temporaries := Function.update disk.temporaries name temporary }

/-- `os.replace` of a temporary file. -/
def Disk.replaced (disk : Disk) (name : TemporaryName) (path : VersionFile)
    (temporary : Temporary) : Disk :=
  { files := Function.update disk.files path ⟨false, true, temporary.mode, temporary.written⟩
    temporaries := Function.update disk.temporaries name none }

/-- A handle's temporary file after an operation on it that may have got some of
the buffer into the file. -/
def Disk.Drains (disk : Disk) (name : TemporaryName) (buffered : List UInt8) (disk' : Disk) :
    Prop :=
  ∃ temporary written rest, disk.temporaries name = some temporary ∧
    temporary.written ++ buffered = written ++ rest ∧
    disk' = disk.setTemporary name (some { temporary with written := written, buffered := rest })

/-- How an operation with its answer changes the disk. An operation that raises has
taken effect, wholly or in part, or not. -/
def FileStep (disk : Disk) : (op : FileOp) → FileAns op → Disk → Prop
  | .isSymlink path, answer, disk' =>
      disk' = disk ∧ ∀ found, answer = .ok found → found = (disk.files path).symlink
  | .stat path, answer, disk' =>
      disk' = disk ∧ ∀ stat, answer = .ok stat →
        stat = ⟨(disk.files path).regular, (disk.files path).bytes.length, (disk.files path).mode⟩
  | .read path, answer, disk' =>
      disk' = disk ∧ (∀ contents, answer = .ok contents →
        decode (disk.files path).bytes = some contents) ∧
      ∀ text, answer = .error (.unicode text) → decode (disk.files path).bytes = none
  | .mkstemp _, .ok name, disk' =>
      disk.temporaries name = none ∧ disk' = disk.setTemporary name (some ⟨0o600, [], []⟩)
  | .mkstemp _, .error _, disk' =>
      disk' = disk ∨ ∃ name, disk.temporaries name = none ∧
        disk' = disk.setTemporary name (some ⟨0o600, [], []⟩)
  | .fdopen _, _, disk' => disk' = disk
  | .write name contents, .ok _, disk' =>
      ∃ temporary, disk.temporaries name = some temporary ∧
        disk.Drains name (temporary.buffered ++ encode contents) disk'
  | .flush name, .ok _, disk' | .close name, .ok _, disk' =>
      ∃ temporary, disk.temporaries name = some temporary ∧
        disk' = disk.setTemporary name (some { temporary with
          written := temporary.written ++ temporary.buffered, buffered := [] })
  | .write name _, .error _, disk' | .flush name, .error _, disk' | .close name, .error _, disk' =>
      ∃ temporary, disk' = disk.setTemporary name temporary
  | .fsync _, _, disk' => disk' = disk
  | .chmod name mode, answer, disk' =>
      disk' = disk ∧ answer ≠ .ok () ∨ ∃ temporary, disk.temporaries name = some temporary ∧
        disk' = disk.setTemporary name (some { temporary with mode := mode })
  | .replace name path, answer, disk' =>
      disk' = disk ∧ answer ≠ .ok () ∨ ∃ temporary, disk.temporaries name = some temporary ∧
        disk' = disk.replaced name path temporary
  | .unlink name, answer, disk' =>
      disk' = disk ∧ answer ≠ .ok () ∨ disk' = disk.setTemporary name none

/-- The files under operations that may fail at any point. -/
def fileContract : Contract FileAns Disk := .solo (fun _ _ => True) FileStep

/-! ## The functions -/

def perform (op : FileOp) : Program FileAns (FileAns op) := Program.perform op

/-- The name of a file in messages. -/
abbrev PathText := VersionFile → String

def maxManifestBytes : Nat := 1048576

def maxLockfileBytes : Nat := 16777216

/-- `_read_text`. -/
def readText (pathText : PathText) (path : VersionFile) (maximumBytes : Nat) :
    Raising FileAns String (List Char) :=
  let cannotRead (text : String) := s!"cannot read {pathText path}: {text}"
  ExceptT.mk do
    match ← (perform (.isSymlink path) : Program FileAns (Except OSError Bool)) with
    | .error exception => return .error (cannotRead exception.text)
    | .ok true => return .error s!"{pathText path} must not be a symbolic link"
    | .ok false =>
      match ← (perform (.stat path) : Program FileAns (Except OSError Stat)) with
      | .error exception => return .error (cannotRead exception.text)
      | .ok stat =>
        if !stat.regular then return .error s!"{pathText path} is not a regular file"
        else if maximumBytes < stat.size then
          return .error (s!"{pathText path} is too large ({stat.size} bytes; " ++
            s!"maximum {maximumBytes})")
        else
          match ← (perform (.read path) : Program FileAns (Except ReadError (List Char))) with
          | .error (.os exception) => return .error (cannotRead exception.text)
          | .error (.unicode text) => return .error (cannotRead text)
          | .ok contents => return .ok contents

def mkstemp (path : VersionFile) : Raising FileAns OSError TemporaryName :=
  ExceptT.mk (perform (.mkstemp path))

def stat (path : VersionFile) : Raising FileAns OSError Stat :=
  ExceptT.mk (perform (.stat path))

def fdopen (name : TemporaryName) : Raising FileAns OSError Unit :=
  ExceptT.mk (perform (.fdopen name))

def write (name : TemporaryName) (contents : List Char) : Raising FileAns OSError Unit :=
  ExceptT.mk (perform (.write name contents))

def flush (name : TemporaryName) : Raising FileAns OSError Unit :=
  ExceptT.mk (perform (.flush name))

def fsync (name : TemporaryName) : Raising FileAns OSError Unit :=
  ExceptT.mk (perform (.fsync name))

def close (name : TemporaryName) : Raising FileAns OSError Unit :=
  ExceptT.mk (perform (.close name))

def chmod (name : TemporaryName) (mode : Nat) : Raising FileAns OSError Unit :=
  ExceptT.mk (perform (.chmod name mode))

def replace (name : TemporaryName) (path : VersionFile) : Raising FileAns OSError Unit :=
  ExceptT.mk (perform (.replace name path))

/-- `temporary.unlink()`, where a missing file is passed over. -/
def unlinkTemporary (name : TemporaryName) : Raising FileAns OSError Unit :=
  ExceptT.mk do
    match ← (perform (.unlink name) : Program FileAns (Except OSError Unit)) with
    | .ok _ => return .ok ()
    | .error exception =>
        if exception.fileNotFound then return .ok () else return .error exception

/-- `_atomic_write`. -/
def atomicWrite (path : VersionFile) (contents : List Char) : Raising FileAns OSError Unit := do
  let temporary ← mkstemp path
  Raising.tryFinally
    (do
      fdopen temporary
      Raising.tryFinally
        (do
          write temporary contents
          flush temporary
          fsync temporary)
        (close temporary)
      let metadata ← stat path
      chmod temporary metadata.mode
      replace temporary path)
    (unlinkTemporary temporary)

/-- What `VersionRepository.bump` raises. -/
inductive BumpError where
  | policy (message : String)
  /-- The update failed, with what the rollback of each file raised. -/
  | update (exception : OSError) (rollbackErrors : List (VersionFile × OSError))
deriving DecidableEq, Repr

def rollbackPhrase : String := "; rollback also failed: "

/-- The `detail` of the message. -/
def rollbackDetail (pathText : PathText) (rollbackErrors : List (VersionFile × OSError)) :
    String :=
  if rollbackErrors.isEmpty then ""
  else rollbackPhrase ++ String.intercalate ", " (rollbackErrors.map fun failed =>
    s!"{pathText failed.1}: {failed.2.text}")

def BumpError.message (pathText : PathText) : BumpError → String
  | .policy message => message
  | .update exception rollbackErrors =>
      s!"failed to update version files: {exception.text}" ++
        rollbackDetail pathText rollbackErrors

/-- The rollback: each file gets its text back, and what is raised is collected. -/
def rollback : List (VersionFile × List Char) → Program FileAns (List (VersionFile × OSError))
  | [] => .done []
  | (path, contents) :: rest => do
      let result ← (atomicWrite path contents).run
      let rollbackErrors ← rollback rest
      return match result with
        | .ok _ => rollbackErrors
        | .error exception => (path, exception) :: rollbackErrors

/-- `VersionRepository.bump`. -/
def bump (loads : List Char → Option Table) (pathText : PathText) (component : String) :
    Raising FileAns BumpError Version :=
  ExceptT.mk do
    match ← (readText pathText .manifest maxManifestBytes).run with
    | .error message => return .error (.policy message)
    | .ok originalManifest =>
      match ← (readText pathText .lockfile maxLockfileBytes).run with
      | .error message => return .error (.policy message)
      | .ok originalLockfile =>
        match bumpedTexts loads originalManifest originalLockfile component with
        | .error message => return .error (.policy message)
        | .ok texts =>
          let update : Raising FileAns OSError Unit := do
            atomicWrite .manifest texts.manifest
            atomicWrite .lockfile texts.lockfile
          match ← update.run with
          | .ok _ => return .ok texts.version
          | .error exception =>
            let rollbackErrors ← rollback
              [(.manifest, originalManifest), (.lockfile, originalLockfile)]
            return .error (.update exception rollbackErrors)

end Cirrusync.Release
