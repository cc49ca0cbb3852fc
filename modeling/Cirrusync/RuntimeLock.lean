import Cirrusync.Discovery
import Mathlib.Data.List.Sort

/-!
The runtime locks: which lock files a configuration needs and how a process
takes and releases them. Preparing the lock directory and opening a lock file,
with all their checks of owners and modes, are single operations here.
-/

namespace Cirrusync

open Text Effect

/-- FNV-1a over 64-bit words that wrap around. -/
def fnv1aHash (data : List UInt8) : UInt64 :=
  data.foldl (fun hash byte => (hash ^^^ byte.toUInt64) * 0x00000100000001b3)
    0xcbf29ce484222325

def canonicalLockName (name : String) : String :=
  toAsciiLowercase (trimEndDots (trim name))

/-- The identity text that is hashed, its parts joined by NUL. -/
def resourceIdentity (record : RecordConfig) : String :=
  canonicalLockName record.zone ++ "\x00" ++ record.recordType.asStr ++ "\x00" ++
    canonicalLockName record.name

def resourceLockHash (record : RecordConfig) : UInt64 :=
  fnv1aHash (bytes (resourceIdentity record))

def dedupFrom (last : UInt64) : List UInt64 → List UInt64
  | [] => []
  | hash :: rest =>
      if hash = last then dedupFrom last rest else hash :: dedupFrom hash rest

/-- `Vec::dedup`: of equal neighbours only the first is kept. -/
def dedup : List UInt64 → List UInt64
  | [] => []
  | hash :: rest => hash :: dedupFrom hash rest

structure RuntimeLockIdentity where
  resourceHashes : List UInt64
  lockRoot : String
  temporaryRoot : Bool

/-- An open file on which this process holds the exclusive lock. -/
structure RuntimeLockGuard where
  files : List String
  deriving DecidableEq, Repr

namespace RuntimeLockIdentity

/-- `installed` says whether `/var/lib/cirrusync` was found. -/
def forConfig (installed : Bool) (temporaryLockRoot : String) (config : Config) :
    RuntimeLockIdentity :=
  { resourceHashes := dedup ((config.records.map resourceLockHash).insertionSort (· ≤ ·))
    lockRoot := if installed then "/var/lib/cirrusync" else temporaryLockRoot
    temporaryRoot := !installed }

/-- `Path::join` with a relative file name. -/
def joinPath (parent file : String) : String :=
  if parent.toList.isEmpty || parent.toList.getLast? == some '/' then parent ++ file
  else parent ++ "/" ++ file

def lockPath (parent : String) (hash : UInt64) : String :=
  joinPath parent s!"record-{hex16 hash}.lock"

def lockPathsIn (self : RuntimeLockIdentity) (parent : String) : List String :=
  self.resourceHashes.map (lockPath parent)

/-- Dropping open lock files, in order. -/
def closeFiles : List String → M Unit
  | [] => return ()
  | file :: rest => do
      act (.closeLock file)
      closeFiles rest

/-- The loop of `acquire`; an early return drops the files locked so far. -/
def lockFiles : List String → List String → M (Except RuntimeLockError RuntimeLockGuard)
  | [], files => return .ok ⟨files⟩
  | path :: rest, files => do
      match ← act (.openRuntimeLock path) with
      | .error error => do
          closeFiles files
          return .error error
      | .ok () =>
          match ← act (.tryLock path) with
          | .ok () => lockFiles rest (files ++ [path])
          | .error .contended => do
              closeFiles (path :: files)
              return .error (.alreadyRunning path)
          | .error (.other source) => do
              closeFiles (path :: files)
              return .error (.lock path source)

def acquire (self : RuntimeLockIdentity) :
    M (Except RuntimeLockError RuntimeLockGuard) := do
  if self.resourceHashes.isEmpty then
    return .error (.insecure "" "no managed DNS resources were available to lock")
  match ← act (.prepareLockParent self.lockRoot self.temporaryRoot) with
  | .error error => return .error error
  | .ok parent => lockFiles (self.lockPathsIn parent) []

end RuntimeLockIdentity

namespace RuntimeLockGuard

def unlockFiles : List String → M Unit
  | [] => return ()
  | file :: rest => do
      act (.unlock file)
      unlockFiles rest

/-- `Drop`: unlock every file, then close them. -/
def drop (self : RuntimeLockGuard) : M Unit := do
  unlockFiles self.files
  RuntimeLockIdentity.closeFiles self.files

end RuntimeLockGuard

def RuntimeLockError.display : RuntimeLockError → String
  | .open path source => s!"could not open runtime lock target {path}: {source}"
  | .alreadyRunning path =>
      s!"another Cirrusync process already holds runtime lock {path}"
  | .insecure path reason => s!"unsafe runtime lock {path}: {reason}"
  | .lock path source => s!"could not lock runtime target {path}: {source}"

end Cirrusync
