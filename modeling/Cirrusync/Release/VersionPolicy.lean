import Cirrusync.Config
import Cirrusync.Release.ManifestScan

/-!
What `scripts/versioning.py` checks of a manifest and its lockfile, and the texts
of a bump. The TOML parser is a function from texts to values that may fail and
of which nothing is assumed; errors are the messages of `VersionPolicyError`.
-/

namespace Cirrusync.Release

open Python

/-- The values of `tomllib`, as far as they are looked at. -/
inductive Toml where
  | string (text : List Char)
  | table (get : String → Option Toml)
  | array (items : List Toml)
  /-- A number, a boolean or a date. -/
  | scalar

abbrev Table := String → Option Toml

def Toml.asString : Option Toml → Option (List Char)
  | some (.string text) => some text
  | _ => none

def Toml.asTable : Toml → Option Table
  | .table get => some get
  | _ => none

section

-- `tomllib.loads`
variable (loads : List Char → Option Table)

/-- `_parse_toml`. -/
def parseToml (contents : List Char) (source : String) : Except String Table :=
  match loads contents with
  | some parsed => .ok parsed
  | none => .error s!"{source} is not valid TOML"

def parsedLockPackages (lockData : Table) (source : String) : Except String (List Table) :=
  match lockData "package" with
  | some (.array items) =>
      if items.all (fun item => item.asTable.isSome) then .ok (items.filterMap Toml.asTable)
      else .error s!"{source} has no canonical [[package]] array"
  | _ => .error s!"{source} has no canonical [[package]] array"

/-- Whether a package of the lockfile is the workspace's own. -/
def isSemanticPackage (package : Table) : Bool :=
  Toml.asString (package "name") == some packageName && (package "source").isNone

/-- `_semantic_lock_package`: the number of packages, the index of the own one
and its fields. -/
def semanticLockPackage (lockData : Table) (source : String) :
    Except String (List Table × Nat × Table) := do
  let lockPackages ← parsedLockPackages lockData source
  match lockPackages.zipIdx.filter (fun indexed => isSemanticPackage indexed.1) with
  | [(package, packageIndex)] => .ok (lockPackages, packageIndex, package)
  | found =>
      .error (s!"{source} has {found.length} semantic source-less [[package]] entries " ++
        "named 'cirrusync'; expected exactly one")

def assignmentProbe : List Char := "__cirrusync_assignment_probe__".toList

def assignmentTargetsManifestField (contents : List Char) (assignment : Assignment)
    (key source : String) : Except String Bool := do
  let probedData ← parseToml loads (replaceAssignment contents assignment assignmentProbe) source
  match probedData "package" with
  | some (.table package) => .ok (Toml.asString (package key) == some assignmentProbe)
  | _ => .ok false

def assignmentTargetsLockField (contents : List Char) (assignment : Assignment) (key : String)
    (packageIndex packageCount : Nat) (source : String) : Except String Bool := do
  let probedData ← parseToml loads (replaceAssignment contents assignment assignmentProbe) source
  let packages ← parsedLockPackages probedData source
  match packages[packageIndex]? with
  | some package =>
      .ok (packages.length == packageCount &&
        Toml.asString (package key) == some assignmentProbe)
  | none => .ok false

/-- The assignments of one `[[package]]` block. -/
structure PackageBlock where
  names : List Assignment
  versions : List Assignment
  sources : List Assignment

/-- The locals of `_lock_version_assignment`; outside of a block there is no
current one. -/
structure LockScan where
  packageBlocks : List PackageBlock
  current : Option PackageBlock

/-- `finish_block`. -/
def LockScan.finishBlock (scan : LockScan) : LockScan :=
  match scan.current with
  | some block => ⟨scan.packageBlocks ++ [block], none⟩
  | none => scan

/-- One round of the loop of `_lock_version_assignment`. -/
def LockScan.step (scan : LockScan) (line : List Char × Nat) : LockScan :=
  let body := (splitLineEnding line.1).1
  match Pattern.captures lockTableRe body with
  | some [_, _, table, _, _, _] =>
      let finished := scan.finishBlock
      if strip table == "package".toList then ⟨finished.packageBlocks, some ⟨[], [], []⟩⟩
      else finished
  | _ =>
      if (lstrip body).head? == some '[' then scan.finishBlock
      else match scan.current with
        | none => scan
        | some block =>
            let found (key : String) := (matchStringAssignment line.1 key.toList line.2).toList
            let grown : PackageBlock := ⟨block.names ++ found "name",
              block.versions ++ found "version", block.sources ++ found "source"⟩
            { scan with current := some grown }

def scanLock (contents : List Char) : List PackageBlock :=
  ((splitlines contents).zipIdx.foldl LockScan.step ⟨[], none⟩).finishBlock.packageBlocks

/-- `_lock_version_assignment` from the scan on. -/
def lockVersionAssignmentAt (contents : List Char) (source : String)
    (packageIndex packageCount : Nat) : Except String Assignment := do
  let packageBlocks := scanLock contents
  ensure (packageBlocks.length == packageCount)
    (s!"{source} has {packageBlocks.length} canonical [[package]] " ++
      s!"blocks but parses as {packageCount}; expected an exact match")
  match packageBlocks[packageIndex]? with
  | none =>
      .error (s!"{source} source-less package index is outside the canonical " ++
        "[[package]] blocks")
  | some block =>
      match block.names with
      | [name] => do
          ensure (name.value == packageName)
            s!"{source} canonical package name does not match 'cirrusync'"
          match block.versions with
          | [version] => do
              let ownsName ← assignmentTargetsLockField loads contents name "name" packageIndex
                packageCount source
              ensure ownsName
                s!"{source} canonical name assignment does not own the parsed package field"
              let ownsVersion ← assignmentTargetsLockField loads contents version "version"
                packageIndex packageCount source
              ensure ownsVersion
                s!"{source} canonical version assignment does not own the parsed package field"
              return version
          | versions =>
              .error (s!"{source} package 'cirrusync' has {versions.length} " ++
                "canonical version assignments; expected exactly one")
      | names =>
          .error (s!"{source} package 'cirrusync' has {names.length} " ++
            "canonical name assignments; expected exactly one")

def lockVersionAssignment (contents : List Char) (source : String)
    (package : Option (Nat × Nat)) : Except String Assignment := do
  match package with
  | some (packageIndex, packageCount) =>
      lockVersionAssignmentAt loads contents source packageIndex packageCount
  | none =>
      let lockData ← parseToml loads contents source
      let (lockPackages, packageIndex, _) ← semanticLockPackage lockData source
      lockVersionAssignmentAt loads contents source packageIndex lockPackages.length

/-- A value that must be there. -/
def required {α : Type} (value : Option α) (message : String) : Except String α :=
  match value with
  | some found => .ok found
  | none => .error message

/-- `_validated_version`. -/
def validatedVersion (manifestContents lockfileContents : List Char) (source : String) :
    Except String Version := do
  let manifestSource := s!"{source} Cargo.toml"
  let lockSource := s!"{source} Cargo.lock"
  let manifestData ← parseToml loads manifestContents manifestSource
  let lockData ← parseToml loads lockfileContents lockSource
  let packageData ← required ((manifestData "package").bind Toml.asTable)
    s!"{manifestSource} has no [package] table"
  let semanticName ← required (Toml.asString (packageData "name"))
    s!"{manifestSource} package name is not a string"
  let semanticManifestVersion ← required (Toml.asString (packageData "version"))
    s!"{manifestSource} package version is not a string"
  let (lockPackages, lockPackageIndex, semanticLockEntry) ←
    semanticLockPackage lockData lockSource
  let semanticLockVersion ← required (Toml.asString (semanticLockEntry "version"))
    s!"{lockSource} package version is not a string"
  let manifestName ← manifestPackageAssignment manifestContents "name".toList manifestSource
  ensure (manifestName.value == semanticName)
    s!"{manifestSource} canonical name assignment does not match the parsed package name"
  let ownsName ← assignmentTargetsManifestField loads manifestContents manifestName "name"
    manifestSource
  ensure ownsName
    s!"{manifestSource} canonical name assignment does not own the parsed package field"
  ensure (semanticName == packageName)
    s!"{manifestSource} package name does not match 'cirrusync'"
  let manifestAssignment ← manifestVersionAssignment manifestContents manifestSource
  let lockAssignment ← lockVersionAssignment loads lockfileContents lockSource
    (some (lockPackageIndex, lockPackages.length))
  ensure (manifestAssignment.value == semanticManifestVersion)
    s!"{manifestSource} canonical version assignment does not match the parsed package version"
  let ownsVersion ← assignmentTargetsManifestField loads manifestContents manifestAssignment
    "version" manifestSource
  ensure ownsVersion
    s!"{manifestSource} canonical version assignment does not own the parsed package field"
  ensure (lockAssignment.value == semanticLockVersion)
    s!"{lockSource} canonical version assignment does not match the parsed package version"
  let manifestVersion ← Version.parse semanticManifestVersion manifestSource
  let lockVersion ← Version.parse semanticLockVersion lockSource
  ensure (lockVersion == manifestVersion)
    (s!"{source} Cargo.lock version " ++ String.ofList lockVersion.str ++ " does not match " ++
      "Cargo.toml version " ++ String.ofList manifestVersion.str)
  return manifestVersion

/-- The new version and the new texts. -/
structure BumpedTexts where
  version : Version
  manifest : List Char
  lockfile : List Char

/-- `VersionRepository.bump` between the reading and the writing of the files. -/
def bumpedTexts (originalManifest originalLockfile : List Char) (component : String) :
    Except String BumpedTexts := do
  let current ← validatedVersion loads originalManifest originalLockfile "working tree"
  let newVersion ← current.bump component
  let manifestAssignment ← manifestVersionAssignment originalManifest "working tree Cargo.toml"
  let lockAssignment ← lockVersionAssignment loads originalLockfile "working tree Cargo.lock" none
  let newManifest := replaceAssignment originalManifest manifestAssignment newVersion.str
  let newLockfile := replaceAssignment originalLockfile lockAssignment newVersion.str
  let _ ← validatedVersion loads newManifest newLockfile "updated working tree"
  return ⟨newVersion, newManifest, newLockfile⟩

end

end Cirrusync.Release
