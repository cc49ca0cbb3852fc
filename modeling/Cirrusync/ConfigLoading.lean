import Cirrusync.ConfigFile
import Cirrusync.Files.Scope

/-!
The configuration and the API token as they are read from disk: what is asked of a file
before its contents are trusted. This is the code for Linux; a file is read in one piece.
The parse position in an error is not modelled.
-/

namespace Cirrusync.ConfigLoading

open Effect Files Text

def maxTokenBytes : Nat := 16 * 1024

def tokenEnvVar : String := "CIRRUSYNC_TOKEN"

inductive ConfigLoadError where
  | read (path source : String)
  | configTooLarge (path : String)
  | insecureConfigFile (path reason : String)
  | settings (path : String) (error : LoadError)
  | tokenMetadata (path source : String)
  | tokenRead (path source : String)
  | insecureTokenFile (path reason : String)
  | tokenTooLarge (path : String)
  | tokenValueTooLarge (origin : String)
  | nonUnicodeEnvironmentToken
  | emptyToken (origin : String)
  | invalidToken (origin : String)
  deriving DecidableEq, Repr

inductive TokenSource where
  | environment
  | file
  deriving DecidableEq, Repr

def TokenSource.description : TokenSource → String
  | .environment => tokenEnvVar
  | .file => "the configured token file"

def secretFromText (text : String) (source : TokenSource) : Except ConfigLoadError String := do
  ensure (len text ≤ maxTokenBytes) (.tokenValueTooLarge source.description)
  let token := trim text
  ensure (!token.toList.isEmpty) (.emptyToken source.description)
  ensure (!token.toList.any fun character => isWhitespace character || isControl character)
    (.invalidToken source.description)
  return token

abbrev LoadM (α : Type) : Type := Raising Answer ConfigLoadError α

/-- `map_err`, with the text of the error. -/
def orElse {α : Type} (error : String → ConfigLoadError) : Except IoError α → LoadM α :=
  orRaise fun source => error source.text

/-- `{mode:04o}`. -/
def displayMode (mode : Nat) : String :=
  .ofList (List.leftpad 4 '0' (Nat.toDigits 8 mode))

/-- `permissions().mode() & 0o7777`. -/
def permissions (data : Metadata) : Nat := data.mode &&& 0o7777

/-- `ELOOP`, the error of opening a symbolic link. -/
def linuxEloop : Nat := 40

/-- Open a file for reading; a symbolic link is refused as `insecure`. -/
def openNoFollow (path : String) (insecure error : String → ConfigLoadError) : LoadM Nat := do
  let opened ← call (.openRead path)
  orRaise (fun source =>
    if source.rawOsError == some linuxEloop then insecure "symbolic links are not accepted"
    else error source.text) opened

/-- `take(limit).read_to_string`. -/
def readToString (error : String → ConfigLoadError) (file limit : Nat) : LoadM String := do
  let data ← orElse error (← call (.read file limit))
  match fromUtf8 data with
  | some contents => return contents
  | none => throw (error "stream did not contain valid UTF-8")

/-- What `open_config_file` asks of an open file. -/
def validateConfigFile (path : String) (file : Nat) : LoadM Unit := do
  let opened ← orElse (.read path) (← call (.fstat file))
  if opened.data.fileType != .regular then
    throw (.insecureConfigFile path "path must refer to a regular file")
  let named ← orElse (.read path) (← call (.lstat path))
  if named.data.fileType == .symlink then
    throw (.insecureConfigFile path "symbolic links are not accepted")
  if named.file != opened.file then
    throw (.insecureConfigFile path "path changed while the configuration was being opened")
  let mode := permissions opened.data
  if mode &&& 0o022 != 0 then
    throw (.insecureConfigFile path
      s!"mode {displayMode mode} permits group or other users to modify DNS configuration")
  let effectiveUser ← call .effectiveUser
  let owner := opened.data.uid
  if owner != 0 && owner != effectiveUser then
    throw (.insecureConfigFile path
      s!"owner UID {owner} is neither root nor the current effective UID")
  if opened.size > maxConfigBytes then
    throw (.configTooLarge path)

def openConfigFile (path : String) : LoadM Nat := do
  let file ← openNoFollow path (.insecureConfigFile path) (.read path)
  keepingOpen file (validateConfigFile path file)

def validateOpenedTokenPath (path : String) (opened : Stat) : LoadM Unit := do
  let named ← orElse (.tokenMetadata path) (← call (.lstat path))
  if named.data.fileType == .symlink then
    throw (.insecureTokenFile path "symbolic links are not accepted")
  if named.file != opened.file then
    throw (.insecureTokenFile path "path changed while the token file was being opened")

/-- `ERANGE`: there is an access list, but the buffer is too small for it. -/
def errnoRange : Nat := 34

def rejectTokenAccessAcl (path : String) (file : Nat) : LoadM Unit := do
  match ← call (.accessAcl file) with
  | .error source =>
      if noAttribute source then return ()
      else if source.rawOsError == some errnoRange then
        throw (.insecureTokenFile path "extended POSIX access ACLs are not accepted")
      else throw (.tokenMetadata path source.text)
  | .ok () => throw (.insecureTokenFile path "extended POSIX access ACLs are not accepted")

def validateTokenMetadata (path : String) (file : Nat) (metadata : Metadata) : LoadM Unit := do
  if metadata.fileType != .regular then
    throw (.insecureTokenFile path "path must refer to a regular file")
  let mode := permissions metadata
  -- `!0o640`, within the twelve bits of a mode
  if mode &&& 0o7137 != 0 || mode &&& 0o400 == 0 then
    throw (.insecureTokenFile path
      s!"mode {displayMode mode} is too permissive; use 0600 or root:service 0640")
  if metadata.uid != 0 then
    throw (.insecureTokenFile path s!"mode {displayMode mode} token must be owned by root")
  if mode &&& 0o040 != 0 then
    let effectiveGroup ← call .effectiveGroup
    if metadata.gid != effectiveGroup then
      throw (.insecureTokenFile path
        (s!"group-readable token GID {metadata.gid} does not match effective GID " ++
          s!"{effectiveGroup}"))
  rejectTokenAccessAcl path file

section

variable [Externals]

/-- `Config::load`. Only a parse error names the path. -/
def load (loads : List Char → Option TomlDoc.Table) (path : String) : LoadM Config := do
  let file ← openConfigFile path
  let contents ← whileOpen file (readToString (.read path) file (maxConfigBytes + 1))
  if len contents > maxConfigBytes then
    throw (.configTooLarge path)
  match Config.fromToml loads contents.toList with
  | .ok config => return config
  | .error error => throw (.settings path error)

end

def loadTokenFile (path : String) : LoadM String := do
  let file ← openNoFollow path (.insecureTokenFile path) (.tokenRead path)
  let contents ← whileOpen file do
    let metadata ← orElse (.tokenMetadata path) (← call (.fstat file))
    validateOpenedTokenPath path metadata
    validateTokenMetadata path file metadata.data
    if metadata.size > maxTokenBytes then
      throw (.tokenTooLarge path)
    readToString (.tokenRead path) file (maxTokenBytes + 1)
  if len contents > maxTokenBytes then
    throw (.tokenTooLarge path)
  liftExcept (secretFromText contents .file)

/-- `Config::load_api_token`, in an environment that may have a variable for the token,
which may be no text. -/
def loadApiToken (environment : Option (Option String)) (self : Config) : LoadM String :=
  match environment with
  | some (some value) => liftExcept (secretFromText value .environment)
  | some none => throw .nonUnicodeEnvironmentToken
  | none => loadTokenFile self.cloudflare.apiTokenFile

/-- What `build_updater` reads before it builds the clients. -/
def loadInputs [Externals] (loads : List Char → Option TomlDoc.Table)
    (environment : Option (Option String)) (configPath : String) : LoadM (Config × String) := do
  let config ← load loads configPath
  let token ← loadApiToken environment config
  return (config, token)

end Cirrusync.ConfigLoading
