import Mathlib.Logic.Function.Basic
import Mathlib.Data.List.Basic

/-!
A file system that several users share. Files are numbered as they are made, so that no
number ever stands for two of them. What others may do to a file system is a relation of
its own: they change what its owners and modes let them change, and nothing else.
-/

namespace Files

inductive FileType where
  | regular
  | directory
  | symlink
  | other
  deriving DecidableEq, Repr

/-- What is known of a file; `acl` says that it has an extended access list. -/
structure Metadata where
  fileType : FileType
  uid : Nat
  gid : Nat
  mode : Nat
  nlink : Nat
  acl : Bool
  deriving DecidableEq, Repr

namespace Metadata

/-- The group or all others may write. The mode bounds what an access list gives, so it
does not matter here. -/
def othersWrite (data : Metadata) : Bool := data.mode &&& 0o022 != 0

/-- Only its owner takes a file out of a directory with this bit. -/
def sticky (data : Metadata) : Bool := data.mode &&& 0o1000 != 0

/-- What users leave as it is who are not trusted. -/
structure Keeps (trusted : Nat → Prop) (data data' : Metadata) : Prop where
  fileType_eq : data'.fileType = data.fileType
  uid_eq : data'.uid = data.uid
  guarded : trusted data.uid →
    data'.gid = data.gid ∧ data'.mode = data.mode ∧ data'.acl = data.acl

variable {trusted : Nat → Prop} {data data' data'' : Metadata}

theorem Keeps.refl (data : Metadata) : data.Keeps trusted data :=
  ⟨rfl, rfl, fun _ => ⟨rfl, rfl, rfl⟩⟩

theorem Keeps.trans (h : data.Keeps trusted data') (h' : data'.Keeps trusted data'') :
    data.Keeps trusted data'' where
  fileType_eq := h'.fileType_eq.trans h.fileType_eq
  uid_eq := h'.uid_eq.trans h.uid_eq
  guarded := by
    intro htrusted
    obtain ⟨hgid, hmode, hacl⟩ := h.guarded htrusted
    obtain ⟨hgid', hmode', hacl'⟩ := h'.guarded (by rw [h.uid_eq]; exact htrusted)
    exact ⟨hgid'.trans hgid, hmode'.trans hmode, hacl'.trans hacl⟩

/-- Only the number of links of a trusted user's file is open to others. -/
theorem Keeps.eq_of_trusted (h : data.Keeps trusted data') (htrusted : trusted data.uid) :
    data' = { data with nlink := data'.nlink } := by
  obtain ⟨hgid, hmode, hacl⟩ := h.guarded htrusted
  rw [← h.fileType_eq, ← h.uid_eq, ← hgid, ← hmode, ← hacl]

theorem Keeps.mode_eq (h : data.Keeps trusted data') (htrusted : trusted data.uid) :
    data'.mode = data.mode :=
  (h.guarded htrusted).2.1

end Metadata

/-- A path starts at the top or where the processes work, and one with a slash at its end
names a directory. -/
structure Route where
  absolute : Bool
  names : List String
  slashed : Bool
  deriving DecidableEq, Repr

namespace Route

/-- The path with one more name at its end. -/
def join (route : Route) (name : String) : Route := ⟨route.absolute, route.names ++ [name], false⟩

/-- The path without the slash at its end. -/
def unslashed (route : Route) : Route := { route with slashed := false }

end Route

/-- Files, what is known and what is in each, and the names that directories give them, with
`.` and `..` among them. The processes work in the directory `here`, and `leads` is the
directory that a symbolic link leads to at present. -/
structure FileSystem where
  top : Nat
  here : Nat
  count : Nat
  metadata : Nat → Option Metadata
  contents : Nat → List UInt8
  entry : Nat → String → Option Nat
  leads : Nat → Option Nat
  rooted : (metadata top).isSome = true
  seated : (metadata here).isSome = true
  unmade : ∀ file, count ≤ file → metadata file = none
  named : ∀ dir name file, entry dir name = some file → (metadata file).isSome = true

namespace FileSystem

def asDirectory (fs : FileSystem) (file : Nat) : Option Nat :=
  (fs.metadata file).bind fun data => if data.fileType = .directory then some file else none

/-- Where a name in the middle of a path leads. -/
def enter (fs : FileSystem) (file : Nat) : Option Nat :=
  (fs.metadata file).bind fun data => match data.fileType with
    | .directory => some file
    | .symlink => (fs.leads file).bind fs.asDirectory
    | _ => none

def walk (fs : FileSystem) : Nat → List String → Option Nat
  | dir, [] => some dir
  | dir, name :: rest =>
      (fs.entry dir name).bind fun file => (fs.enter file).bind fun next => fs.walk next rest

def start (fs : FileSystem) (route : Route) : Nat := if route.absolute then fs.top else fs.here

/-- The directory that a path ends in, and its last name, at which no slash stands. -/
def locate (fs : FileSystem) (route : Route) : Option (Nat × String) :=
  if route.slashed then none
  else route.names.getLast?.bind fun name =>
    (fs.walk (fs.start route) route.names.dropLast).map fun dir => (dir, name)

/-- What a path names. A symbolic link at its end is followed only where a slash stands
behind it. -/
def find (fs : FileSystem) (route : Route) : Option Nat :=
  if route.slashed then fs.walk (fs.start route) route.names
  else (fs.locate route).bind fun place => fs.entry place.1 place.2

theorem ne_count (fs : FileSystem) {file : Nat} (h : (fs.metadata file).isSome = true) :
    file ≠ fs.count := by
  rintro rfl
  rw [fs.unmade fs.count (Nat.le_refl _)] at h
  cases h

/-- A new file under a new name, with nothing in it. -/
def make (fs : FileSystem) (dir : Nat) (name : String) (data : Metadata) : FileSystem where
  top := fs.top
  here := fs.here
  count := fs.count + 1
  metadata := Function.update fs.metadata fs.count (some data)
  contents := Function.update fs.contents fs.count []
  entry := fun dir' name' =>
    if dir' = dir ∧ name' = name then some fs.count
    else if dir' = fs.count then none
    else fs.entry dir' name'
  leads := fs.leads
  rooted := by
    rw [Function.update_of_ne (fs.ne_count fs.rooted)]
    exact fs.rooted
  seated := by
    rw [Function.update_of_ne (fs.ne_count fs.seated)]
    exact fs.seated
  unmade := by
    intro file hfile
    have hne : file ≠ fs.count := by omega
    rw [Function.update_of_ne hne]
    exact fs.unmade file (by omega)
  named := by
    intro dir' name' file hentry
    by_cases hfile : file = fs.count
    · subst hfile
      rw [Function.update_self]
      rfl
    · rw [Function.update_of_ne hfile]
      split at hentry
      · exact absurd (Option.some.inj hentry).symm hfile
      · split at hentry
        · cases hentry
        · exact fs.named dir' name' file hentry

/-- The file system without a name; a file that loses one has a link less. -/
def unlink (fs : FileSystem) (dir : Nat) (name : String) : FileSystem where
  top := fs.top
  here := fs.here
  count := fs.count
  metadata := fun file => (fs.metadata file).map fun data =>
    if fs.entry dir name = some file then { data with nlink := data.nlink - 1 } else data
  contents := fs.contents
  entry := Function.update fs.entry dir (Function.update (fs.entry dir) name none)
  leads := fs.leads
  rooted := (Option.isSome_map ..).trans fs.rooted
  seated := (Option.isSome_map ..).trans fs.seated
  unmade := by
    intro file hfile
    rw [fs.unmade file hfile]
    rfl
  named := by
    intro dir' name' file hentry
    rw [Option.isSome_map]
    by_cases hdir : dir' = dir
    · subst hdir
      rw [Function.update_self] at hentry
      by_cases hname : name' = name
      · subst hname
        rw [Function.update_self] at hentry
        cases hentry
      · rw [Function.update_of_ne hname] at hentry
        exact fs.named dir' name' file hentry
    · rw [Function.update_of_ne hdir] at hentry
      exact fs.named dir' name' file hentry

variable {fs fs' fs'' : FileSystem} {dir file : Nat} {name : String} {data : Metadata}

theorem make_entry_self : (fs.make dir name data).entry dir name = some fs.count := by
  simp [make]

theorem make_entry_of_ne {dir' : Nat} {name' : String} (h : dir' ≠ dir ∨ name' ≠ name)
    (hdir : dir' ≠ fs.count) :
    (fs.make dir name data).entry dir' name' = fs.entry dir' name' := by
  have hplace : ¬ (dir' = dir ∧ name' = name) := by
    rintro ⟨rfl, rfl⟩
    exact h.elim (fun hne => hne rfl) fun hne => hne rfl
  simp [make, hplace, hdir]

/-- A new directory is empty, unless the name of the new file is in it. -/
theorem make_entry_new {name' : String} (hdir : dir ≠ fs.count) :
    (fs.make dir name data).entry fs.count name' = none := by
  simp [make, Ne.symm hdir]

theorem make_metadata_self : (fs.make dir name data).metadata fs.count = some data := by
  simp [make]

theorem ne_count_of_some (h : fs.metadata file = some data) : file ≠ fs.count :=
  fs.ne_count (Option.isSome_of_eq_some h)

theorem make_metadata_of_some {old : Metadata} (h : fs.metadata file = some old) :
    (fs.make dir name data).metadata file = some old := by
  simpa [make, Function.update_of_ne (ne_count_of_some h)] using h

theorem unlink_entry_self : (fs.unlink dir name).entry dir name = none := by
  simp [unlink]

theorem unlink_entry_of_ne {dir' : Nat} {name' : String} (h : dir' ≠ dir ∨ name' ≠ name) :
    (fs.unlink dir name).entry dir' name' = fs.entry dir' name' := by
  unfold unlink
  by_cases hdir : dir' = dir
  · subst hdir
    simp [Function.update_of_ne (h.resolve_left (fun hne => hne rfl))]
  · simp [Function.update_of_ne hdir]

/-! What others can do. -/

variable (trusted : Nat → Prop)

/-- An entry that some user who is not trusted may set, replace or take away. -/
def Alterable (fs : FileSystem) (dir : Nat) (name : String) : Prop :=
  ∀ data, fs.metadata dir = some data → data.fileType = .directory →
    ¬ trusted data.uid ∨ (data.othersWrite = true ∧ (data.sticky = true →
      ∀ file there, fs.entry dir name = some file → fs.metadata file = some there →
        ¬ trusted there.uid))

/-- What users who are not trusted can make of a file system: they make files of their
own, change those as they like, write to files that they may write to, lead their links
elsewhere, and alter what is alterable. -/
structure Tampered (fs fs' : FileSystem) : Prop where
  start_eq : fs'.start = fs.start
  keeps : ∀ file data, fs.metadata file = some data →
    ∃ data', fs'.metadata file = some data' ∧ data.Keeps trusted data'
  writes : ∀ file data, fs.metadata file = some data → trusted data.uid →
    data.othersWrite = false → fs'.contents file = fs.contents file
  brings : ∀ file data, fs.metadata file = none → fs'.metadata file = some data →
    ¬ trusted data.uid
  entries : ∀ dir name, fs'.entry dir name ≠ fs.entry dir name → fs.Alterable trusted dir name

/-- A directory from which others take no file of a trusted user. -/
def Sheltering (fs : FileSystem) (dir : Nat) : Prop :=
  ∃ data, fs.metadata dir = some data ∧ data.fileType = .directory ∧ trusted data.uid ∧
    (data.othersWrite = false ∨ data.sticky = true)

/-- An entry that only trusted users can take away. -/
structure Shielded (fs : FileSystem) (dir : Nat) (name : String) (file : Nat) : Prop where
  named : fs.entry dir name = some file
  guarded : ∃ data, fs.metadata dir = some data ∧ data.fileType = .directory ∧
    trusted data.uid ∧ (data.othersWrite = false ∨ data.sticky = true ∧
      ∃ there, fs.metadata file = some there ∧ trusted there.uid)

/-- A path of shielded entries. -/
def Solid (fs : FileSystem) : Nat → List String → Nat → Prop
  | dir, [], target => target = dir
  | dir, name :: rest, target => ∃ next, fs.Shielded trusted dir name next ∧
      Solid fs next rest target

def IsDirectory (fs : FileSystem) (file : Nat) : Prop :=
  ∃ data, fs.metadata file = some data ∧ data.fileType = .directory

/-- What stays as it is, whatever others do and whichever of the files with transient
names are removed: types, owners, the modes of the files of trusted users, what is in those
that others may not write to, and the shielded entries that are directories or have lasting
names. -/
structure Keeps (transient : String → Prop) (fs fs' : FileSystem) : Prop where
  start_eq : fs'.start = fs.start
  keeps : ∀ file data, fs.metadata file = some data →
    ∃ data', fs'.metadata file = some data' ∧ data.Keeps trusted data'
  writes : ∀ file data, fs.metadata file = some data → trusted data.uid →
    data.othersWrite = false → fs'.contents file = fs.contents file
  entries : ∀ dir name file, fs.Shielded trusted dir name file →
    fs.IsDirectory file ∨ ¬ transient name → fs'.entry dir name = some file

variable {trusted} {transient : String → Prop}

theorem Shielded.not_alterable (h : fs.Shielded trusted dir name file) :
    ¬ fs.Alterable trusted dir name := by
  intro halterable
  obtain ⟨data, hdata, hdirectory, howner, hguard⟩ := h.guarded
  rcases halterable data hdata hdirectory with huntrusted | ⟨hwrite, hsticky⟩
  · exact huntrusted howner
  · rcases hguard with hclosed | ⟨hbit, there, hthere, htrusted⟩
    · rw [hwrite] at hclosed
      cases hclosed
    · exact hsticky hbit file there h.named hthere htrusted

theorem Tampered.entry (h : fs.Tampered trusted fs')
    (hshielded : fs.Shielded trusted dir name file) :
    fs'.entry dir name = some file := by
  by_contra hne
  rw [← hshielded.named] at hne
  exact hshielded.not_alterable (h.entries dir name hne)

theorem Tampered.isSome (h : fs.Tampered trusted fs') (hfile : (fs.metadata file).isSome = true) :
    (fs'.metadata file).isSome = true := by
  obtain ⟨data, hdata⟩ := Option.isSome_iff_exists.mp hfile
  obtain ⟨data', hdata', -⟩ := h.keeps file data hdata
  exact Option.isSome_of_eq_some hdata'

theorem Tampered.toKeeps (h : fs.Tampered trusted fs') : fs.Keeps trusted transient fs' where
  start_eq := h.start_eq
  keeps := h.keeps
  writes := h.writes
  entries := fun _ _ _ hshielded _ => h.entry hshielded

/-- A file that loses a name loses no more than a link. -/
theorem unlink_metadata_keeps {old : Metadata} (hold : fs.metadata file = some old) :
    ∃ there, (fs.unlink dir name).metadata file = some there ∧ old.Keeps trusted there := by
  refine ⟨_, Option.map_eq_some_iff.mpr ⟨old, hold, rfl⟩, ?_⟩
  split <;> exact ⟨rfl, rfl, fun _ => ⟨rfl, rfl, rfl⟩⟩

/-- Others may make a file of their own under a name that they may alter, whether or not there
is a file of that name. -/
theorem make_tampered (hstranger : ¬ trusted data.uid)
    (halterable : fs.Alterable trusted dir name) :
    fs.Tampered trusted (fs.make dir name data) where
  start_eq := rfl
  keeps := fun _ old hold => ⟨old, make_metadata_of_some hold, .refl old⟩
  writes := fun _ _ hold _ _ => Function.update_of_ne (ne_count_of_some hold) _ _
  brings := by
    intro file there hnone hthere
    by_cases hfile : file = fs.count
    · rw [hfile, make_metadata_self] at hthere
      cases hthere
      exact hstranger
    · have hsame : (fs.make dir name data).metadata file = fs.metadata file :=
        Function.update_of_ne hfile _ _
      rw [hsame, hnone] at hthere
      cases hthere
  entries := by
    intro dir' name' hchanged
    by_cases hnew : dir' = fs.count
    · intro there hthere
      exact absurd hnew (ne_count_of_some hthere)
    · have hplace : dir' = dir ∧ name' = name := by
        by_contra helse
        exact hchanged (make_entry_of_ne (not_and_or.mp helse) hnew)
      obtain ⟨rfl, rfl⟩ := hplace
      exact halterable

/-- Others may take away a name that they may alter. The file that it was the name of stays as
it is, with a link less. -/
theorem unlink_tampered (halterable : fs.Alterable trusted dir name) :
    fs.Tampered trusted (fs.unlink dir name) where
  start_eq := rfl
  keeps := fun _ _ hold => unlink_metadata_keeps hold
  writes := fun _ _ _ _ _ => rfl
  brings := by
    intro file there hnone hthere
    obtain ⟨old, hold, -⟩ := Option.map_eq_some_iff.mp hthere
    rw [hnone] at hold
    cases hold
  entries := by
    intro dir' name' hchanged
    have hplace : dir' = dir ∧ name' = name := by
      by_contra helse
      exact hchanged (unlink_entry_of_ne (not_and_or.mp helse))
    obtain ⟨rfl, rfl⟩ := hplace
    exact halterable

/-- A new file takes no shielded entry away. -/
theorem Shielded.make_entry {dir' : Nat} {name' : String}
    (h : fs.Shielded trusted dir' name' file) (hfree : fs.entry dir name = none) :
    (fs.make dir name data).entry dir' name' = fs.entry dir' name' := by
  apply make_entry_of_ne
  · by_contra hsame
    rw [not_or, not_not, not_not] at hsame
    have hnamed := h.named
    rw [hsame.1, hsame.2, hfree] at hnamed
    cases hnamed
  · obtain ⟨there, hthere, -⟩ := h.guarded
    exact ne_count_of_some hthere

theorem make_keeps (hfree : fs.entry dir name = none) :
    fs.Keeps trusted transient (fs.make dir name data) where
  start_eq := rfl
  keeps := fun _ old hold => ⟨old, make_metadata_of_some hold, .refl old⟩
  writes := by
    intro file old hold _ _
    exact Function.update_of_ne (ne_count_of_some hold) _ _
  entries := by
    intro dir' name' file' hshielded _
    exact (hshielded.make_entry hfree).trans hshielded.named

theorem unlink_keeps (htransient : transient name)
    (hfile : ∀ file, fs.entry dir name = some file → ¬ fs.IsDirectory file) :
    fs.Keeps trusted transient (fs.unlink dir name) where
  start_eq := rfl
  keeps := fun _ _ hold => unlink_metadata_keeps hold
  writes := fun _ _ _ _ _ => rfl
  entries := by
    intro dir' name' file' hshielded hlasting
    rw [unlink_entry_of_ne]
    · exact hshielded.named
    · by_contra hsame
      rw [not_or, not_not, not_not] at hsame
      obtain ⟨rfl, rfl⟩ := hsame
      exact hlasting.elim (hfile file' hshielded.named) fun hname => hname htransient

namespace Keeps

theorem refl (fs : FileSystem) : fs.Keeps trusted transient fs where
  start_eq := rfl
  keeps := fun _ data hdata => ⟨data, hdata, .refl data⟩
  writes := fun _ _ _ _ _ => rfl
  entries := fun _ _ _ hshielded _ => hshielded.named

variable (h : fs.Keeps trusted transient fs')

include h

theorem isDirectory (hfile : fs.IsDirectory file) : fs'.IsDirectory file := by
  obtain ⟨data, hdata, htype⟩ := hfile
  obtain ⟨data', hdata', hkeeps⟩ := h.keeps file data hdata
  exact ⟨data', hdata', hkeeps.fileType_eq.trans htype⟩

/-- An entry that is there as before is shielded as before. -/
theorem shielded_of_entry (hshielded : fs.Shielded trusted dir name file)
    (hentry : fs'.entry dir name = some file) : fs'.Shielded trusted dir name file := by
  obtain ⟨data, hdata, hdirectory, howner, hguard⟩ := hshielded.guarded
  obtain ⟨data', hdata', hkeeps⟩ := h.keeps dir data hdata
  refine ⟨hentry, data', hdata', hkeeps.fileType_eq.trans hdirectory,
    by rw [hkeeps.uid_eq]; exact howner, ?_⟩
  unfold Metadata.othersWrite Metadata.sticky at hguard ⊢
  rw [hkeeps.mode_eq howner]
  refine hguard.imp_right fun ⟨hsticky, there, hthere, htrusted⟩ => ?_
  obtain ⟨there', hthere', hkeeps'⟩ := h.keeps file there hthere
  exact ⟨hsticky, there', hthere', by rw [hkeeps'.uid_eq]; exact htrusted⟩

theorem shielded (hshielded : fs.Shielded trusted dir name file)
    (hlasting : fs.IsDirectory file ∨ ¬ transient name) : fs'.Shielded trusted dir name file :=
  h.shielded_of_entry hshielded (h.entries dir name file hshielded hlasting)

theorem sheltering (hdir : fs.Sheltering trusted dir) : fs'.Sheltering trusted dir := by
  obtain ⟨data, hdata, hdirectory, howner, hguard⟩ := hdir
  obtain ⟨data', hdata', hkeeps⟩ := h.keeps dir data hdata
  refine ⟨data', hdata', hkeeps.fileType_eq.trans hdirectory,
    by rw [hkeeps.uid_eq]; exact howner, ?_⟩
  unfold Metadata.othersWrite Metadata.sticky at hguard ⊢
  rwa [hkeeps.mode_eq howner]

theorem trans (h' : fs'.Keeps trusted transient fs'') : fs.Keeps trusted transient fs'' where
  start_eq := h'.start_eq.trans h.start_eq
  keeps := by
    intro file data hdata
    obtain ⟨data', hdata', hkeeps⟩ := h.keeps file data hdata
    obtain ⟨data'', hdata'', hkeeps'⟩ := h'.keeps file data' hdata'
    exact ⟨data'', hdata'', hkeeps.trans hkeeps'⟩
  writes := by
    intro file data hdata htrusted hclosed
    obtain ⟨data', hdata', hkeeps⟩ := h.keeps file data hdata
    have hclosed' : data'.othersWrite = false := by
      unfold Metadata.othersWrite at hclosed ⊢
      rwa [hkeeps.mode_eq htrusted]
    rw [h'.writes file data' hdata' (by rw [hkeeps.uid_eq]; exact htrusted) hclosed']
    exact h.writes file data hdata htrusted hclosed
  entries := fun dir name file hshielded hlasting =>
    h'.entries dir name file (h.shielded hshielded hlasting)
      (hlasting.imp_left h.isDirectory)

end Keeps

namespace Solid

variable {start target : Nat} {names : List String}

/-- What leads on along a shielded path is a directory. -/
theorem directory_of_cons (h : fs.Solid trusted start (name :: names) target) :
    fs.IsDirectory start := by
  obtain ⟨next, hshielded, -⟩ := h
  obtain ⟨data, hdata, hdirectory, -⟩ := hshielded.guarded
  exact ⟨data, hdata, hdirectory⟩

theorem unique {target' : Nat} (h : fs.Solid trusted start names target)
    (h' : fs.Solid trusted start names target') : target' = target := by
  induction names generalizing start with
  | nil => exact Eq.trans h' (Eq.symm h)
  | cons name rest ih =>
      obtain ⟨next, hshielded, hrest⟩ := h
      obtain ⟨next', hshielded', hrest'⟩ := h'
      obtain rfl : next' = next :=
        Option.some.inj (hshielded'.named.symm.trans hshielded.named)
      exact ih hrest hrest'

theorem append {middle : Nat} {more : List String} (h : fs.Solid trusted start names middle)
    (h' : fs.Solid trusted middle more target) : fs.Solid trusted start (names ++ more) target := by
  induction names generalizing start with
  | nil =>
      cases h
      exact h'
  | cons name rest ih =>
      obtain ⟨next, hshielded, hrest⟩ := h
      exact ⟨next, hshielded, ih hrest⟩

theorem concat (h : fs.Solid trusted start names dir) (h' : fs.Shielded trusted dir name file) :
    fs.Solid trusted start (names ++ [name]) file :=
  h.append ⟨file, h', rfl⟩

theorem walk_eq (h : fs.Solid trusted start names target) (hdir : fs.IsDirectory target) :
    fs.walk start names = some target := by
  induction names generalizing start with
  | nil =>
      cases h
      rfl
  | cons name rest ih =>
      obtain ⟨next, hshielded, hrest⟩ := h
      have hnext : fs.IsDirectory next := by
        cases rest with
        | nil =>
            cases hrest
            exact hdir
        | cons name' rest' => exact hrest.directory_of_cons
      obtain ⟨data, hdata, hdirectory⟩ := hnext
      have henter : fs.enter next = some next := by
        unfold enter
        rw [hdata, Option.bind_some, hdirectory]
      rw [walk, hshielded.named, Option.bind_some, henter, Option.bind_some, ih hrest]

/-- A path stays as it is if its last name is that of a directory or lasting. -/
theorem kept (h : fs.Solid trusted start names target) (hkeeps : fs.Keeps trusted transient fs')
    (hlasting : fs.IsDirectory target ∨ ∀ name, names.getLast? = some name → ¬ transient name) :
    fs'.Solid trusted start names target := by
  induction names generalizing start with
  | nil => exact h
  | cons name rest ih =>
      obtain ⟨next, hshielded, hrest⟩ := h
      cases rest with
      | nil =>
          cases hrest
          exact ⟨target, hkeeps.shielded hshielded (hlasting.imp_right fun hname =>
            hname name rfl), rfl⟩
      | cons name' rest' =>
          refine ⟨next, hkeeps.shielded hshielded (.inl hrest.directory_of_cons),
            ih hrest (hlasting.imp_right fun hname other hother => ?_)⟩
          exact hname other (by rw [List.getLast?_cons_cons]; exact hother)

end Solid

theorem start_join (fs : FileSystem) (route : Route) (name : String) :
    fs.start (route.join name) = fs.start route := rfl

theorem locate_join {route : Route} (hwalk : fs.walk (fs.start route) route.names = some dir) :
    fs.locate (route.join name) = some (dir, name) := by
  have hlocate : fs.locate (route.join name) =
      (fs.walk (fs.start route) route.names).map fun dir => (dir, name) := by
    rw [locate, start_join]
    simp [Route.join]
  rw [hlocate, hwalk]
  rfl

/-- Where a file could be made, there is no slash. -/
theorem slashed_of_locate {route : Route} (hlocate : fs.locate route = some (dir, name)) :
    route.slashed = false := by
  unfold locate at hlocate
  split at hlocate
  · cases hlocate
  · next hslash => exact Bool.not_eq_true _ |>.mp hslash

theorem find_of_slashed {route : Route} (h : route.slashed = true) :
    fs.find route = fs.walk (fs.start route) route.names := by
  rw [find, if_pos h]

theorem find_eq_bind {route : Route} (h : route.slashed = false) :
    fs.find route = (fs.locate route).bind fun place => fs.entry place.1 place.2 := by
  rw [find, if_neg (by simp [h])]

theorem find_of_locate {route : Route} (hlocate : fs.locate route = some (dir, name)) :
    fs.find route = fs.entry dir name := by
  rw [find_eq_bind (slashed_of_locate hlocate), hlocate, Option.bind_some]

theorem find_join {route : Route} (hwalk : fs.walk (fs.start route) route.names = some dir) :
    fs.find (route.join name) = fs.entry dir name :=
  find_of_locate (locate_join hwalk)

/-- A path is as if its last name were joined to the others. -/
theorem exists_join {route : Route} (hslash : route.slashed = false) (hnames : route.names ≠ []) :
    ∃ front name, route = Route.join front name := by
  obtain ⟨absolute, names, slashed⟩ := route
  obtain rfl : slashed = false := hslash
  obtain ⟨front, last, rfl⟩ := (List.eq_nil_or_concat names).resolve_left hnames
  exact ⟨⟨absolute, front, false⟩, last, by simp [Route.join, List.concat_eq_append]⟩

theorem Solid.split {start target : Nat} {names : List String}
    (h : fs.Solid trusted start (names ++ [name]) target) :
    ∃ dir, fs.Solid trusted start names dir ∧ fs.Shielded trusted dir name target := by
  induction names generalizing start with
  | nil =>
      obtain ⟨next, hshielded, rfl⟩ := h
      exact ⟨start, rfl, hshielded⟩
  | cons first rest ih =>
      obtain ⟨next, hshielded, hrest⟩ := h
      obtain ⟨dir, hdir, hlast⟩ := ih hrest
      exact ⟨dir, ⟨next, hshielded, hdir⟩, hlast⟩

theorem Shielded.isDirectory (h : fs.Shielded trusted dir name file) : fs.IsDirectory dir := by
  obtain ⟨data, hdata, hdirectory, -⟩ := h.guarded
  exact ⟨data, hdata, hdirectory⟩

/-- A path of shielded entries leads to a file, to a directory if there is a slash at its
end. -/
structure Guides (trusted : Nat → Prop) (fs : FileSystem) (route : Route) (target : Nat) :
    Prop where
  solid : fs.Solid trusted (fs.start route) route.names target
  ends : if route.slashed then fs.IsDirectory target else route.names ≠ []

namespace Guides

variable {route : Route} {target : Nat}

theorem unique {target' : Nat} (h : fs.Guides trusted route target)
    (h' : fs.Guides trusted route target') : target' = target :=
  h.solid.unique h'.solid

/-- A shielded path names what it leads to. -/
theorem find_eq (h : fs.Guides trusted route target) : fs.find route = some target := by
  have hends := h.ends
  split at hends
  · next hslash =>
      rw [find_of_slashed hslash]
      exact h.solid.walk_eq hends
  · next hslash =>
      obtain ⟨front, name, rfl⟩ := exists_join (Bool.not_eq_true _ |>.mp hslash) hends
      obtain ⟨dir, hdir, hlast⟩ := Solid.split h.solid
      rw [find_join (hdir.walk_eq hlast.isDirectory), hlast.named]

theorem walk_eq (h : fs.Guides trusted route dir) (hdir : fs.IsDirectory dir) :
    fs.walk (fs.start route) route.names = some dir :=
  h.solid.walk_eq hdir

theorem join (h : fs.Guides trusted route dir) (h' : fs.Shielded trusted dir name file) :
    fs.Guides trusted (route.join name) file where
  solid := h.solid.concat h'
  ends := by simp [Route.join]

/-- A path stays as it is if its last name is that of a directory or lasting. -/
theorem kept (h : fs.Guides trusted route target) (hkeeps : fs.Keeps trusted transient fs')
    (hlasting : fs.IsDirectory target ∨
      ∀ name, route.names.getLast? = some name → ¬ transient name) :
    fs'.Guides trusted route target where
  solid := by
    rw [hkeeps.start_eq]
    exact h.solid.kept hkeeps hlasting
  ends := by
    have hends := h.ends
    by_cases hslash : route.slashed = true
    · rw [if_pos hslash] at hends ⊢
      exact hkeeps.isDirectory hends
    · rw [if_neg hslash] at hends ⊢
      exact hends

end Guides

theorem Sheltering.isDirectory (h : fs.Sheltering trusted dir) : fs.IsDirectory dir := by
  obtain ⟨data, hdata, hdirectory, -⟩ := h
  exact ⟨data, hdata, hdirectory⟩

/-- A trusted user's file in a sheltering directory is shielded. -/
theorem Sheltering.shielded (h : fs.Sheltering trusted dir) (hentry : fs.entry dir name = some file)
    (hdata : fs.metadata file = some data) (howner : trusted data.uid) :
    fs.Shielded trusted dir name file := by
  obtain ⟨there, hthere, hdirectory, htrusted, hguard⟩ := h
  exact ⟨hentry, there, hthere, hdirectory, htrusted,
    hguard.imp_right fun hsticky => ⟨hsticky, data, hdata, howner⟩⟩

end FileSystem

end Files
