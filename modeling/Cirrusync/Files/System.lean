import Cirrusync.Effect.Pool
import Cirrusync.Files.FileSystem

/-!
Processes of one user on a file system that they share with other users: the calls that
they make, open files and their locks, and what a process may rely on while its siblings
and the other users take their steps.
-/

namespace Files

open Effect

inductive IoErrorKind where
  | notFound
  | alreadyExists
  | wouldBlock
  | other
  deriving DecidableEq, Repr

structure IoError where
  kind : IoErrorKind
  rawOsError : Option Nat
  text : String
  deriving DecidableEq, Repr

/-- What is told of a file. Its number stands for its device and inode numbers. -/
structure Stat where
  file : Nat
  data : Metadata
  size : Nat

inductive Call where
  | lstat (path : String)
  | fstat (handle : Nat)
  | mkdir (path : String) (mode : Nat)
  /-- Open a file that must be new. -/
  | openNew (path : String) (mode : Nat)
  /-- Open a file for writing, which is made if there is none. No link is followed. -/
  | openFile (path : String) (mode : Nat)
  /-- Open a file for reading. No link is followed. -/
  | openRead (path : String)
  /-- What is in a file that has just been opened, up to a limit. -/
  | read (handle limit : Nat)
  | unlink (path : String)
  | tryLock (handle : Nat)
  | unlock (handle : Nat)
  | close (handle : Nat)
  /-- Ask for the extended access list of a file. -/
  | accessAcl (handle : Nat)
  | effectiveUser
  | effectiveGroup
  | clock
  | processId
  | counter
  deriving DecidableEq, Repr

@[reducible] def Answer : Call → Type
  | .lstat _ | .fstat _ => Except IoError Stat
  | .mkdir _ _ | .unlink _ | .tryLock _ => Except IoError Unit
  | .openNew _ _ | .openFile _ _ | .openRead _ => Except IoError Nat
  | .read _ _ => Except IoError (List UInt8)
  | .accessAcl _ => Except IoError Unit
  | .unlock _ | .close _ => Unit
  | .effectiveUser | .effectiveGroup | .clock | .processId | .counter => Nat

/-- The errors that say that a file has no extended attribute of a name: `ENODATA` and
`ENOTSUP`. -/
def noAttribute (error : IoError) : Bool :=
  error.rawOsError == some 61 || error.rawOsError == some 95

/-- The names along a path. -/
def components (path : String) : List String :=
  ((path.toList.splitOn '/').filter fun piece => !piece.isEmpty).map String.ofList

/-- A path as it is followed. -/
def route (path : String) : Route where
  absolute := path.toList.head? == some '/'
  names := components path
  slashed := path.toList.getLast? == some '/'

/-- A name that can stand at the end of a path. -/
structure PlainName (name : String) : Prop where
  nonempty : name.toList ≠ []
  plain : '/' ∉ name.toList

theorem components_under (parent : String) {name : String} (h : PlainName name) :
    components (parent ++ "/" ++ name) = components parent ++ [name] := by
  have hsplit : (parent ++ "/" ++ name).toList.splitOn '/' =
      parent.toList.splitOn '/' ++ [name.toList] := by
    have hchars : (parent ++ "/" ++ name).toList = parent.toList ++ '/' :: name.toList := by
      simp
    rw [hchars, List.splitOn_append_cons_self, List.splitOn_eq_singleton h.plain]
  unfold components
  rw [hsplit, List.filter_append, List.map_append]
  simp [h.nonempty]

/-- The user whose processes these are, the users that they trust, and the names of the
files that they remove again. -/
structure Account where
  uid : Nat
  gid : Nat
  trusted : Nat → Prop
  transient : String → Prop

/-- The processes `ι` have files open and locked. Each open file has a handle, of which
none is used again; a lock belongs to a handle. `maker` remembers which process has made
a file. -/
structure System (ι : Type) where
  fs : FileSystem
  maker : Nat → Option ι
  opened : Nat → Option (ι × Nat)
  locks : Nat → Option Nat
  next : Nat
  made : ∀ file i, maker file = some i → (fs.metadata file).isSome = true
  unopened : ∀ handle, next ≤ handle → opened handle = none
  locked : ∀ file handle, locks file = some handle → ∃ i, opened handle = some (i, file)

namespace System

variable {ι : Type}

/-- The system after a change of its file system, of which no file is lost. -/
def mount (w : System ι) (fs : FileSystem)
    (h : ∀ file, (w.fs.metadata file).isSome = true → (fs.metadata file).isSome = true) :
    System ι :=
  { w with
    fs := fs
    made := fun file i hmaker => h file (w.made file i hmaker) }

def unlink (w : System ι) (dir : Nat) (name : String) : System ι :=
  w.mount (w.fs.unlink dir name) fun _ h => (Option.isSome_map ..).trans h

/-- A process makes a file. -/
def make (w : System ι) (i : ι) (dir : Nat) (name : String) (data : Metadata) : System ι :=
  { w with
    fs := w.fs.make dir name data
    maker := Function.update w.maker w.fs.count (some i)
    made := by
      intro file j hmaker
      by_cases hfile : file = w.fs.count
      · subst hfile
        rw [FileSystem.make_metadata_self]
        rfl
      · rw [Function.update_of_ne hfile] at hmaker
        obtain ⟨old, hold⟩ := Option.isSome_iff_exists.mp (w.made file j hmaker)
        rw [FileSystem.make_metadata_of_some hold]
        rfl }

/-- A process opens a file, as `w.next`. -/
def openAs (w : System ι) (i : ι) (file : Nat) : System ι where
  fs := w.fs
  maker := w.maker
  opened := Function.update w.opened w.next (some (i, file))
  locks := w.locks
  next := w.next + 1
  made := w.made
  unopened := by
    intro handle hhandle
    have hne : handle ≠ w.next := by omega
    rw [Function.update_of_ne hne]
    exact w.unopened handle (by omega)
  locked := by
    intro file' handle hlock
    obtain ⟨j, hopened⟩ := w.locked file' handle hlock
    have hne : handle ≠ w.next := by
      rintro rfl
      rw [w.unopened w.next (Nat.le_refl _)] at hopened
      cases hopened
    exact ⟨j, by rw [Function.update_of_ne hne]; exact hopened⟩

/-- A lock goes to a handle of a file. -/
def lock (w : System ι) (i : ι) (handle file : Nat) (hopened : w.opened handle = some (i, file)) :
    System ι :=
  { w with
    locks := Function.update w.locks file (some handle)
    locked := by
      intro file' handle' hlock
      by_cases hfile : file' = file
      · subst hfile
        rw [Function.update_self] at hlock
        cases hlock
        exact ⟨i, hopened⟩
      · rw [Function.update_of_ne hfile] at hlock
        exact w.locked file' handle' hlock }

/-- A handle gives up its lock. -/
def release (w : System ι) (handle : Nat) : System ι :=
  { w with
    locks := fun file => if w.locks file = some handle then none else w.locks file
    locked := by
      intro file handle' hlock
      split at hlock
      · cases hlock
      · exact w.locked file handle' hlock }

/-- A handle goes, and its lock with it. -/
def shut (w : System ι) (handle : Nat) : System ι where
  fs := w.fs
  maker := w.maker
  opened := Function.update w.opened handle none
  locks := fun file => if w.locks file = some handle then none else w.locks file
  next := w.next
  made := w.made
  unopened := by
    intro handle' hhandle
    by_cases hsame : handle' = handle
    · rw [hsame, Function.update_self]
    · rw [Function.update_of_ne hsame]
      exact w.unopened handle' hhandle
  locked := by
    intro file handle' hlock
    split at hlock
    · cases hlock
    · next hfree =>
        obtain ⟨i, hopened⟩ := w.locked file handle' hlock
        have hne : handle' ≠ handle := by
          rintro rfl
          exact hfree hlock
        exact ⟨i, by rw [Function.update_of_ne hne]; exact hopened⟩

/-- A process owns a handle. -/
def Owns (w : System ι) (i : ι) (handle : Nat) : Prop := ∃ file, w.opened handle = some (i, file)

def Tells (w : System ι) (stat : Stat) : Prop :=
  w.fs.metadata stat.file = some stat.data ∧ stat.size = (w.fs.contents stat.file).length

/-- A new file of a process. Its mode has no more permissions than it was asked for. -/
def Creates (a : Account) (w : System ι) (i : ι) (fileType : FileType) (place : Route)
    (mode : Nat) (w' : System ι) : Prop :=
  ∃ dir name data, w.fs.locate place = some (dir, name) ∧
    w.fs.entry dir name = none ∧ data.fileType = fileType ∧ data.uid = a.uid ∧
    data.mode &&& 0o777 &&& mode = data.mode &&& 0o777 ∧ w' = w.make i dir name data

/-- How the system may answer process `i`. A call that fails may do so for any reason and
leaves the system as it is; one that succeeds does what it says. -/
def answers (a : Account) (w : System ι) (i : ι) : (call : Call) → Answer call →
    System ι → Prop
  | .lstat path, .ok stat, w' =>
      w' = w ∧ w.fs.find (route path) = some stat.file ∧ w.Tells stat
  | .fstat handle, .ok stat, w' =>
      w' = w ∧ w.opened handle = some (i, stat.file) ∧ w.Tells stat
  | .mkdir path mode, .ok _, w' => w.Creates a i .directory (route path).unslashed mode w'
  | .openNew path mode, .ok handle, w' => handle = w.next ∧
      ∃ made, w.Creates a i .regular (route path) mode made ∧ w' = made.openAs i w.fs.count
  | .openFile path mode, .ok handle, w' => handle = w.next ∧
      ((∃ made, w.Creates a i .regular (route path) mode made ∧ w' = made.openAs i w.fs.count) ∨
        ∃ file data, w.fs.find (route path) = some file ∧
          w.fs.metadata file = some data ∧ data.fileType ≠ .symlink ∧
          data.fileType ≠ .directory ∧ w' = w.openAs i file)
  | .openRead path, .ok handle, w' => handle = w.next ∧
      ∃ file data, w.fs.find (route path) = some file ∧
        w.fs.metadata file = some data ∧ data.fileType ≠ .symlink ∧ w' = w.openAs i file
  | .read handle limit, .ok data, w' => w' = w ∧
      ∃ file, w.opened handle = some (i, file) ∧ data = (w.fs.contents file).take limit
  | .unlink path, .ok _, w' => ∃ dir name file,
      w.fs.locate (route path) = some (dir, name) ∧ w.fs.entry dir name = some file ∧
        ¬ w.fs.IsDirectory file ∧ w' = w.unlink dir name
  | .tryLock handle, .ok _, w' => ∃ file, ∃ hopened : w.opened handle = some (i, file),
      w.locks file = none ∧ w' = w.lock i handle file hopened
  | .unlock handle, _, w' => (w.Owns i handle ∧ w' = w.release handle) ∨
      ¬ w.Owns i handle ∧ w' = w
  | .close handle, _, w' => (w.Owns i handle ∧ w' = w.shut handle) ∨
      ¬ w.Owns i handle ∧ w' = w
  | .accessAcl handle, answer, w' => w' = w ∧ ∀ file data error,
      w.opened handle = some (i, file) → w.fs.metadata file = some data →
        answer = .error error → noAttribute error = true → data.acl = false
  | .effectiveUser, answer, w' => answer = a.uid ∧ w' = w
  | .effectiveGroup, answer, w' => answer = a.gid ∧ w' = w
  | _, _, w' => w' = w

/-- The calls that the siblings of a process put up with. It removes only files of its
own that have transient names. -/
def permits (a : Account) (w : System ι) (i : ι) : Call → Prop
  | .unlink path => ∃ dir name file, w.fs.locate (route path) = some (dir, name) ∧
      w.fs.entry dir name = some file ∧ w.maker file = some i ∧ a.transient name
  | _ => True

/-- What the others leave to process `i`: what the file system keeps, the shielded files
that it has made, and its handles with their locks. -/
structure Leaves (a : Account) (i : ι) (w w' : System ι) : Prop where
  keeps : w.fs.Keeps a.trusted a.transient w'.fs
  mine : ∀ dir name file, w.fs.Shielded a.trusted dir name file → w.maker file = some i →
    w'.fs.entry dir name = some file
  maker : ∀ file, w.maker file = some i → w'.maker file = some i
  opened : ∀ handle file, w'.opened handle = some (i, file) ↔ w.opened handle = some (i, file)
  locks : ∀ handle file, w.opened handle = some (i, file) →
    (w'.locks file = some handle ↔ w.locks file = some handle)

variable {a : Account} {i j : ι} {w w' w'' : System ι}

theorem Leaves.refl (i : ι) (w : System ι) : w.Leaves a i w where
  keeps := .refl w.fs
  mine := fun _ _ _ hshielded _ => hshielded.named
  maker := fun _ h => h
  opened := fun _ _ => Iff.rfl
  locks := fun _ _ _ => Iff.rfl

theorem Leaves.trans (h : w.Leaves a i w')
    (h' : w'.Leaves a i w'') : w.Leaves a i w'' where
  keeps := h.keeps.trans h'.keeps
  mine := by
    intro dir name file hshielded hmaker
    have hentry := h.mine dir name file hshielded hmaker
    exact h'.mine dir name file (h.keeps.shielded_of_entry hshielded hentry)
      (h.maker file hmaker)
  maker := fun file hmaker => h'.maker file (h.maker file hmaker)
  opened := fun handle file => (h'.opened handle file).trans (h.opened handle file)
  locks := fun handle file hopened =>
    (h'.locks handle file ((h.opened handle file).mpr hopened)).trans
      (h.locks handle file hopened)

theorem Owns.leaves {handle : Nat} (h : w.Leaves a i w') :
    w'.Owns i handle ↔ w.Owns i handle :=
  exists_congr fun file => h.opened handle file

/-! One call, as the others see it. -/

theorem make_leaves {dir : Nat} {name : String} {data : Metadata}
    (hfree : w.fs.entry dir name = none) :
    w.Leaves a j (w.make i dir name data) where
  keeps := FileSystem.make_keeps hfree
  mine := fun _ _ _ hshielded _ => (hshielded.make_entry hfree).trans hshielded.named
  maker := by
    intro file hmaker
    have hfile : file ≠ w.fs.count := by
      rintro rfl
      have hmade := w.made _ _ hmaker
      rw [w.fs.unmade _ (Nat.le_refl _)] at hmade
      cases hmade
    exact (Function.update_of_ne hfile _ _).trans hmaker
  opened := fun _ _ => Iff.rfl
  locks := fun _ _ _ => Iff.rfl

theorem openAs_leaves {file : Nat} (hne : j ≠ i) :
    w.Leaves a j (w.openAs i file) where
  keeps := .refl w.fs
  mine := fun _ _ _ hshielded _ => hshielded.named
  maker := fun _ hmaker => hmaker
  opened := by
    intro handle file'
    unfold openAs
    by_cases hhandle : handle = w.next
    · subst hhandle
      simp only [Function.update_self, Option.some.injEq, Prod.mk.injEq]
      rw [w.unopened _ (Nat.le_refl _)]
      simp [Ne.symm hne]
    · simp only [Function.update_of_ne hhandle]
  locks := fun _ _ _ => Iff.rfl

theorem unlink_leaves {dir : Nat} {name : String} {file : Nat} (hne : j ≠ i)
    (hentry : w.fs.entry dir name = some file) (hfile : ¬ w.fs.IsDirectory file)
    (hmaker : w.maker file = some i) (htransient : a.transient name) :
    w.Leaves a j (w.unlink dir name) where
  keeps := FileSystem.unlink_keeps htransient fun other hother => by
    obtain rfl := Option.some.inj (hother.symm.trans hentry)
    exact hfile
  mine := by
    intro dir' name' file' hshielded hmaker'
    refine (FileSystem.unlink_entry_of_ne ?_).trans hshielded.named
    by_contra hsame
    rw [not_or, not_not, not_not] at hsame
    obtain ⟨rfl, rfl⟩ := hsame
    obtain rfl := Option.some.inj (hshielded.named.symm.trans hentry)
    exact hne (Option.some.inj (hmaker'.symm.trans hmaker))
  maker := fun _ hmaker => hmaker
  opened := fun _ _ => Iff.rfl
  locks := fun _ _ _ => Iff.rfl

theorem handle_ne {handle handle' file : Nat} (hne : j ≠ i) (hown : w.Owns i handle)
    (hopened : w.opened handle' = some (j, file)) : handle' ≠ handle := by
  rintro rfl
  obtain ⟨file', hfile⟩ := hown
  have hsame := Option.some.inj (hopened.symm.trans hfile)
  exact hne (congrArg Prod.fst hsame)

theorem release_locks_iff {handle handle' file : Nat} (hne : handle' ≠ handle) :
    (w.release handle).locks file = some handle' ↔ w.locks file = some handle' := by
  change (if w.locks file = some handle then none else w.locks file) = some handle' ↔ _
  by_cases hlock : w.locks file = some handle
  · rw [if_pos hlock, hlock]
    simp [Ne.symm hne]
  · rw [if_neg hlock]

theorem release_leaves {handle : Nat} (hne : j ≠ i) (hown : w.Owns i handle) :
    w.Leaves a j (w.release handle) where
  keeps := .refl w.fs
  mine := fun _ _ _ hshielded _ => hshielded.named
  maker := fun _ hmaker => hmaker
  opened := fun _ _ => Iff.rfl
  locks := fun _ _ hopened => release_locks_iff (handle_ne hne hown hopened)

theorem shut_leaves {handle : Nat} (hne : j ≠ i) (hown : w.Owns i handle) :
    w.Leaves a j (w.shut handle) where
  keeps := .refl w.fs
  mine := fun _ _ _ hshielded _ => hshielded.named
  maker := fun _ hmaker => hmaker
  opened := by
    intro handle' file
    unfold shut
    by_cases hsame : handle' = handle
    · subst hsame
      simp only [Function.update_self, reduceCtorEq, false_iff]
      exact fun hopened => handle_ne hne hown hopened rfl
    · simp only [Function.update_of_ne hsame]
  locks := fun _ _ hopened => release_locks_iff (handle_ne hne hown hopened)

theorem lock_leaves {handle file : Nat} {hopened : w.opened handle = some (i, file)}
    (hne : j ≠ i) (hfree : w.locks file = none) :
    w.Leaves a j (w.lock i handle file hopened) where
  keeps := .refl w.fs
  mine := fun _ _ _ hshielded _ => hshielded.named
  maker := fun _ hmaker => hmaker
  opened := fun _ _ => Iff.rfl
  locks := by
    intro handle' file' hopened'
    unfold lock
    by_cases hfile : file' = file
    · subst hfile
      have hhandle := handle_ne hne ⟨_, hopened⟩ hopened'
      simp [hfree, Ne.symm hhandle]
    · simp only [Function.update_of_ne hfile]

theorem creates_leaves {fileType : FileType} {place : Route} {mode : Nat}
    (h : w.Creates a i fileType place mode w') : w.Leaves a j w' := by
  obtain ⟨dir, name, data, -, hfree, -, -, -, rfl⟩ := h
  exact make_leaves hfree

/-- What a permitted call leaves to the siblings of its process. -/
theorem answers_leaves {call : Call} {answer : Answer call} (hne : j ≠ i)
    (hpermits : w.permits a i call) (h : w.answers a i call answer w') :
    w.Leaves a j w' := by
  have hsame : w' = w → w.Leaves a j w' := by
    rintro rfl
    exact .refl j w'
  cases call with
  | lstat path | fstat handle =>
      cases answer with
      | error error => exact hsame h
      | ok stat => exact hsame h.1
  | mkdir path mode =>
      cases answer with
      | error error => exact hsame h
      | ok value => exact creates_leaves h
  | openNew path mode =>
      cases answer with
      | error error => exact hsame h
      | ok handle =>
          obtain ⟨-, made, hmade, rfl⟩ := h
          exact (creates_leaves hmade).trans (openAs_leaves hne)
  | openFile path mode =>
      cases answer with
      | error error => exact hsame h
      | ok handle =>
          obtain ⟨-, ⟨made, hmade, rfl⟩ | ⟨file, data, -, -, -, -, rfl⟩⟩ := h
          · exact (creates_leaves hmade).trans (openAs_leaves hne)
          · exact openAs_leaves hne
  | openRead path =>
      cases answer with
      | error error => exact hsame h
      | ok handle =>
          obtain ⟨-, file, data, -, -, -, rfl⟩ := h
          exact openAs_leaves hne
  | read handle limit =>
      cases answer with
      | error error => exact hsame h
      | ok data => exact hsame h.1
  | unlink path =>
      cases answer with
      | error error => exact hsame h
      | ok value =>
          obtain ⟨dir, name, file, hlocate, hentry, hfile, rfl⟩ := h
          obtain ⟨dir', name', file', hlocate', hentry', hmaker, htransient⟩ := hpermits
          obtain ⟨rfl, rfl⟩ := Prod.mk.inj (Option.some.inj (hlocate'.symm.trans hlocate))
          obtain rfl := Option.some.inj (hentry'.symm.trans hentry)
          exact unlink_leaves hne hentry hfile hmaker htransient
  | tryLock handle =>
      cases answer with
      | error error => exact hsame h
      | ok value =>
          obtain ⟨file, hopened, hfree, rfl⟩ := h
          exact lock_leaves hne hfree
  | unlock handle =>
      obtain ⟨hown, rfl⟩ | ⟨-, rfl⟩ := h
      · exact release_leaves hne hown
      · exact .refl j w'
  | close handle =>
      obtain ⟨hown, rfl⟩ | ⟨-, rfl⟩ := h
      · exact shut_leaves hne hown
      · exact .refl j w'
  | accessAcl handle => exact hsame h.1
  | effectiveUser | effectiveGroup => exact hsame h.2
  | clock | processId | counter => exact hsame h

/-- What the calls of a process keep of the file system, for the process itself too. -/
theorem answers_keeps {call : Call} {answer : Answer call}
    (hpermits : w.permits a i call) (h : w.answers a i call answer w') :
    w.fs.Keeps a.trusted a.transient w'.fs := by
  have hsame : w'.fs = w.fs → w.fs.Keeps a.trusted a.transient w'.fs := by
    intro hfs
    rw [hfs]
    exact .refl w.fs
  have hcreates : ∀ {fileType place mode made}, w.Creates a i fileType place mode made →
      w.fs.Keeps a.trusted a.transient made.fs := fun hmade =>
    (creates_leaves (j := i) hmade).keeps
  cases call with
  | mkdir path mode =>
      cases answer with
      | error error => exact hsame (congrArg fs h)
      | ok value => exact hcreates h
  | openNew path mode =>
      cases answer with
      | error error => exact hsame (congrArg fs h)
      | ok handle =>
          obtain ⟨-, made, hmade, rfl⟩ := h
          have hkept := hcreates hmade
          exact hkept
  | openFile path mode =>
      cases answer with
      | error error => exact hsame (congrArg fs h)
      | ok handle =>
          obtain ⟨-, ⟨made, hmade, rfl⟩ | ⟨file, data, -, -, -, -, rfl⟩⟩ := h
          · have hkept := hcreates hmade
            exact hkept
          · exact hsame rfl
  | unlink path =>
      cases answer with
      | error error => exact hsame (congrArg fs h)
      | ok value =>
          obtain ⟨dir, name, file, hlocate, hentry, hfile, rfl⟩ := h
          obtain ⟨dir', name', file', hlocate', hentry', hmaker, htransient⟩ := hpermits
          obtain ⟨rfl, rfl⟩ := Prod.mk.inj (Option.some.inj (hlocate'.symm.trans hlocate))
          refine FileSystem.unlink_keeps htransient fun other hother => ?_
          obtain rfl := Option.some.inj (hother.symm.trans hentry)
          exact hfile
  | lstat path | fstat handle | read handle limit =>
      cases answer with
      | error error => exact hsame (congrArg fs h)
      | ok value => exact hsame (congrArg fs h.1)
  | openRead path =>
      cases answer with
      | error error => exact hsame (congrArg fs h)
      | ok handle =>
          obtain ⟨-, file, data, -, -, -, rfl⟩ := h
          exact hsame rfl
  | tryLock handle =>
      cases answer with
      | error error => exact hsame (congrArg fs h)
      | ok value =>
          obtain ⟨file, hopened, hfree, rfl⟩ := h
          exact hsame rfl
  | unlock handle | close handle =>
      obtain ⟨hown, rfl⟩ | ⟨-, rfl⟩ := h
      · exact hsame rfl
      · exact hsame rfl
  | accessAcl handle => exact hsame (congrArg fs h.1)
  | effectiveUser | effectiveGroup => exact hsame (congrArg fs h.2)
  | clock | processId | counter => exact hsame (congrArg fs h)

end System

/-! Processes that run in turn, while other users do what they can. -/

section

variable {ι : Type} (a : Account)

/-- The system as the world of its processes, which other users tamper with. -/
def world : World Answer ι (System ι) where
  answers := System.answers a
  moves := fun w w' => ∃ fs h, w.fs.Tampered a.trusted fs ∧ w' = w.mount fs h

/-- The contract of a process, in the system that it is part of. -/
def contract : Contract Answer (ι × System ι) where
  interferes := fun s s' => s'.1 = s.1 ∧ s.2.Leaves a s.1 s'.2
  permits := fun s call => s.2.permits a s.1 call
  advances := fun s call answer s' => s'.1 = s.1 ∧ s.2.answers a s.1 call answer s'.2
  interferes_refl := fun s => ⟨rfl, .refl s.1 s.2⟩
  interferes_trans := by
    rintro ⟨i, w⟩ ⟨_, w'⟩ ⟨_, w''⟩ ⟨rfl, h⟩ ⟨rfl, h'⟩
    exact ⟨rfl, h.trans h'⟩

/-- Each process sees the whole system. -/
def Agrees (w : System ι) (views : ι → ι × System ι) : Prop := views = fun i => (i, w)

variable {a}

theorem mount_leaves {w : System ι} {i : ι} {fs : FileSystem} {h}
    (htampered : w.fs.Tampered a.trusted fs) : w.Leaves a i (w.mount fs h) where
  keeps := htampered.toKeeps
  mine := fun _ _ _ hshielded _ => htampered.entry hshielded
  maker := fun _ hmaker => hmaker
  opened := fun _ _ => Iff.rfl
  locks := fun _ _ _ => Iff.rfl

theorem mount_moves {w : System ι} {fs : FileSystem} (htampered : w.fs.Tampered a.trusted fs) :
    (world a).moves w (w.mount fs fun _ => htampered.isSome) :=
  ⟨fs, _, htampered, rfl⟩

/-- Processes that keep to the contract may rely on it. -/
theorem rely [DecidableEq ι] {Task β : Type} {tasks : Tasks Answer Task β}
    {post : Task → β → ι × System ι → Prop}
    (hturn : ∀ {task value task' s}, tasks.follows task value task' → post task value s →
      Holds (contract a) (post task') (tasks.code task') s) :
    Rely tasks (world a) (contract a) post Agrees where
  ask := by
    rintro w views i op answer w' rfl hpermits hanswers
    refine ⟨fun j => (j, w'), rfl, ⟨rfl, hanswers⟩, fun j hj => ⟨rfl, ?_⟩⟩
    exact System.answers_leaves hj hpermits hanswers
  turn := hturn
  move := by
    rintro w views w' rfl ⟨fs, h, htampered, rfl⟩
    exact ⟨fun j => (j, w.mount fs h), rfl, fun j => ⟨rfl, mount_leaves (h := h) htampered⟩⟩

variable {α : Type} {post : α → ι × System ι → Prop} {i : ι} {w : System ι}

theorem holds_done {value : α} (h : ∀ w', w.Leaves a i w' → post value (i, w')) :
    Holds (contract a) post (.done value) (i, w) := by
  rintro ⟨_, w'⟩ ⟨rfl, hleaves⟩
  exact h w' hleaves

theorem holds_call {call : Call} {next : Answer call → Program Answer α}
    (h : ∀ w', w.Leaves a i w' → w'.permits a i call ∧
      ∀ answer w'', w'.answers a i call answer w'' →
        Holds (contract a) post (next answer) (i, w'')) :
    Holds (contract a) post (.ask call next) (i, w) := by
  rintro ⟨_, w'⟩ ⟨rfl, hleaves⟩
  obtain ⟨hpermits, hnext⟩ := h w' hleaves
  refine ⟨hpermits, ?_⟩
  rintro answer ⟨_, w''⟩ ⟨rfl, hanswers⟩
  exact hnext answer w'' hanswers

end

end Files
