import Cirrusync.Effect.Simulation
import Cirrusync.Files.Triple

/-!
A host on which nothing fails that can be done. One process has it to itself for the time
of a program, so that what its calls lead to can be told from the state that they are made
in. Such a host exists, and all that it does the system may do.
-/

namespace Files

open Effect

namespace System

variable {ι : Type}

/-- What is promised beyond `answers`: files are made with the mode that was asked for, and
a call fails only if what it asks for cannot be had, as its error says. -/
def obliges (w : System ι) (i : ι) : (call : Call) → Answer call → System ι → Prop
  | .lstat path, .error error, _ => error.kind = .notFound ∧
      ∀ file, w.fs.find (route path) = some file → w.fs.metadata file = none
  | .fstat handle, .error _, _ => ∀ file,
      w.opened handle = some (i, file) → w.fs.metadata file = none
  | .mkdir _ mode, .ok _, w' =>
      ∀ data, w'.fs.metadata w.fs.count = some data → data.mode = mode
  | .mkdir path _, .error error, _ => ∀ dir name,
      w.fs.locate (route path).unslashed = some (dir, name) →
        (w.fs.entry dir name).isSome = true ∧ error.kind = .alreadyExists
  | .openNew _ mode, .ok _, w' =>
      ∀ data, w'.fs.metadata w.fs.count = some data → data.mode = mode ∧ data.nlink = 1
  | .openNew path _, .error error, _ => ∀ dir name,
      w.fs.locate (route path) = some (dir, name) →
        (w.fs.entry dir name).isSome = true ∧ error.kind = .alreadyExists
  | .openFile _ mode, .ok _, w' =>
      ∀ data, w'.fs.metadata w.fs.count = some data → data.mode = mode ∧ data.nlink = 1
  | .openFile path _, .error _, _ => ∀ dir name,
      w.fs.locate (route path) = some (dir, name) → ∃ file data,
        w.fs.entry dir name = some file ∧ w.fs.metadata file = some data ∧
          (data.fileType = .symlink ∨ data.fileType = .directory)
  | .openRead path, .error _, _ => ∀ file data,
      w.fs.find (route path) = some file → w.fs.metadata file = some data →
        data.fileType = .symlink
  | .read handle _, .error _, _ => ¬ w.Owns i handle
  | .unlink path, .error _, _ => ∀ dir name file,
      w.fs.locate (route path) = some (dir, name) → w.fs.entry dir name = some file →
        w.fs.IsDirectory file
  | .tryLock handle, .error error, _ => ∀ file,
      w.opened handle = some (i, file) → (w.locks file).isSome = true ∧ error.kind = .wouldBlock
  | .accessAcl handle, answer, _ => ∀ file data,
      w.opened handle = some (i, file) → w.fs.metadata file = some data → data.acl = false →
        ∃ error, answer = .error error ∧ noAttribute error = true
  | _, _, _ => True

end System

section

variable {ι α : Type} (a : Account) (i : ι)

/-- A process that has a faultless host to itself. -/
def faultless : Contract Answer (System ι) :=
  .solo (fun _ _ => True) fun w call answer w' =>
    w.answers a i call answer w' ∧ w.obliges i call answer w'

/-- What a program comes to on a faultless host. -/
def Attains (w : System ι) (p : Program Answer α) (post : α → System ι → Prop) : Prop :=
  Holds (faultless a i) post p w

end

section

variable {ι α β ε : Type} {a : Account} {i : ι} {w : System ι} {post : α → System ι → Prop}

theorem attains_done {value : α} : Attains a i w (.done value) post ↔ post value w :=
  holds_solo_done

theorem attains_mono {post' : α → System ι → Prop} {p : Program Answer α}
    (h : Attains a i w p post) (himp : ∀ value w', post value w' → post' value w') :
    Attains a i w p post' :=
  holds_mono h himp

theorem attains_bind {p : Program Answer β} {f : β → Program Answer α}
    (h : Attains a i w p fun value w' => Attains a i w' (f value) post) :
    Attains a i w (p >>= f) post :=
  holds_bind h

theorem attains_ask {request : Call} {next : Answer request → Program Answer α}
    (h : ∀ answer w', w.answers a i request answer w' → w.obliges i request answer w' →
      Attains a i w' (next answer) post) :
    Attains a i w (.ask request next) post :=
  holds_solo_ask.mpr ⟨trivial, fun answer w' hadvances => h answer w' hadvances.1 hadvances.2⟩

/-! The calls. -/

section

variable {path : String} {handle file dir mode : Nat} {name : String} {data : Metadata}

theorem attains_lstat {next : Answer (.lstat path) → Program Answer α}
    (hfind : w.fs.find (route path) = some file) (hdata : w.fs.metadata file = some data)
    (h : Attains a i w (next (.ok ⟨file, data, (w.fs.contents file).length⟩)) post) :
    Attains a i w (.ask (.lstat path) next) post := by
  refine attains_ask fun answer w' hanswers hobliges => ?_
  cases answer with
  | error error =>
      rw [hobliges.2 file hfind] at hdata
      cases hdata
  | ok stat =>
      obtain ⟨rfl, hfound, htold, hsize⟩ := hanswers
      obtain ⟨told, there, size⟩ := stat
      obtain rfl : file = told := Option.some.inj (hfind.symm.trans hfound)
      obtain rfl : data = there := Option.some.inj (hdata.symm.trans htold)
      obtain rfl : size = (w'.fs.contents file).length := hsize
      exact h

theorem attains_lstat_absent {next : Answer (.lstat path) → Program Answer α}
    (hfind : w.fs.find (route path) = none)
    (h : ∀ error, error.kind = .notFound → Attains a i w (next (.error error)) post) :
    Attains a i w (.ask (.lstat path) next) post := by
  refine attains_ask fun answer w' hanswers hobliges => ?_
  cases answer with
  | error error =>
      obtain rfl : w' = w := hanswers
      exact h error hobliges.1
  | ok stat =>
      obtain ⟨-, hfound, -⟩ := hanswers
      rw [hfind] at hfound
      cases hfound

theorem attains_fstat {next : Answer (.fstat handle) → Program Answer α}
    (hopened : w.opened handle = some (i, file)) (hdata : w.fs.metadata file = some data)
    (h : Attains a i w (next (.ok ⟨file, data, (w.fs.contents file).length⟩)) post) :
    Attains a i w (.ask (.fstat handle) next) post := by
  refine attains_ask fun answer w' hanswers hobliges => ?_
  cases answer with
  | error error =>
      rw [hobliges file hopened] at hdata
      cases hdata
  | ok stat =>
      obtain ⟨rfl, hfound, htold, hsize⟩ := hanswers
      obtain ⟨told, there, size⟩ := stat
      obtain rfl : file = told := congrArg Prod.snd (Option.some.inj (hopened.symm.trans hfound))
      obtain rfl : data = there := Option.some.inj (hdata.symm.trans htold)
      obtain rfl : size = (w'.fs.contents file).length := hsize
      exact h

theorem attains_mkdir {next : Answer (.mkdir path mode) → Program Answer α}
    (hlocate : w.fs.locate (route path).unslashed = some (dir, name))
    (hfree : w.fs.entry dir name = none)
    (h : ∀ data : Metadata, data.fileType = .directory → data.uid = a.uid → data.mode = mode →
      Attains a i (w.make i dir name data) (next (.ok ())) post) :
    Attains a i w (.ask (.mkdir path mode) next) post := by
  refine attains_ask fun answer w' hanswers hobliges => ?_
  cases answer with
  | error error =>
      have hthere := (hobliges dir name hlocate).1
      rw [hfree] at hthere
      cases hthere
  | ok value =>
      obtain ⟨dir', name', data, hlocate', -, hdirectory, howner, -, rfl⟩ := hanswers
      rw [hlocate] at hlocate'
      cases hlocate'
      exact h data hdirectory howner (hobliges data FileSystem.make_metadata_self)

theorem attains_mkdir_there {next : Answer (.mkdir path mode) → Program Answer α}
    (hlocate : w.fs.locate (route path).unslashed = some (dir, name))
    (hentry : w.fs.entry dir name = some file)
    (h : ∀ error, error.kind = .alreadyExists → Attains a i w (next (.error error)) post) :
    Attains a i w (.ask (.mkdir path mode) next) post := by
  refine attains_ask fun answer w' hanswers hobliges => ?_
  cases answer with
  | error error =>
      obtain rfl : w' = w := hanswers
      exact h error (hobliges dir name hlocate).2
  | ok value =>
      obtain ⟨dir', name', data, hlocate', hfree, -, -, -, -⟩ := hanswers
      rw [hlocate] at hlocate'
      cases hlocate'
      rw [hentry] at hfree
      cases hfree

theorem attains_openNew {next : Answer (.openNew path mode) → Program Answer α}
    (hlocate : w.fs.locate (route path) = some (dir, name))
    (hfree : w.fs.entry dir name = none)
    (h : ∀ data : Metadata, data.fileType = .regular → data.uid = a.uid → data.mode = mode →
      data.nlink = 1 →
      Attains a i ((w.make i dir name data).openAs i w.fs.count) (next (.ok w.next)) post) :
    Attains a i w (.ask (.openNew path mode) next) post := by
  refine attains_ask fun answer w' hanswers hobliges => ?_
  cases answer with
  | error error =>
      have hthere := (hobliges dir name hlocate).1
      rw [hfree] at hthere
      cases hthere
  | ok opened =>
      obtain ⟨rfl, made, ⟨dir', name', data, hlocate', -, hregular, howner, -, rfl⟩, rfl⟩ :=
        hanswers
      rw [hlocate] at hlocate'
      cases hlocate'
      obtain ⟨hmode, hlinks⟩ := hobliges data FileSystem.make_metadata_self
      exact h data hregular howner hmode hlinks

theorem attains_openFile_new {next : Answer (.openFile path mode) → Program Answer α}
    (hlocate : w.fs.locate (route path) = some (dir, name))
    (hfree : w.fs.entry dir name = none)
    (h : ∀ data : Metadata, data.fileType = .regular → data.uid = a.uid → data.mode = mode →
      data.nlink = 1 →
      Attains a i ((w.make i dir name data).openAs i w.fs.count) (next (.ok w.next)) post) :
    Attains a i w (.ask (.openFile path mode) next) post := by
  have hfind : ∀ file, w.fs.find (route path) ≠ some file := by
    intro file hfind
    rw [FileSystem.find_of_locate hlocate, hfree] at hfind
    cases hfind
  refine attains_ask fun answer w' hanswers hobliges => ?_
  cases answer with
  | error error =>
      obtain ⟨file, data, hentry, -⟩ := hobliges dir name hlocate
      rw [hfree] at hentry
      cases hentry
  | ok opened =>
      obtain ⟨rfl, ⟨made, ⟨dir', name', data, hlocate', -, hregular, howner, -, rfl⟩, rfl⟩ |
        ⟨file, data, hfound, -⟩⟩ := hanswers
      · rw [hlocate] at hlocate'
        cases hlocate'
        obtain ⟨hmode, hlinks⟩ := hobliges data FileSystem.make_metadata_self
        exact h data hregular howner hmode hlinks
      · exact absurd hfound (hfind file)

theorem attains_openFile {next : Answer (.openFile path mode) → Program Answer α}
    (hlocate : w.fs.locate (route path) = some (dir, name))
    (hentry : w.fs.entry dir name = some file) (hdata : w.fs.metadata file = some data)
    (hregular : data.fileType = .regular)
    (h : Attains a i (w.openAs i file) (next (.ok w.next)) post) :
    Attains a i w (.ask (.openFile path mode) next) post := by
  have hfind := (FileSystem.find_of_locate hlocate).trans hentry
  refine attains_ask fun answer w' hanswers hobliges => ?_
  cases answer with
  | error error =>
      obtain ⟨file', data', hentry', hdata', htype⟩ := hobliges dir name hlocate
      obtain rfl : file = file' := Option.some.inj (hentry.symm.trans hentry')
      obtain rfl : data = data' := Option.some.inj (hdata.symm.trans hdata')
      rw [hregular] at htype
      rcases htype with hlink | hdirectory
      · cases hlink
      · cases hdirectory
  | ok opened =>
      obtain ⟨rfl, ⟨made, ⟨dir', name', data, hlocate', hfree, -, -, -, -⟩, -⟩ |
        ⟨file', data', hfound, -, -, -, rfl⟩⟩ := hanswers
      · rw [hlocate] at hlocate'
        cases hlocate'
        rw [hentry] at hfree
        cases hfree
      · obtain rfl : file = file' := Option.some.inj (hfind.symm.trans hfound)
        exact h

theorem attains_unlink {next : Answer (.unlink path) → Program Answer α}
    (hlocate : w.fs.locate (route path) = some (dir, name))
    (hentry : w.fs.entry dir name = some file) (hfile : ¬ w.fs.IsDirectory file)
    (h : Attains a i (w.unlink dir name) (next (.ok ())) post) :
    Attains a i w (.ask (.unlink path) next) post := by
  refine attains_ask fun answer w' hanswers hobliges => ?_
  cases answer with
  | error error => exact absurd (hobliges dir name file hlocate hentry) hfile
  | ok value =>
      obtain ⟨dir', name', file', hlocate', -, -, rfl⟩ := hanswers
      rw [hlocate] at hlocate'
      cases hlocate'
      exact h

theorem attains_tryLock {next : Answer (.tryLock handle) → Program Answer α}
    (hopened : w.opened handle = some (i, file)) (hfree : w.locks file = none)
    (h : Attains a i (w.lock i handle file hopened) (next (.ok ())) post) :
    Attains a i w (.ask (.tryLock handle) next) post := by
  refine attains_ask fun answer w' hanswers hobliges => ?_
  cases answer with
  | error error =>
      have htaken := (hobliges file hopened).1
      rw [hfree] at htaken
      cases htaken
  | ok value =>
      obtain ⟨file', hopened', -, rfl⟩ := hanswers
      obtain rfl : file = file' := congrArg Prod.snd (Option.some.inj (hopened.symm.trans hopened'))
      exact h

theorem attains_tryLock_taken {other : Nat} {next : Answer (.tryLock handle) → Program Answer α}
    (hopened : w.opened handle = some (i, file)) (htaken : w.locks file = some other)
    (h : ∀ error, error.kind = .wouldBlock → Attains a i w (next (.error error)) post) :
    Attains a i w (.ask (.tryLock handle) next) post := by
  refine attains_ask fun answer w' hanswers hobliges => ?_
  cases answer with
  | error error =>
      obtain rfl : w' = w := hanswers
      exact h error (hobliges file hopened).2
  | ok value =>
      obtain ⟨file', hopened', hfree, -⟩ := hanswers
      obtain rfl : file = file' := congrArg Prod.snd (Option.some.inj (hopened.symm.trans hopened'))
      rw [htaken] at hfree
      cases hfree

theorem attains_unlock {next : Answer (.unlock handle) → Program Answer α}
    (hown : w.Owns i handle) (h : Attains a i (w.release handle) (next ()) post) :
    Attains a i w (.ask (.unlock handle) next) post := by
  refine attains_ask fun answer w' hanswers _ => ?_
  obtain ⟨-, rfl⟩ | ⟨hnot, -⟩ := hanswers
  · exact h
  · exact absurd hown hnot

theorem attains_close {next : Answer (.close handle) → Program Answer α}
    (hown : w.Owns i handle) (h : Attains a i (w.shut handle) (next ()) post) :
    Attains a i w (.ask (.close handle) next) post := by
  refine attains_ask fun answer w' hanswers _ => ?_
  obtain ⟨-, rfl⟩ | ⟨hnot, -⟩ := hanswers
  · exact h
  · exact absurd hown hnot

/-- A call that changes nothing, whatever it is answered. -/
theorem attains_any {request : Call} {next : Answer request → Program Answer α}
    (hsame : ∀ answer w', w.answers a i request answer w' → w' = w)
    (h : ∀ answer, Attains a i w (next answer) post) : Attains a i w (.ask request next) post := by
  refine attains_ask fun answer w' hanswers _ => ?_
  obtain rfl := hsame answer w' hanswers
  exact h answer

end

/-! Programs that may raise, and do not. -/

/-- A program goes through on a faultless host. -/
def Succeeds (a : Account) (i : ι) (w : System ι) (p : Raising Answer ε α)
    (post : α → System ι → Prop) : Prop :=
  Attains a i w p.run fun result w' => ∃ value, result = .ok value ∧ post value w'

theorem succeeds_pure {value : α} (h : post value w) :
    Succeeds a i w (pure value : Raising Answer ε α) post :=
  attains_done.mpr ⟨value, rfl, h⟩

theorem attains_raising_bind {post : Except ε α → System ι → Prop} {p : Raising Answer ε β}
    {f : β → Raising Answer ε α}
    (h : Succeeds a i w p fun value w' => Attains a i w' (f value).run post) :
    Attains a i w (p >>= f).run post := by
  rw [Raising.run_bind]
  refine attains_bind (attains_mono h ?_)
  rintro _ w' ⟨value, rfl, hrest⟩
  exact hrest

theorem succeeds_bind {p : Raising Answer ε β} {f : β → Raising Answer ε α}
    (h : Succeeds a i w p fun value w' => Succeeds a i w' (f value) post) :
    Succeeds a i w (p >>= f) post :=
  attains_raising_bind h

theorem succeeds_mono {post' : α → System ι → Prop} {p : Raising Answer ε α}
    (h : Succeeds a i w p post) (himp : ∀ value w', post value w' → post' value w') :
    Succeeds a i w p post' := by
  refine attains_mono h ?_
  rintro _ w' ⟨value, rfl, hpost⟩
  exact ⟨value, rfl, himp value w' hpost⟩

end

/-! Such a host exists. -/

section

variable {ι α : Type} {a : Account} {i : ι} {w w' : System ι} {path : String}
  {handle file dir mode : Nat} {name : String}

/-- What a host may answer. -/
def Grants (a : Account) (i : ι) (w : System ι) (call : Call) (answer : Answer call)
    (w' : System ι) : Prop :=
  w.answers a i call answer w' ∧ w.obliges i call answer w'

def refusal (kind : IoErrorKind) : IoError := ⟨kind, none, ""⟩

/-- A new file, as it was asked for. -/
def born (a : Account) (fileType : FileType) (mode : Nat) : Metadata :=
  ⟨fileType, a.uid, a.gid, mode, 1, false⟩

theorem creates_born (fileType : FileType) {place : Route}
    (hlocate : w.fs.locate place = some (dir, name))
    (hfree : w.fs.entry dir name = none) :
    w.Creates a i fileType place mode (w.make i dir name (born a fileType mode)) := by
  refine ⟨dir, name, born a fileType mode, hlocate, hfree, rfl, rfl, ?_, rfl⟩
  change mode &&& 0o777 &&& mode = mode &&& 0o777
  rw [Nat.and_assoc, Nat.and_comm 0o777, ← Nat.and_assoc, Nat.and_self]

theorem born_metadata {fileType : FileType} {data : Metadata}
    (hdata : (w.fs.make dir name (born a fileType mode)).metadata w.fs.count = some data) :
    data.mode = mode ∧ data.nlink = 1 := by
  obtain rfl := Option.some.inj (FileSystem.make_metadata_self.symm.trans hdata)
  exact ⟨rfl, rfl⟩

/-- A place for a new file that is free, or not. -/
theorem free_or_taken (w : System ι) (place : Route) :
    (∃ dir name, w.fs.locate place = some (dir, name) ∧
      w.fs.entry dir name = none) ∨
    ∀ dir name, w.fs.locate place = some (dir, name) →
      (w.fs.entry dir name).isSome = true := by
  cases hlocate : w.fs.locate place with
  | none => exact .inr fun _ _ h => nomatch h
  | some found =>
      obtain ⟨dir, name⟩ := found
      cases hentry : w.fs.entry dir name with
      | none => exact .inl ⟨dir, name, rfl, hentry⟩
      | some file =>
          refine .inr fun dir' name' h => ?_
          cases h
          rw [hentry]
          rfl

theorem grants_mkdir (path : String) (mode : Nat) :
    ∃ answer w', Grants a i w (.mkdir path mode) answer w' := by
  obtain ⟨dir, name, hlocate, hfree⟩ | htaken := free_or_taken w (route path).unslashed
  · exact ⟨.ok (), _, creates_born .directory hlocate hfree, fun _ hdata => (born_metadata hdata).1⟩
  · exact ⟨.error (refusal .alreadyExists), w, rfl, fun dir name h => ⟨htaken dir name h, rfl⟩⟩

theorem grants_openNew (path : String) (mode : Nat) :
    ∃ answer w', Grants a i w (.openNew path mode) answer w' := by
  obtain ⟨dir, name, hlocate, hfree⟩ | htaken := free_or_taken w (route path)
  · exact ⟨.ok w.next, _, ⟨rfl, _, creates_born .regular hlocate hfree, rfl⟩,
      fun _ hdata => born_metadata hdata⟩
  · exact ⟨.error (refusal .alreadyExists), w, rfl, fun dir name h => ⟨htaken dir name h, rfl⟩⟩

theorem grants_openFile (path : String) (mode : Nat) :
    ∃ answer w', Grants a i w (.openFile path mode) answer w' := by
  obtain ⟨dir, name, hlocate, hfree⟩ | htaken := free_or_taken w (route path)
  · exact ⟨.ok w.next, _, ⟨rfl, .inl ⟨_, creates_born .regular hlocate hfree, rfl⟩⟩,
      fun _ hdata => born_metadata hdata⟩
  · by_cases hopens : ∃ file data, w.fs.find (route path) = some file ∧
        w.fs.metadata file = some data ∧ data.fileType ≠ .symlink ∧ data.fileType ≠ .directory
    · obtain ⟨file, data, hfind, hdata, hlink, hdirectory⟩ := hopens
      refine ⟨.ok w.next, w.openAs i file,
        ⟨rfl, .inr ⟨file, data, hfind, hdata, hlink, hdirectory, rfl⟩⟩, fun data' hdata' => ?_⟩
      have hunmade := (w.fs.unmade w.fs.count (Nat.le_refl _)).symm.trans hdata'
      cases hunmade
    · refine ⟨.error (refusal .other), w, rfl, fun dir name hlocate => ?_⟩
      obtain ⟨file, hentry⟩ := Option.isSome_iff_exists.mp (htaken dir name hlocate)
      obtain ⟨data, hdata⟩ := Option.isSome_iff_exists.mp (w.fs.named dir name file hentry)
      refine ⟨file, data, hentry, hdata, ?_⟩
      by_contra hneither
      rw [not_or] at hneither
      exact hopens ⟨file, data, (FileSystem.find_of_locate hlocate).trans hentry, hdata, hneither⟩

theorem grants_unlink (path : String) : ∃ answer w', Grants a i w (.unlink path) answer w' := by
  by_cases hremoves : ∃ dir name file, w.fs.locate (route path) = some (dir, name) ∧
      w.fs.entry dir name = some file ∧ ¬ w.fs.IsDirectory file
  · obtain ⟨dir, name, file, hlocate, hentry, hfile⟩ := hremoves
    exact ⟨.ok (), _, ⟨dir, name, file, hlocate, hentry, hfile, rfl⟩, trivial⟩
  · refine ⟨.error (refusal .other), w, rfl, fun dir name file hlocate hentry => ?_⟩
    by_contra hfile
    exact hremoves ⟨dir, name, file, hlocate, hentry, hfile⟩

theorem grants_tryLock (handle : Nat) : ∃ answer w', Grants a i w (.tryLock handle) answer w' := by
  by_cases hlocks : ∃ file, w.opened handle = some (i, file) ∧ w.locks file = none
  · obtain ⟨file, hopened, hfree⟩ := hlocks
    exact ⟨.ok (), _, ⟨file, hopened, hfree, rfl⟩, trivial⟩
  · refine ⟨.error (refusal .wouldBlock), w, rfl, fun file hopened => ⟨?_, rfl⟩⟩
    rw [Option.isSome_iff_ne_none]
    exact fun hfree => hlocks ⟨file, hopened, hfree⟩

/-- Some answer to every call keeps to what a faultless host promises. -/
theorem exists_grants (w : System ι) (call : Call) :
    ∃ answer w', Grants a i w call answer w' := by
  cases call with
  | lstat path =>
      by_cases hthere : ∃ file data, w.fs.find (route path) = some file ∧
          w.fs.metadata file = some data
      · obtain ⟨file, data, hfind, hdata⟩ := hthere
        exact ⟨.ok ⟨file, data, (w.fs.contents file).length⟩, w, ⟨rfl, hfind, hdata, rfl⟩, trivial⟩
      · refine ⟨.error (refusal .notFound), w, rfl, rfl, fun file hfind => ?_⟩
        rw [Option.eq_none_iff_forall_ne_some]
        exact fun data hdata => hthere ⟨file, data, hfind, hdata⟩
  | fstat handle =>
      by_cases hthere : ∃ file data, w.opened handle = some (i, file) ∧
          w.fs.metadata file = some data
      · obtain ⟨file, data, hopened, hdata⟩ := hthere
        exact ⟨.ok ⟨file, data, (w.fs.contents file).length⟩, w, ⟨rfl, hopened, hdata, rfl⟩,
          trivial⟩
      · refine ⟨.error (refusal .other), w, rfl, fun file hopened => ?_⟩
        rw [Option.eq_none_iff_forall_ne_some]
        exact fun data hdata => hthere ⟨file, data, hopened, hdata⟩
  | mkdir path mode => exact grants_mkdir path mode
  | openNew path mode => exact grants_openNew path mode
  | openFile path mode => exact grants_openFile path mode
  | openRead path =>
      by_cases hopens : ∃ file data, w.fs.find (route path) = some file ∧
          w.fs.metadata file = some data ∧ data.fileType ≠ .symlink
      · obtain ⟨file, data, hfind, hdata, hlink⟩ := hopens
        exact ⟨.ok w.next, _, ⟨rfl, file, data, hfind, hdata, hlink, rfl⟩, trivial⟩
      · refine ⟨.error (refusal .other), w, rfl, fun file data hfind hdata => ?_⟩
        by_contra hlink
        exact hopens ⟨file, data, hfind, hdata, hlink⟩
  | read handle limit =>
      by_cases hown : w.Owns i handle
      · obtain ⟨file, hopened⟩ := hown
        exact ⟨.ok _, w, ⟨rfl, file, hopened, rfl⟩, trivial⟩
      · exact ⟨.error (refusal .other), w, rfl, hown⟩
  | unlink path => exact grants_unlink path
  | tryLock handle => exact grants_tryLock handle
  | unlock handle =>
      by_cases hown : w.Owns i handle
      · exact ⟨(), _, .inl ⟨hown, rfl⟩, trivial⟩
      · exact ⟨(), w, .inr ⟨hown, rfl⟩, trivial⟩
  | close handle =>
      by_cases hown : w.Owns i handle
      · exact ⟨(), _, .inl ⟨hown, rfl⟩, trivial⟩
      · exact ⟨(), w, .inr ⟨hown, rfl⟩, trivial⟩
  | accessAcl handle =>
      by_cases hextended : ∃ file data, w.opened handle = some (i, file) ∧
          w.fs.metadata file = some data ∧ data.acl = true
      · obtain ⟨file, data, hopened, hdata, hacl⟩ := hextended
        refine ⟨.ok (), w, ⟨rfl, fun _ _ _ _ _ h => nomatch h⟩, ?_⟩
        intro file' data' hopened' hdata' hacl'
        obtain rfl := congrArg Prod.snd (Option.some.inj (hopened.symm.trans hopened'))
        obtain rfl := Option.some.inj (hdata.symm.trans hdata')
        rw [hacl] at hacl'
        cases hacl'
      · refine ⟨.error ⟨.other, some 61, ""⟩, w, ⟨rfl, ?_⟩, fun _ _ _ _ _ => ⟨_, rfl, rfl⟩⟩
        intro file data _ hopened hdata _ _
        by_contra hacl
        exact hextended ⟨file, data, hopened, hdata, Bool.not_eq_false _ |>.mp hacl⟩
  | effectiveUser => exact ⟨a.uid, w, ⟨rfl, rfl⟩, trivial⟩
  | effectiveGroup => exact ⟨a.gid, w, ⟨rfl, rfl⟩, trivial⟩
  | clock => exact ⟨(0 : Nat), w, rfl, trivial⟩
  | processId => exact ⟨(0 : Nat), w, rfl, trivial⟩
  | counter => exact ⟨(0 : Nat), w, rfl, trivial⟩

/-- What a program comes to on every faultless host, it comes to on some. -/
theorem Attains.exists_run {p : Program Answer α} {post : α → System ι → Prop}
    (h : Attains a i w p post) :
    ∃ trace value w', Runs p trace value ∧ Path (faultless a i) w trace w' ∧ post value w' := by
  have hgrants : ∀ (w : System ι) (call : Call), ∃ given : Answer call × System ι,
      Grants a i w call given.1 given.2 := by
    intro w call
    obtain ⟨answer, w', h⟩ := exists_grants (a := a) (i := i) w call
    exact ⟨(answer, w'), h⟩
  choose respond hrespond using hgrants
  exact holds_simulates (fun w call _ => hrespond w call) h

/-- All that a faultless host does, the system may do. -/
theorem answered_of_path {trace : List (Event Answer)} (h : Path (faultless a i) w trace w') :
    Answered (world a) i w trace w' := by
  induction h with
  | nil hsame =>
      cases hsame
      exact .nil _
  | cons hsame hadvances _ ih =>
      cases hsame
      exact .cons hadvances.1 ih

end

end Files
