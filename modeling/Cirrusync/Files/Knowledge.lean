import Cirrusync.Files.Triple

/-!
What a process may know of the file system for as long as it runs: where a path leads, what
a file is and who may change it.
-/

namespace Files

open Effect FileSystem

section

variable {ι : Type} {a : Account}

/-- A path of shielded entries leads to a file. -/
def Leads (a : Account) (w : System ι) (path : String) (file : Nat) : Prop :=
  w.fs.Guides a.trusted (route path) file

/-- The path does not end in a name that is removed again. -/
def Lasting (a : Account) (path : String) : Prop :=
  ∀ name, (components path).getLast? = some name → ¬ a.transient name

/-- What a file was once known to be, as far as that lasts. -/
def Told (a : Account) (w : System ι) (file : Nat) (data : Metadata) : Prop :=
  ∃ now, w.fs.metadata file = some now ∧ data.Keeps a.trusted now

/-- A path to a directory of a trusted user. -/
structure Rooted (a : Account) (w : System ι) (path : String) (dir : Nat) : Prop where
  leads : Leads a w path dir
  owned : ∃ data, w.fs.metadata dir = some data ∧ data.fileType = .directory ∧
    a.trusted data.uid

/-- A directory in which others can change nothing. -/
def Closed (a : Account) (w : System ι) (dir : Nat) : Prop :=
  ∃ data, w.fs.metadata dir = some data ∧ data.fileType = .directory ∧
    a.trusted data.uid ∧ data.othersWrite = false

variable {i : ι} {w w' : System ι} {path : String} {dir file : Nat} {data : Metadata}

theorem Leads.kept (h : Leads a w path file)
    (hlasting : w.fs.IsDirectory file ∨ Lasting a path)
    (hkeeps : w.fs.Keeps a.trusted a.transient w'.fs) : Leads a w' path file :=
  Guides.kept h hkeeps hlasting

theorem Leads.onward (h : Leads a w path file)
    (hlasting : w.fs.IsDirectory file ∨ Lasting a path) (honward : Onward a i w w') :
    Leads a w' path file :=
  h.kept hlasting honward.keeps

theorem Told.kept (h : Told a w file data)
    (hkeeps : w.fs.Keeps a.trusted a.transient w'.fs) : Told a w' file data := by
  obtain ⟨now, hnow, hsame⟩ := h
  obtain ⟨later, hlater, hsame'⟩ := hkeeps.keeps file now hnow
  exact ⟨later, hlater, hsame.trans hsame'⟩

theorem Told.onward (h : Told a w file data) (honward : Onward a i w w') :
    Told a w' file data :=
  h.kept honward.keeps

theorem Rooted.isDirectory (h : Rooted a w path dir) : w.fs.IsDirectory dir := by
  obtain ⟨data, hdata, hdirectory, -⟩ := h.owned
  exact ⟨data, hdata, hdirectory⟩

theorem Rooted.kept (h : Rooted a w path dir)
    (hkeeps : w.fs.Keeps a.trusted a.transient w'.fs) : Rooted a w' path dir := by
  refine ⟨h.leads.kept (.inl h.isDirectory) hkeeps, ?_⟩
  obtain ⟨data, hdata, hdirectory, howner⟩ := h.owned
  obtain ⟨data', hdata', hsame⟩ := hkeeps.keeps dir data hdata
  exact ⟨data', hdata', hsame.fileType_eq.trans hdirectory, by rw [hsame.uid_eq]; exact howner⟩

theorem Rooted.onward (h : Rooted a w path dir) (honward : Onward a i w w') :
    Rooted a w' path dir :=
  h.kept honward.keeps

theorem Closed.sheltering (h : Closed a w dir) : w.fs.Sheltering a.trusted dir := by
  obtain ⟨data, hdata, hdirectory, howner, hclosed⟩ := h
  exact ⟨data, hdata, hdirectory, howner, .inl hclosed⟩

theorem Closed.kept (h : Closed a w dir)
    (hkeeps : w.fs.Keeps a.trusted a.transient w'.fs) : Closed a w' dir := by
  obtain ⟨data, hdata, hdirectory, howner, hclosed⟩ := h
  obtain ⟨data', hdata', hsame⟩ := hkeeps.keeps dir data hdata
  refine ⟨data', hdata', hsame.fileType_eq.trans hdirectory,
    by rw [hsame.uid_eq]; exact howner, ?_⟩
  unfold Metadata.othersWrite at hclosed ⊢
  rwa [hsame.mode_eq howner]

theorem Closed.onward (h : Closed a w dir) (honward : Onward a i w w') : Closed a w' dir :=
  h.kept honward.keeps

/-- Every entry of a closed directory is shielded. -/
theorem Closed.shielded {name : String} (h : Closed a w dir)
    (hentry : w.fs.entry dir name = some file) : w.fs.Shielded a.trusted dir name file := by
  obtain ⟨data, hdata, hdirectory, howner, hclosed⟩ := h
  exact ⟨hentry, data, hdata, hdirectory, howner, .inl hclosed⟩

theorem Told.sheltering (h : Told a w dir data) (hdirectory : data.fileType = .directory)
    (howner : a.trusted data.uid) (hguard : data.othersWrite = false ∨ data.sticky = true) :
    w.fs.Sheltering a.trusted dir := by
  obtain ⟨now, hnow, hkeeps⟩ := h
  refine ⟨now, hnow, hkeeps.fileType_eq.trans hdirectory,
    by rw [hkeeps.uid_eq]; exact howner, ?_⟩
  unfold Metadata.othersWrite Metadata.sticky at hguard ⊢
  rwa [hkeeps.mode_eq howner]

theorem Told.closed (h : Told a w dir data) (hdirectory : data.fileType = .directory)
    (howner : a.trusted data.uid) (hclosed : data.othersWrite = false) : Closed a w dir := by
  obtain ⟨now, hnow, hkeeps⟩ := h
  refine ⟨now, hnow, hkeeps.fileType_eq.trans hdirectory,
    by rw [hkeeps.uid_eq]; exact howner, ?_⟩
  unfold Metadata.othersWrite at hclosed ⊢
  rwa [hkeeps.mode_eq howner]

theorem Told.trusted (h : Told a w dir data) (hroot : Rooted a w path dir) :
    a.trusted data.uid := by
  obtain ⟨now, hnow, hkeeps⟩ := h
  obtain ⟨there, hthere, -, howner⟩ := hroot.owned
  obtain rfl := Option.some.inj (hthere.symm.trans hnow)
  rwa [hkeeps.uid_eq] at howner

/-- What is in a file that only trusted users may write to. -/
theorem Told.contents_eq (h : Told a w file data)
    (hkeeps : w.fs.Keeps a.trusted a.transient w'.fs) (howner : a.trusted data.uid)
    (hclosed : data.othersWrite = false) : w'.fs.contents file = w.fs.contents file := by
  obtain ⟨now, hnow, hsame⟩ := h
  have hclosed' : now.othersWrite = false := by
    unfold Metadata.othersWrite at hclosed ⊢
    rwa [hsame.mode_eq howner]
  exact hkeeps.writes file now hnow (by rw [hsame.uid_eq]; exact howner) hclosed'

/-! What the calls tell. -/

section

variable {α ε : Type} {raise : IoError → ε} {post : α → System ι → Prop}

/-- What is told of the file that a path leads to. -/
theorem yields_lstat {f : Stat → Raising Answer ε α} (hleads : Leads a w path file)
    (hlasting : w.fs.IsDirectory file ∨ Lasting a path)
    (h : ∀ stat w', Onward a i w w' → stat.file = file → Told a w' file stat.data →
      Yields a i w' (f stat) post) :
    Yields a i w (call (.lstat path) >>= fun result => orRaise raise result >>= f) post := by
  have hcall : Yields a i w (call (.lstat path) : Raising Answer ε _) fun result w' =>
      ∀ stat, result = .ok stat → stat.file = file ∧ Told a w' file stat.data := by
    refine yields_request rfl (fun _ _ => trivial) ?_
    rintro answer w₁ w₂ w₃ h₁ hanswers - h₃ stat rfl
    obtain ⟨rfl, hfind, hdata, -⟩ := hanswers
    have hfile : stat.file = file :=
      Option.some.inj (hfind.symm.trans (hleads.onward hlasting h₁).find_eq)
    rw [hfile] at hdata
    exact ⟨hfile, Told.onward ⟨_, hdata, .refl _⟩ h₃⟩
  refine yields_bind hcall fun result w₁ h₁ htold => yields_orRaise_bind fun stat hok => ?_
  obtain ⟨hfile, hdata⟩ := htold stat hok
  exact h stat w₁ h₁ hfile hdata

/-- What is told of an open file. -/
theorem yields_fstat {handle : Nat} {f : Stat → Raising Answer ε α}
    (hopened : w.opened handle = some (i, file))
    (h : ∀ stat w', Onward a i w w' → stat.file = file → Told a w' file stat.data →
      Yields a i w' (f stat) post) :
    Yields a i w (call (.fstat handle) >>= fun result => orRaise raise result >>= f) post := by
  have hcall : Yields a i w (call (.fstat handle) : Raising Answer ε _) fun result w' =>
      ∀ stat, result = .ok stat → stat.file = file ∧ Told a w' file stat.data := by
    refine yields_request rfl (fun _ _ => trivial) ?_
    rintro answer w₁ w₂ w₃ h₁ hanswers - h₃ stat rfl
    obtain ⟨rfl, hfile, hdata, -⟩ := hanswers
    have hopened' := (h₁.opened _ _).mpr hopened
    have hsame : file = stat.file :=
      congrArg Prod.snd (Option.some.inj (hopened'.symm.trans hfile))
    rw [← hsame] at hdata
    exact ⟨hsame.symm, Told.onward ⟨_, hdata, .refl _⟩ h₃⟩
  refine yields_bind hcall fun result w₁ h₁ htold => yields_orRaise_bind fun stat hok => ?_
  obtain ⟨hfile, hdata⟩ := htold stat hok
  exact h stat w₁ h₁ hfile hdata

end

/-! Opening a file. -/

/-- A file has been opened, and it is the one that a path leads to. -/
def Opened (a : Account) (i : ι) (w : System ι) (path : String) {ε : Type} :
    Except ε Nat → System ι → Prop
  | .ok handle, w' => ∃ file, Adds a i handle file w w' ∧
      ∀ other, Leads a w path other → Lasting a path → file = other
  | .error _, w' => Onward a i w w'

theorem ensures_openRead {ε : Type} {raise : IoError → ε} :
    Ensures a i w (call (.openRead path) >>= fun result => orRaise raise result).run
      (Opened a i w path) := by
  rw [run_call_bind]
  refine ensures_ask fun w₁ h₁ => ⟨trivial, fun answer w₂ hanswers => ?_⟩
  cases answer with
  | error source =>
      obtain rfl : w₂ = w₁ := hanswers
      exact ensures_done fun w₃ h₃ => h₁.onward.trans h₃.onward
  | ok handle =>
      obtain ⟨rfl, file, data, hfind, -, -, rfl⟩ := hanswers
      refine ensures_done fun w₃ h₃ => ⟨file, ?_, fun other hleads hlasting => ?_⟩
      · exact ((w₁.openAs_adds file).before h₁.onward).onward h₃.onward
      · have hnamed := (hleads.onward (.inr hlasting) h₁.onward).find_eq
        exact Option.some.inj (hfind.symm.trans hnamed)

end

end Files
