import Cirrusync.Files.System

/-!
A file system in which more has been made. What was there is as it was, and names have
changed only where that is said.
-/

namespace Files

namespace FileSystem

/-- Every file is as it was, and under its names, apart from those that may change. -/
structure Extends (changes : Nat → String → Prop) (fs fs' : FileSystem) : Prop where
  start_eq : fs'.start = fs.start
  count_le : fs.count ≤ fs'.count
  leads_eq : fs'.leads = fs.leads
  metadata : ∀ file data, fs.metadata file = some data → fs'.metadata file = some data
  contents : ∀ file, (fs.metadata file).isSome = true → fs'.contents file = fs.contents file
  named : ∀ dir name file, (fs.metadata dir).isSome = true → fs.entry dir name = some file →
    fs'.entry dir name = some file
  entry : ∀ dir name, (fs.metadata dir).isSome = true → ¬ changes dir name →
    fs'.entry dir name = fs.entry dir name

variable {changes changes' : Nat → String → Prop} {fs fs' fs'' : FileSystem}
  {dir file target : Nat} {name : String} {names : List String} {data : Metadata}

namespace Extends

theorem refl (fs : FileSystem) : fs.Extends changes fs where
  start_eq := rfl
  count_le := Nat.le_refl _
  leads_eq := rfl
  metadata := fun _ _ hdata => hdata
  contents := fun _ _ => rfl
  named := fun _ _ _ _ hentry => hentry
  entry := fun _ _ _ _ => rfl

variable (h : fs.Extends changes fs')

include h

theorem isSome (hfile : (fs.metadata file).isSome = true) :
    (fs'.metadata file).isSome = true := by
  obtain ⟨data, hdata⟩ := Option.isSome_iff_exists.mp hfile
  rw [h.metadata file data hdata]
  rfl

theorem trans (h' : fs'.Extends changes fs'') : fs.Extends changes fs'' where
  start_eq := h'.start_eq.trans h.start_eq
  count_le := Nat.le_trans h.count_le h'.count_le
  leads_eq := h'.leads_eq.trans h.leads_eq
  metadata := fun file data hdata => h'.metadata file data (h.metadata file data hdata)
  contents := fun file hfile =>
    (h'.contents file (h.isSome hfile)).trans (h.contents file hfile)
  named := fun dir name file hdir hentry =>
    h'.named dir name file (h.isSome hdir) (h.named dir name file hdir hentry)
  entry := fun dir name hdir hsame =>
    (h'.entry dir name (h.isSome hdir) hsame).trans (h.entry dir name hdir hsame)

theorem mono (himp : ∀ dir name, changes dir name → changes' dir name) :
    fs.Extends changes' fs' :=
  { h with entry := fun dir name hdir hsame =>
      h.entry dir name hdir fun hchanges => hsame (himp dir name hchanges) }

theorem asDirectory (hdir : fs.asDirectory file = some dir) : fs'.asDirectory file = some dir := by
  obtain ⟨data, hdata, htype⟩ := Option.bind_eq_some_iff.mp hdir
  unfold FileSystem.asDirectory
  rwa [h.metadata file data hdata]

theorem enter (henter : fs.enter file = some dir) : fs'.enter file = some dir := by
  obtain ⟨data, hdata, hnext⟩ := Option.bind_eq_some_iff.mp henter
  unfold FileSystem.enter
  rw [h.metadata file data hdata, Option.bind_some]
  cases htype : data.fileType with
  | directory => simpa [htype] using hnext
  | symlink =>
      simp only [htype] at hnext ⊢
      obtain ⟨there, hleads, hdir⟩ := Option.bind_eq_some_iff.mp hnext
      rw [h.leads_eq, hleads, Option.bind_some, h.asDirectory hdir]
  | regular => simp [htype] at hnext
  | other => simp [htype] at hnext

end Extends

/-- What a name leads to is there. -/
theorem enter_isSome (henter : fs.enter file = some dir) : (fs.metadata dir).isSome = true := by
  obtain ⟨data, hdata, hnext⟩ := Option.bind_eq_some_iff.mp henter
  cases htype : data.fileType with
  | directory =>
      simp only [htype, Option.some.injEq] at hnext
      rw [← hnext, hdata]
      rfl
  | symlink =>
      simp only [htype] at hnext
      obtain ⟨there, -, hdir⟩ := Option.bind_eq_some_iff.mp hnext
      obtain ⟨data', hdata', hsame⟩ := Option.bind_eq_some_iff.mp hdir
      split at hsame
      · cases hsame
        rw [hdata']
        rfl
      · cases hsame
  | regular => simp [htype] at hnext
  | other => simp [htype] at hnext

/-- The steps of a walk. -/
theorem walk_cons_eq_some {start : Nat} {rest : List String} :
    fs.walk start (name :: rest) = some target ↔ ∃ file next, fs.entry start name = some file ∧
      fs.enter file = some next ∧ fs.walk next rest = some target := by
  simp only [walk, Option.bind_eq_some_iff]
  constructor
  · rintro ⟨file, hentry, next, henter, hrest⟩
    exact ⟨file, next, hentry, henter, hrest⟩
  · rintro ⟨file, next, hentry, henter, hrest⟩
    exact ⟨file, hentry, next, henter, hrest⟩

theorem start_isSome (fs : FileSystem) (route : Route) :
    (fs.metadata (fs.start route)).isSome = true := by
  unfold start
  split
  · exact fs.rooted
  · exact fs.seated

theorem walk_isSome {start : Nat} (hstart : (fs.metadata start).isSome = true)
    (hwalk : fs.walk start names = some target) : (fs.metadata target).isSome = true := by
  induction names generalizing start with
  | nil =>
      cases hwalk
      exact hstart
  | cons name rest ih =>
      obtain ⟨file, next, -, henter, hrest⟩ := walk_cons_eq_some.mp hwalk
      exact ih (enter_isSome henter) hrest

namespace Extends

variable (h : fs.Extends changes fs')

include h

theorem walk {start : Nat} (hstart : (fs.metadata start).isSome = true)
    (hwalk : fs.walk start names = some target) : fs'.walk start names = some target := by
  induction names generalizing start with
  | nil => exact hwalk
  | cons name rest ih =>
      obtain ⟨file, next, hentry, henter, hrest⟩ := walk_cons_eq_some.mp hwalk
      exact walk_cons_eq_some.mpr ⟨file, next, h.named start name file hstart hentry,
        h.enter henter, ih (enter_isSome henter) hrest⟩

theorem walk_start {route : Route} (hwalk : fs.walk (fs.start route) names = some target) :
    fs'.walk (fs'.start route) names = some target := by
  rw [h.start_eq]
  exact h.walk (start_isSome fs route) hwalk

end Extends

theorem walk_append {start middle : Nat} {more : List String}
    (hwalk : fs.walk start names = some middle) :
    fs.walk start (names ++ more) = fs.walk middle more := by
  induction names generalizing start with
  | nil =>
      cases hwalk
      rfl
  | cons name rest ih =>
      obtain ⟨file, next, hentry, henter, hrest⟩ := walk_cons_eq_some.mp hwalk
      rw [List.cons_append, FileSystem.walk, hentry, Option.bind_some, henter, Option.bind_some,
        ih hrest]

/-- What is named by a path that ends in no slash is an entry of the directory before it. -/
theorem exists_entry_of_find {route : Route} (hslash : route.slashed = false)
    (hfind : fs.find route = some file) :
    ∃ front name dir, route = Route.join front name ∧
      fs.walk (fs.start front) front.names = some dir ∧ fs.entry dir name = some file := by
  have hnames : route.names ≠ [] := by
    intro hnil
    rw [find_eq_bind hslash, locate, hnil] at hfind
    simp at hfind
  obtain ⟨front, name, rfl⟩ := exists_join hslash hnames
  cases hwalk : fs.walk (fs.start front) front.names with
  | none =>
      rw [find_eq_bind hslash, locate, start_join] at hfind
      simp [Route.join, hwalk] at hfind
  | some dir =>
      rw [find_join hwalk] at hfind
      exact ⟨front, name, dir, rfl, hwalk, hfind⟩

/-- A path that names a directory can be walked. -/
theorem walk_of_find {route : Route} (hfind : fs.find route = some dir)
    (hdir : fs.IsDirectory dir) : fs.walk (fs.start route) route.names = some dir := by
  cases hslash : route.slashed with
  | true => rwa [find_of_slashed hslash] at hfind
  | false =>
      obtain ⟨front, name, parent, rfl, hwalk, hentry⟩ := exists_entry_of_find hslash hfind
      obtain ⟨data, hdata, hdirectory⟩ := hdir
      have henter : fs.enter dir = some dir := by
        unfold enter
        rw [hdata, Option.bind_some, hdirectory]
      rw [start_join, Route.join, walk_append hwalk]
      exact walk_cons_eq_some.mpr ⟨dir, dir, hentry, henter, rfl⟩

/-- What a path names, it still names. -/
theorem Extends.find {route : Route} (h : fs.Extends changes fs')
    (hfind : fs.find route = some file) : fs'.find route = some file := by
  cases hslash : route.slashed with
  | true =>
      rw [find_of_slashed hslash] at hfind ⊢
      exact h.walk_start hfind
  | false =>
      obtain ⟨front, name, dir, rfl, hwalk, hentry⟩ := exists_entry_of_find hslash hfind
      rw [find_join (h.walk_start hwalk)]
      exact h.named dir name file (walk_isSome (start_isSome fs front) hwalk) hentry

/-! What makes a file system larger. -/

theorem make_extends (hfree : fs.entry dir name = none) :
    fs.Extends (fun dir' name' => dir' = dir ∧ name' = name) (fs.make dir name data) where
  start_eq := rfl
  count_le := Nat.le_succ _
  leads_eq := rfl
  metadata := fun _ _ hold => make_metadata_of_some hold
  contents := by
    intro file hfile
    obtain ⟨old, hold⟩ := Option.isSome_iff_exists.mp hfile
    exact Function.update_of_ne (ne_count_of_some hold) _ _
  named := by
    intro dir' name' file hdir hentry
    obtain ⟨old, hold⟩ := Option.isSome_iff_exists.mp hdir
    rw [make_entry_of_ne _ (ne_count_of_some hold)]
    · exact hentry
    · by_contra hsame
      rw [not_or, not_not, not_not] at hsame
      rw [hsame.1, hsame.2, hfree] at hentry
      cases hentry
  entry := by
    intro dir' name' hdir hsame
    obtain ⟨old, hold⟩ := Option.isSome_iff_exists.mp hdir
    refine make_entry_of_ne ?_ (ne_count_of_some hold)
    by_contra hplace
    rw [not_or, not_not, not_not] at hplace
    exact hsame hplace

/-- A file that is made and removed again leaves nothing behind. -/
theorem make_unlink_extends (hdir : (fs.metadata dir).isSome = true)
    (hfree : fs.entry dir name = none) :
    fs.Extends (fun _ _ => False) ((fs.make dir name data).unlink dir name) := by
  have hmake : fs.Extends (fun dir' name' => dir' = dir ∧ name' = name) (fs.make dir name data) :=
    make_extends hfree
  obtain ⟨old, hold⟩ := Option.isSome_iff_exists.mp hdir
  have hentries : ∀ dir' name', (fs.metadata dir').isSome = true →
      ((fs.make dir name data).unlink dir name).entry dir' name' = fs.entry dir' name' := by
    intro dir' name' hdir'
    by_cases hsame : dir' = dir ∧ name' = name
    · obtain ⟨rfl, rfl⟩ := hsame
      rw [unlink_entry_self, hfree]
    · rw [unlink_entry_of_ne (not_and_or.mp hsame), hmake.entry dir' name' hdir' hsame]
  refine ⟨rfl, hmake.count_le, rfl, ?_, hmake.contents, ?_, fun dir' name' hdir' _ =>
    hentries dir' name' hdir'⟩
  · intro file there hthere
    change ((fs.make dir name data).metadata file).map _ = _
    rw [hmake.metadata file there hthere, make_entry_self, Option.map_some, if_neg]
    rintro ⟨⟩
    exact ne_count_of_some hthere rfl
  · intro dir' name' file hdir' hentry
    rw [hentries dir' name' hdir', hentry]

end FileSystem

namespace System

variable {ι : Type}

/-- A system in which more has been made and opened. The open files and the locks are as
they were. -/
structure Extends (changes : Nat → String → Prop) (w w' : System ι) : Prop where
  fs : w.fs.Extends changes w'.fs
  next_le : w.next ≤ w'.next
  opened : ∀ handle, handle < w.next → w'.opened handle = w.opened handle
  locks_eq : w'.locks = w.locks

variable {changes changes' : Nat → String → Prop} {w w' w'' : System ι} {i : ι}
  {handle file : Nat}

theorem lt_of_opened (h : w.opened handle = some (i, file)) : handle < w.next := by
  by_contra hle
  rw [w.unopened handle (by omega)] at h
  cases h

namespace Extends

theorem refl (w : System ι) : w.Extends changes w :=
  ⟨.refl w.fs, Nat.le_refl _, fun _ _ => rfl, rfl⟩

theorem trans (h : w.Extends changes w') (h' : w'.Extends changes w'') : w.Extends changes w'' where
  fs := h.fs.trans h'.fs
  next_le := Nat.le_trans h.next_le h'.next_le
  opened := fun handle hhandle =>
    (h'.opened handle (Nat.lt_of_lt_of_le hhandle h.next_le)).trans (h.opened handle hhandle)
  locks_eq := h'.locks_eq.trans h.locks_eq

theorem mono (h : w.Extends changes w') (himp : ∀ dir name, changes dir name → changes' dir name) :
    w.Extends changes' w' :=
  { h with fs := h.fs.mono himp }

/-- The files that a process has open, it still has. -/
theorem opened_of_some (h : w.Extends changes w') (hopened : w.opened handle = some (i, file)) :
    w'.opened handle = some (i, file) :=
  (h.opened handle (lt_of_opened hopened)).trans hopened

end Extends

theorem openAs_extends (file : Nat) : w.Extends changes (w.openAs i file) where
  fs := .refl w.fs
  next_le := Nat.le_succ _
  opened := fun _ hhandle => Function.update_of_ne (Nat.ne_of_lt hhandle) _ _
  locks_eq := rfl

theorem make_extends {dir : Nat} {name : String} {data : Metadata}
    (hfree : w.fs.entry dir name = none) :
    w.Extends (fun dir' name' => dir' = dir ∧ name' = name) (w.make i dir name data) where
  fs := FileSystem.make_extends hfree
  next_le := Nat.le_refl _
  opened := fun _ _ => rfl
  locks_eq := rfl

theorem mount_extends {fs : FileSystem} {h} (hextends : w.fs.Extends changes fs) :
    w.Extends changes (w.mount fs h) where
  fs := hextends
  next_le := Nat.le_refl _
  opened := fun _ _ => rfl
  locks_eq := rfl

/-- A file that is made, opened, removed and closed leaves nothing behind. -/
theorem passing_extends {dir : Nat} {name : String} {data : Metadata}
    (hdir : (w.fs.metadata dir).isSome = true) (hfree : w.fs.entry dir name = none) :
    w.Extends (fun _ _ => False)
      ((((w.make i dir name data).openAs i w.fs.count).unlink dir name).shut w.next) where
  fs := FileSystem.make_unlink_extends hdir hfree
  next_le := Nat.le_succ _
  opened := by
    intro handle hhandle
    have hne : handle ≠ w.next := Nat.ne_of_lt hhandle
    exact (Function.update_of_ne hne _ _).trans (Function.update_of_ne hne _ _)
  locks_eq := by
    funext file
    refine if_neg fun hlock => ?_
    obtain ⟨j, hopened⟩ := w.locked file w.next hlock
    exact absurd (lt_of_opened hopened) (Nat.lt_irrefl _)

end System

/-- In a directory that everybody may write to others may plant a file of their own under a
free name, and nothing else is changed by it. -/
theorem exists_planted {ι : Type} {a : Account} {w : System ι} {dir : Nat} {name : String}
    {data there : Metadata} (hdir : w.fs.metadata dir = some there)
    (hopen : there.othersWrite = true) (hfree : w.fs.entry dir name = none)
    (hstranger : ¬ a.trusted data.uid) :
    ∃ w', (world a).moves w w' ∧ w.Extends (fun dir' name' => dir' = dir ∧ name' = name) w' ∧
      w'.fs.entry dir name = some w.fs.count ∧ w'.fs.metadata w.fs.count = some data := by
  have halterable : w.fs.Alterable a.trusted dir name := by
    intro other hother _
    obtain rfl := Option.some.inj (hdir.symm.trans hother)
    refine .inr ⟨hopen, fun _ file _ hentry => ?_⟩
    rw [hfree] at hentry
    cases hentry
  have hplants := FileSystem.make_tampered hstranger halterable
  have hextends := System.mount_extends (h := fun _ => hplants.isSome)
    (FileSystem.make_extends hfree)
  exact ⟨_, mount_moves hplants, hextends, FileSystem.make_entry_self,
    FileSystem.make_metadata_self⟩

end Files
