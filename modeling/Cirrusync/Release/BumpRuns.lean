import Cirrusync.Release.Repository

/-!
A bump of the version files updates both or, unless its message says that the
rollback failed as well, neither; a bump that is refused writes nothing.
-/

namespace Cirrusync.Release

open Effect

theorem encode_of_decode {bytes : List UInt8} {contents : List Char}
    (h : decode bytes = some contents) : encode contents = bytes := by
  unfold decode at h
  obtain ⟨text, htext, rfl⟩ := Option.map_eq_some_iff.mp h
  unfold String.fromUTF8? at htext
  split at htext
  · cases htext
    simp [encode, String.fromUTF8]
  · cases htext

/-! ## One operation at a time -/

theorem holds_perform {op : FileOp} {post : FileAns op → Disk → Prop} {disk : Disk}
    (h : ∀ answer disk', FileStep disk op answer disk' → post answer disk') :
    Holds fileContract post (perform op) disk := by
  unfold fileContract perform Program.perform
  rw [holds_solo_ask]
  refine ⟨trivial, fun answer disk' hstep => ?_⟩
  rw [holds_solo_done]
  exact h answer disk' hstep

theorem holds_done {α : Type} {post : α → Disk → Prop} {value : α} {disk : Disk} :
    Holds fileContract post (.done value) disk ↔ post value disk := holds_solo_done

/-- The files stay as they were; without an exception something more is known. -/
def Kept {α : Type} (files : VersionFile → File) (known : Disk → Prop) :
    Except OSError α → Disk → Prop
  | .ok _, disk => disk.files = files ∧ known disk
  | .error _, disk => disk.files = files

theorem holds_kept_bind {α β : Type} {files : VersionFile → File} {known : Disk → Prop}
    {post : Except OSError β → Disk → Prop} {p : Raising FileAns OSError α}
    {f : α → Raising FileAns OSError β} {disk : Disk}
    (h : Holds fileContract (Kept files known) p.run disk)
    (hraise : ∀ exception disk', disk'.files = files → post (.error exception) disk')
    (hnext : ∀ value disk', disk'.files = files → known disk' →
      Holds fileContract post (f value).run disk') :
    Holds fileContract post (p >>= f).run disk := by
  apply holds_raising_bind
  refine holds_mono h ?_
  intro result disk' hkept
  cases result with
  | ok value => exact hnext value disk' hkept.1 hkept.2
  | error exception => exact holds_done.mpr (hraise exception disk' hkept)

/-- What is known of the temporary file: the text is in it, or in part still in
the buffer. -/
def Buffered (name : TemporaryName) (bytes : List UInt8) (disk : Disk) : Prop :=
  ∃ temporary, disk.temporaries name = some temporary ∧
    temporary.written ++ temporary.buffered = bytes

/-- The text is in the temporary file. -/
def Stored (name : TemporaryName) (bytes : List UInt8) (disk : Disk) : Prop :=
  ∃ temporary, disk.temporaries name = some temporary ∧ temporary.written = bytes ∧
    temporary.buffered = []

@[simp] theorem setTemporary_files (disk : Disk) (name : TemporaryName)
    (temporary : Option Temporary) : (disk.setTemporary name temporary).files = disk.files := rfl

@[simp] theorem setTemporary_temporaries (disk : Disk) (name : TemporaryName)
    (temporary : Option Temporary) :
    (disk.setTemporary name temporary).temporaries name = temporary := by
  simp [Disk.setTemporary]

section

variable {files : VersionFile → File} {name : TemporaryName} {bytes : List UInt8} {disk : Disk}
  (hfiles : disk.files = files)
include hfiles

theorem mkstemp_kept (path : VersionFile) :
    Holds fileContract (fun answer disk' => match answer with
      | .ok name => disk'.files = files ∧ Buffered name [] disk'
      | .error _ => disk'.files = files) (mkstemp path).run disk := by
  apply holds_perform
  intro answer disk' hstep
  cases answer with
  | ok name =>
    obtain ⟨-, rfl⟩ := hstep
    exact ⟨hfiles, _, setTemporary_temporaries .., rfl⟩
  | error exception =>
    rcases hstep with rfl | ⟨name, -, rfl⟩
    · exact hfiles
    · exact hfiles

theorem fdopen_kept (h : Buffered name bytes disk) :
    Holds fileContract (Kept files (Buffered name bytes)) (fdopen name).run disk := by
  apply holds_perform
  intro answer disk' hstep
  obtain rfl : disk' = disk := hstep
  cases answer with
  | ok _ => exact ⟨hfiles, h⟩
  | error _ => exact hfiles

theorem write_kept {contents : List Char} (h : Buffered name bytes disk) :
    Holds fileContract (Kept files (Buffered name (bytes ++ encode contents)))
      (write name contents).run disk := by
  apply holds_perform
  intro answer disk' hstep
  cases answer with
  | ok _ =>
    obtain ⟨temporary, htemporary, temporary', written, rest, htemporary', hbytes, rfl⟩ := hstep
    obtain ⟨known, hknown, hall⟩ := h
    rw [htemporary] at hknown htemporary'
    cases hknown
    cases htemporary'
    refine ⟨hfiles, _, setTemporary_temporaries .., ?_⟩
    rw [← hall, List.append_assoc, hbytes]
  | error _ =>
    obtain ⟨temporary, rfl⟩ := hstep
    exact hfiles

theorem flush_kept (h : Buffered name bytes disk) :
    Holds fileContract (Kept files (Stored name bytes)) (flush name).run disk := by
  apply holds_perform
  intro answer disk' hstep
  cases answer with
  | ok _ =>
    obtain ⟨temporary, htemporary, rfl⟩ := hstep
    obtain ⟨known, hknown, hall⟩ := h
    rw [htemporary] at hknown
    cases hknown
    exact ⟨hfiles, _, setTemporary_temporaries .., hall, rfl⟩
  | error _ =>
    obtain ⟨temporary, rfl⟩ := hstep
    exact hfiles

theorem fsync_kept (h : Stored name bytes disk) :
    Holds fileContract (Kept files (Stored name bytes)) (fsync name).run disk := by
  apply holds_perform
  intro answer disk' hstep
  obtain rfl : disk' = disk := hstep
  cases answer with
  | ok _ => exact ⟨hfiles, h⟩
  | error _ => exact hfiles

theorem close_kept (h : Stored name bytes disk) :
    Holds fileContract (Kept files (Stored name bytes)) (close name).run disk := by
  apply holds_perform
  intro answer disk' hstep
  cases answer with
  | ok _ =>
    obtain ⟨temporary, htemporary, rfl⟩ := hstep
    obtain ⟨known, hknown, hwritten, hbuffered⟩ := h
    rw [htemporary] at hknown
    cases hknown
    refine ⟨hfiles, _, setTemporary_temporaries .., ?_, rfl⟩
    simp [hbuffered, hwritten]
  | error _ =>
    obtain ⟨temporary, rfl⟩ := hstep
    exact hfiles

theorem close_files :
    Holds fileContract (fun _ disk' => disk'.files = files) (close name).run disk := by
  apply holds_perform
  intro answer disk' hstep
  cases answer with
  | ok _ =>
    obtain ⟨temporary, -, rfl⟩ := hstep
    exact hfiles
  | error _ =>
    obtain ⟨temporary, rfl⟩ := hstep
    exact hfiles

theorem stat_kept {path : VersionFile} (h : Stored name bytes disk) :
    Holds fileContract (Kept files (Stored name bytes)) (stat path).run disk := by
  apply holds_perform
  intro answer disk' hstep
  obtain ⟨rfl, -⟩ := hstep
  cases answer with
  | ok _ => exact ⟨hfiles, h⟩
  | error _ => exact hfiles

theorem chmod_kept {mode : Nat} (h : Stored name bytes disk) :
    Holds fileContract (Kept files (Stored name bytes)) (chmod name mode).run disk := by
  apply holds_perform
  intro answer disk' hstep
  rcases hstep with ⟨rfl, -⟩ | ⟨temporary, htemporary, rfl⟩
  · cases answer with
    | ok _ => exact ⟨hfiles, h⟩
    | error _ => exact hfiles
  · cases answer with
    | ok _ =>
      obtain ⟨known, hknown, hwritten, hbuffered⟩ := h
      rw [htemporary] at hknown
      cases hknown
      exact ⟨hfiles, _, setTemporary_temporaries .., hwritten, hbuffered⟩
    | error _ => exact hfiles

end

/-- What has become of the files when one of them was to be replaced. -/
structure Replaces (files : VersionFile → File) (path : VersionFile) (bytes : List UInt8)
    (result : Except OSError Unit) (disk : Disk) : Prop where
  others : ∀ other, other ≠ path → disk.files other = files other
  either : disk.files path = files path ∨ (disk.files path).bytes = bytes
  done : result = .ok () → (disk.files path).bytes = bytes

theorem replaces_of_kept {files : VersionFile → File} {path : VersionFile} {bytes : List UInt8}
    {exception : OSError} {disk : Disk} (h : disk.files = files) :
    Replaces files path bytes (.error exception) disk where
  others := fun _ _ => by rw [h]
  either := .inl (by rw [h])
  done := fun hok => by cases hok

theorem replace_replaces {files : VersionFile → File} {path : VersionFile} {name : TemporaryName}
    {bytes : List UInt8} {disk : Disk} (hfiles : disk.files = files)
    (h : Stored name bytes disk) :
    Holds fileContract (Replaces files path bytes) (replace name path).run disk := by
  apply holds_perform
  intro answer disk' hstep
  rcases hstep with ⟨rfl, hanswer⟩ | ⟨temporary, htemporary, rfl⟩
  · exact ⟨fun _ _ => by rw [hfiles], .inl (by rw [hfiles]), fun hok => absurd hok hanswer⟩
  · obtain ⟨known, hknown, hwritten, -⟩ := h
    rw [htemporary] at hknown
    cases hknown
    have hbytes : ((disk.replaced name path temporary).files path).bytes = bytes := by
      simp [Disk.replaced, hwritten]
    refine ⟨fun other hother => ?_, .inr hbytes, fun _ => hbytes⟩
    simp [Disk.replaced, hother, hfiles]

theorem unlinkTemporary_files {files : VersionFile → File} {name : TemporaryName} {disk : Disk}
    (hfiles : disk.files = files) :
    Holds fileContract (fun _ disk' => disk'.files = files) (unlinkTemporary name).run disk := by
  apply holds_bind
  apply holds_perform
  intro answer disk' hstep
  have hfiles' : disk'.files = files := by
    rcases hstep with ⟨rfl, -⟩ | rfl
    · exact hfiles
    · exact hfiles
  cases answer with
  | ok _ => exact holds_done.mpr hfiles'
  | error exception =>
    simp only
    split_ifs
    · exact holds_done.mpr hfiles'
    · exact holds_done.mpr hfiles'

/-! ## One file -/

/-- The `with` block: without an exception the text is in the temporary file. -/
theorem handle_kept {files : VersionFile → File} {name : TemporaryName} {contents : List Char}
    {disk : Disk} (hfiles : disk.files = files) (h : Buffered name [] disk) :
    Holds fileContract (Kept files (Stored name (encode contents)))
      (Raising.tryFinally
        (do
          write name contents
          flush name
          fsync name)
        (close name)).run disk := by
  have hbody : Holds fileContract (Kept files (Stored name (encode contents)))
      (do
        write name contents
        flush name
        fsync name : Raising FileAns OSError Unit).run disk := by
    refine holds_kept_bind (write_kept hfiles h) (fun _ _ hkept => hkept) ?_
    intro _ disk' hfiles' hbuffered
    refine holds_kept_bind (flush_kept hfiles' hbuffered) (fun _ _ hkept => hkept) ?_
    intro _ disk' hfiles' hstored
    exact fsync_kept hfiles' hstored
  apply holds_tryFinally
  refine holds_mono hbody ?_
  intro result disk' hkept
  cases result with
  | ok _ =>
    refine holds_mono (close_kept hkept.1 hkept.2) ?_
    intro cleaned disk'' hclosed
    cases cleaned with
    | ok _ => exact holds_done.mpr hclosed
    | error _ => exact holds_done.mpr hclosed
  | error exception =>
    refine holds_mono (close_files hkept) ?_
    intro cleaned disk'' hclosed
    cases cleaned with
    | ok _ => exact holds_done.mpr hclosed
    | error _ => exact holds_done.mpr hclosed

/-- The file is replaced by the new text or as it was, and replaced if nothing is
raised; other files are not touched. -/
theorem atomicWrite_replaces {files : VersionFile → File} {path : VersionFile}
    {contents : List Char} {disk : Disk} (hfiles : disk.files = files) :
    Holds fileContract (Replaces files path (encode contents)) (atomicWrite path contents).run
      disk := by
  apply holds_raising_bind
  refine holds_mono (mkstemp_kept hfiles path) ?_
  intro result disk' hmade
  cases result with
  | error exception => exact holds_done.mpr (replaces_of_kept hmade)
  | ok name =>
    obtain ⟨hfiles', hbuffered⟩ := hmade
    have hraise : ∀ exception disk'', disk''.files = files →
        Replaces files path (encode contents) (.error exception) disk'' :=
      fun _ _ => replaces_of_kept
    have hbody : Holds fileContract (Replaces files path (encode contents))
        (do
          fdopen name
          Raising.tryFinally
            (do
              write name contents
              flush name
              fsync name)
            (close name)
          let metadata ← stat path
          chmod name metadata.mode
          replace name path : Raising FileAns OSError Unit).run disk' := by
      refine holds_kept_bind (fdopen_kept hfiles' hbuffered) hraise ?_
      intro _ disk'' hfiles'' hbuffered'
      refine holds_kept_bind (handle_kept hfiles'' hbuffered') hraise ?_
      intro _ disk'' hfiles'' hstored
      refine holds_kept_bind (stat_kept hfiles'' hstored) hraise ?_
      intro _ disk'' hfiles'' hstored'
      refine holds_kept_bind (chmod_kept hfiles'' hstored') hraise ?_
      intro _ disk'' hfiles'' hstored''
      exact replace_replaces hfiles'' hstored''
    apply holds_tryFinally
    refine holds_mono hbody ?_
    intro result disk'' hreplaces
    refine holds_mono (unlinkTemporary_files rfl) ?_
    intro cleaned disk''' hunlinked
    cases cleaned with
    | ok _ =>
      refine holds_done.mpr ⟨?_, ?_, ?_⟩ <;> rw [hunlinked]
      · exact hreplaces.others
      · exact hreplaces.either
      · exact hreplaces.done
    | error exception =>
      refine holds_done.mpr ⟨?_, ?_, fun hok => by cases hok⟩ <;> rw [hunlinked]
      · exact hreplaces.others
      · exact hreplaces.either

/-! ## Both files -/

/-- The contents of a file. -/
def Disk.bytes (disk : Disk) (path : VersionFile) : List UInt8 := (disk.files path).bytes

/-- What is read is a whole file within its bound. -/
theorem readText_whole {pathText : PathText} {path : VersionFile} {maximumBytes : Nat}
    {disk : Disk} :
    Holds fileContract (fun result disk' => disk' = disk ∧
        ∀ contents, result = .ok contents → decode (disk.bytes path) = some contents ∧
          (disk.bytes path).length ≤ maximumBytes)
      (readText pathText path maximumBytes).run disk := by
  apply holds_bind
  apply holds_perform
  rintro answer disk' ⟨rfl, -⟩
  cases answer with
  | error exception => exact holds_done.mpr ⟨rfl, fun _ h => by cases h⟩
  | ok symlink =>
    cases symlink with
    | true => exact holds_done.mpr ⟨rfl, fun _ h => by cases h⟩
    | false =>
      apply holds_bind
      apply holds_perform
      rintro answer disk' ⟨rfl, hstat⟩
      cases answer with
      | error exception => exact holds_done.mpr ⟨rfl, fun _ h => by cases h⟩
      | ok metadata =>
        simp only
        split_ifs with hregular hlarge
        · exact holds_done.mpr ⟨rfl, fun _ h => by cases h⟩
        · exact holds_done.mpr ⟨rfl, fun _ h => by cases h⟩
        · rw [hstat metadata rfl] at hlarge
          apply holds_bind
          apply holds_perform
          rintro answer disk' ⟨rfl, hread, -⟩
          cases answer with
          | error exception =>
            cases exception <;> exact holds_done.mpr ⟨rfl, fun _ h => by cases h⟩
          | ok contents =>
            refine holds_done.mpr ⟨rfl, fun contents' h => ?_⟩
            cases h
            exact ⟨hread contents rfl, Nat.le_of_not_lt hlarge⟩

theorem readText_reads {pathText : PathText} {path : VersionFile} {maximumBytes : Nat}
    {disk : Disk} :
    Holds fileContract (fun result disk' => disk' = disk ∧
        ∀ contents, result = .ok contents → decode (disk.bytes path) = some contents)
      (readText pathText path maximumBytes).run disk :=
  holds_mono readText_whole fun _ _ h => ⟨h.1, fun contents hok => (h.2 contents hok).1⟩

/-- The rollback puts back every file of which it reports nothing, in whatever
state the files are. -/
theorem rollback_restores {restored : List (VersionFile × List Char)}
    (hdistinct : (restored.map Prod.fst).Nodup) {disk : Disk} :
    Holds fileContract (fun rollbackErrors disk' =>
        (∀ path ∉ restored.map Prod.fst, disk'.files path = disk.files path) ∧
        (rollbackErrors = [] → ∀ entry ∈ restored, disk'.bytes entry.1 = encode entry.2))
      (rollback restored) disk := by
  induction restored generalizing disk with
  | nil => exact holds_done.mpr ⟨fun _ _ => rfl, fun _ _ h => by cases h⟩
  | cons entry rest ih =>
    obtain ⟨path, contents⟩ := entry
    rw [List.map_cons, List.nodup_cons] at hdistinct
    apply holds_bind
    refine holds_mono (atomicWrite_replaces rfl) ?_
    intro result disk' hreplaces
    apply holds_bind
    refine holds_mono (ih hdistinct.2) ?_
    rintro rollbackErrors disk'' ⟨hothers, hrestored⟩
    have hothers' : ∀ other ∉ path :: rest.map Prod.fst,
        disk''.files other = disk.files other := by
      intro other hother
      rw [List.mem_cons, not_or] at hother
      rw [hothers other hother.2, hreplaces.others other hother.1]
    cases result with
    | error exception =>
      exact holds_done.mpr ⟨hothers', fun hnone => by cases hnone⟩
    | ok _ =>
      refine holds_done.mpr ⟨hothers', fun hnone entry hentry => ?_⟩
      rcases List.mem_cons.mp hentry with rfl | hentry
      · have hpath : disk''.files path = disk'.files path := hothers path hdistinct.1
        rw [Disk.bytes, hpath, hreplaces.done rfl]
      · exact hrestored hnone entry hentry

/-- What a bump has come to and what it leaves. -/
inductive Bumped (loads : List Char → Option Table) (component : String) (disk : Disk) :
    Except BumpError Version → Disk → Prop where
  /-- It is refused before anything is written. -/
  | refused (message : String) : Bumped loads component disk (.error (.policy message)) disk
  | updated {manifest lockfile : List Char} {texts : BumpedTexts} {disk' : Disk} :
      decode (disk.bytes .manifest) = some manifest →
      decode (disk.bytes .lockfile) = some lockfile →
      bumpedTexts loads manifest lockfile component = .ok texts →
      disk'.bytes .manifest = encode texts.manifest →
      disk'.bytes .lockfile = encode texts.lockfile →
      Bumped loads component disk (.ok texts.version) disk'
  | failed {manifest lockfile : List Char} {texts : BumpedTexts} {disk' : Disk}
      (exception : OSError) (rollbackErrors : List (VersionFile × OSError)) :
      decode (disk.bytes .manifest) = some manifest →
      decode (disk.bytes .lockfile) = some lockfile →
      bumpedTexts loads manifest lockfile component = .ok texts →
      (rollbackErrors = [] → ∀ path, disk'.bytes path = disk.bytes path) →
      Bumped loads component disk (.error (.update exception rollbackErrors)) disk'

/-- Every run of `bump` ends in one of the cases of `Bumped`: it is refused before anything is
written, or both files have the texts of the new version, or a write has failed and both files
are as before, unless the error says that the rollback has failed as well. -/
theorem bump_bumped (loads : List Char → Option Table) (pathText : PathText)
    (component : String) (disk : Disk) :
    Holds fileContract (Bumped loads component disk) (bump loads pathText component).run disk := by
  apply holds_bind
  refine holds_mono readText_reads ?_
  rintro result disk' ⟨rfl, hmanifest⟩
  cases result with
  | error message => exact holds_done.mpr (.refused message)
  | ok manifest =>
    have hmanifest' := hmanifest manifest rfl
    apply holds_bind
    refine holds_mono readText_reads ?_
    rintro result disk' ⟨rfl, hlockfile⟩
    cases result with
    | error message => exact holds_done.mpr (.refused message)
    | ok lockfile =>
      have hlockfile' := hlockfile lockfile rfl
      cases htexts : bumpedTexts loads manifest lockfile component with
      | error message =>
        simp only [htexts]
        exact holds_done.mpr (Bumped.refused message)
      | ok texts =>
        simp only [htexts]
        apply holds_bind
        have hupdate : Holds fileContract (fun result disk'' => result = .ok () →
            disk''.bytes .manifest = encode texts.manifest ∧
            disk''.bytes .lockfile = encode texts.lockfile)
            (do
              atomicWrite .manifest texts.manifest
              atomicWrite .lockfile texts.lockfile : Raising FileAns OSError Unit).run disk' := by
          apply holds_raising_bind
          refine holds_mono (atomicWrite_replaces rfl) ?_
          intro result disk'' hmanifestWritten
          cases result with
          | error exception => exact holds_done.mpr fun h => by cases h
          | ok _ =>
            refine holds_mono (atomicWrite_replaces rfl) ?_
            intro result disk''' hlockfileWritten h
            refine ⟨?_, hlockfileWritten.done h⟩
            rw [Disk.bytes, hlockfileWritten.others .manifest (by decide)]
            exact hmanifestWritten.done rfl
        refine holds_mono hupdate ?_
        intro result disk'' hwritten
        cases result with
        | ok _ =>
          obtain ⟨hnewManifest, hnewLockfile⟩ := hwritten rfl
          exact holds_done.mpr (.updated hmanifest' hlockfile' htexts hnewManifest hnewLockfile)
        | error exception =>
          apply holds_bind
          refine holds_mono (rollback_restores (by simp)) ?_
          rintro rollbackErrors disk''' ⟨-, hrestored⟩
          refine holds_done.mpr (.failed exception rollbackErrors hmanifest' hlockfile' htexts ?_)
          intro hnone path
          cases path with
          | manifest =>
            exact (hrestored hnone (.manifest, manifest) (by simp)).trans
              (encode_of_decode hmanifest')
          | lockfile =>
            exact (hrestored hnone (.lockfile, lockfile) (by simp)).trans
              (encode_of_decode hlockfile')

theorem BumpError.message_update (pathText : PathText) (exception : OSError)
    (rollbackErrors : List (VersionFile × OSError)) :
    (BumpError.update exception rollbackErrors).message pathText =
      s!"failed to update version files: {exception.text}" ++
        rollbackDetail pathText rollbackErrors := rfl

theorem rollbackPhrase_reported {pathText : PathText} {exception : OSError}
    {rollbackErrors : List (VersionFile × OSError)} (h : rollbackErrors ≠ []) :
    rollbackPhrase.toList <:+:
      ((BumpError.update exception rollbackErrors).message pathText).toList := by
  obtain ⟨rest, hdetail⟩ : ∃ rest,
      (rollbackDetail pathText rollbackErrors).toList = rollbackPhrase.toList ++ rest := by
    unfold rollbackDetail
    rw [if_neg (by simpa using h), String.toList_append]
    exact ⟨_, rfl⟩
  rw [BumpError.message_update, String.toList_append, hdetail]
  generalize rollbackPhrase.toList = phrase
  generalize String.toList _ = front
  exact ⟨front, rest, List.append_assoc front phrase rest⟩

/-- A bump that returns has updated both files; one that raises, and does not report
that the rollback failed, has left both as they were; one that is refused by the
validation or by `Version.bump` has written nothing. -/
theorem bump_updates_both_or_neither {loads : List Char → Option Table} {pathText : PathText}
    {component : String} {trace : List (Event FileAns)} {outcome : Except BumpError Version}
    {disk disk' : Disk} (hrun : Runs (bump loads pathText component).run trace outcome)
    (hpath : Path fileContract disk trace disk') :
    (∀ version, outcome = .ok version → ∃ manifest lockfile texts,
      decode (disk.bytes .manifest) = some manifest ∧
      decode (disk.bytes .lockfile) = some lockfile ∧
      bumpedTexts loads manifest lockfile component = .ok texts ∧ version = texts.version ∧
      disk'.bytes .manifest = encode texts.manifest ∧
      disk'.bytes .lockfile = encode texts.lockfile) ∧
    (∀ error, outcome = .error error →
      ¬ rollbackPhrase.toList <:+: (error.message pathText).toList →
      ∀ path, disk'.bytes path = disk.bytes path) ∧
    ∀ manifest lockfile message, decode (disk.bytes .manifest) = some manifest →
      decode (disk.bytes .lockfile) = some lockfile →
      bumpedTexts loads manifest lockfile component = .error message → disk' = disk := by
  have hbumped := holds_run (bump_bumped loads pathText component disk) hrun hpath
  cases hbumped with
  | refused message =>
    exact ⟨fun _ h => (by cases h), fun _ _ _ _ => rfl, fun _ _ _ _ _ _ => rfl⟩
  | @updated manifest lockfile texts disk' hmanifest hlockfile htexts hnewManifest hnewLockfile =>
    refine ⟨fun version h => ?_, fun _ h => (by cases h), ?_⟩
    · cases h
      exact ⟨manifest, lockfile, texts, hmanifest, hlockfile, htexts, rfl, hnewManifest,
        hnewLockfile⟩
    · intro manifest' lockfile' message hmanifest' hlockfile' herror
      rw [hmanifest, Option.some.injEq] at hmanifest'
      rw [hlockfile, Option.some.injEq] at hlockfile'
      rw [← hmanifest', ← hlockfile', htexts] at herror
      cases herror
  | @failed manifest lockfile texts disk' exception rollbackErrors hmanifest hlockfile htexts
      hrestored =>
    refine ⟨fun _ h => (by cases h), ?_, ?_⟩
    · rintro error h hsilent
      cases h
      by_cases hnone : rollbackErrors = []
      · exact hrestored hnone
      · exact absurd (rollbackPhrase_reported hnone) hsilent
    · intro manifest' lockfile' message hmanifest' hlockfile' herror
      rw [hmanifest, Option.some.injEq] at hmanifest'
      rw [hlockfile, Option.some.injEq] at hlockfile'
      rw [← hmanifest', ← hlockfile', htexts] at herror
      cases herror

/-- A bump that returns has rewritten exactly the version in both files: the new one
is greater, and is what the checks find in the new files. -/
theorem bump_rewrites_version {loads : List Char → Option Table} {pathText : PathText}
    {component : String} {trace : List (Event FileAns)} {version : Version}
    {disk disk' : Disk} (hrun : Runs (bump loads pathText component).run trace (.ok version))
    (hpath : Path fileContract disk trace disk') :
    ∃ manifest lockfile newManifest newLockfile current,
      decode (disk.bytes .manifest) = some manifest ∧
      decode (disk.bytes .lockfile) = some lockfile ∧
      disk'.bytes .manifest = encode newManifest ∧
      disk'.bytes .lockfile = encode newLockfile ∧
      (∀ source, validatedVersion loads manifest lockfile source = .ok current) ∧
      current < version ∧ version.Bounded ∧
      (∀ source, validatedVersion loads newManifest newLockfile source = .ok version) ∧
      RewritesVersion manifest newManifest current.str version.str ∧
      RewritesVersion lockfile newLockfile current.str version.str := by
  have hbumped := holds_run (bump_bumped loads pathText component disk) hrun hpath
  cases hbumped with
  | @updated manifest lockfile texts disk' hmanifest hlockfile htexts hnewManifest hnewLockfile =>
    obtain ⟨current, hrewrite⟩ := bumpedTexts_rewrite loads htexts
    obtain ⟨hcurrent, hlt, hbounded, haccepted, hmanifestRewritten, hlockfileRewritten⟩ := hrewrite
    exact ⟨manifest, lockfile, texts.manifest, texts.lockfile, current, hmanifest, hlockfile,
      hnewManifest, hnewLockfile, hcurrent, hlt, hbounded, haccepted, hmanifestRewritten,
      hlockfileRewritten⟩

/-! ## Runs on a disk -/

/-- An operation that raises and takes no effect. -/
def raised : (op : FileOp) → FileAns op
  | .read _ => .error (.os ⟨false, "Input/output error"⟩)
  | .isSymlink _ | .stat _ | .mkstemp _ | .fdopen _ | .write _ _ | .flush _ | .fsync _ | .close _
  | .chmod _ _ | .replace _ _ | .unlink _ => .error ⟨false, "Input/output error"⟩

/-- An operation on the temporary file of a name. -/
def answered (disk : Disk) (name : TemporaryName) (change : Temporary → Disk) :
    Except OSError Unit × Disk :=
  match disk.temporaries name with
  | some temporary => (.ok (), change temporary)
  | none => (.error ⟨true, "No such file or directory"⟩, disk)

/-- An operation that takes effect, where it can. -/
def effected (disk : Disk) : (op : FileOp) → FileAns op × Disk
  | .isSymlink path => (.ok (disk.files path).symlink, disk)
  | .stat path => (.ok ⟨(disk.files path).regular, (disk.files path).bytes.length,
      (disk.files path).mode⟩, disk)
  | .read path => (match decode (disk.files path).bytes with
      | some contents => .ok contents
      | none => .error (.unicode "invalid start byte"), disk)
  | .mkstemp _ => match disk.temporaries 0 with
      | none => (.ok 0, disk.setTemporary 0 (some ⟨0o600, [], []⟩))
      | some _ => (.error ⟨false, "No usable temporary file name found"⟩, disk)
  | .fdopen _ | .fsync _ => (.ok (), disk)
  | .write name contents => answered disk name fun temporary => disk.setTemporary name
      (some { temporary with buffered := temporary.buffered ++ encode contents })
  | .flush name | .close name => answered disk name fun temporary => disk.setTemporary name
      (some { temporary with written := temporary.written ++ temporary.buffered, buffered := [] })
  | .chmod name mode => answered disk name fun temporary => disk.setTemporary name
      (some { temporary with mode := mode })
  | .replace name path => answered disk name fun temporary => disk.replaced name path temporary
  | .unlink name => answered disk name fun _ => disk.setTemporary name none

theorem raised_step (disk : Disk) (op : FileOp) : FileStep disk op (raised op) disk := by
  have hsame : ∀ name, disk = disk.setTemporary name (disk.temporaries name) := by
    intro name
    simp [Disk.setTemporary]
  cases op with
  | isSymlink path => exact ⟨rfl, fun _ h => by cases h⟩
  | stat path => exact ⟨rfl, fun _ h => by cases h⟩
  | read path => exact ⟨rfl, fun _ h => (by cases h), fun _ h => by cases h⟩
  | mkstemp path => exact .inl rfl
  | fdopen name | fsync name => exact (rfl : disk = disk)
  | write name contents => exact ⟨disk.temporaries name, hsame name⟩
  | flush name | close name => exact ⟨disk.temporaries name, hsame name⟩
  | chmod name mode => exact .inl ⟨rfl, fun h => by cases h⟩
  | replace name path => exact .inl ⟨rfl, fun h => by cases h⟩
  | unlink name => exact .inl ⟨rfl, fun h => by cases h⟩

/-- The disk that carries out each operation in full is one that the operations may lead to, so
that every program has a run on every disk. -/
theorem effected_step (disk : Disk) (op : FileOp) :
    FileStep disk op (effected disk op).1 (effected disk op).2 := by
  have hsame : ∀ name, disk = disk.setTemporary name (disk.temporaries name) := by
    intro name
    simp [Disk.setTemporary]
  cases op with
  | isSymlink path =>
    refine ⟨rfl, fun _ h => ?_⟩
    cases h
    rfl
  | stat path =>
    refine ⟨rfl, fun _ h => ?_⟩
    cases h
    rfl
  | read path =>
    refine ⟨rfl, ?_⟩
    cases h : decode (disk.files path).bytes with
    | none =>
      simp only [effected, h]
      exact ⟨fun _ h => (by cases h), fun _ _ => trivial⟩
    | some contents =>
      simp only [effected, h]
      exact ⟨fun _ h => by cases h; rfl, fun _ h => by cases h⟩
  | mkstemp path =>
    cases h : disk.temporaries 0 with
    | none =>
      simp only [effected, h]
      exact ⟨h, rfl⟩
    | some temporary =>
      simp only [effected, h]
      exact .inl rfl
  | fdopen name | fsync name => exact (rfl : disk = disk)
  | write name contents =>
    cases h : disk.temporaries name with
    | none =>
      simp only [effected, answered, h]
      exact ⟨none, h ▸ hsame name⟩
    | some temporary =>
      simp only [effected, answered, h]
      exact ⟨temporary, h, temporary, temporary.written, _, h, rfl, rfl⟩
  | flush name | close name =>
    cases h : disk.temporaries name with
    | none =>
      simp only [effected, answered, h]
      exact ⟨none, h ▸ hsame name⟩
    | some temporary =>
      simp only [effected, answered, h]
      exact ⟨temporary, h, rfl⟩
  | chmod name mode | replace name path =>
    cases h : disk.temporaries name with
    | none =>
      simp only [effected, answered, h]
      exact .inl ⟨rfl, fun h => by cases h⟩
    | some temporary =>
      simp only [effected, answered, h]
      exact .inr ⟨temporary, h, rfl⟩
  | unlink name =>
    cases h : disk.temporaries name with
    | none =>
      simp only [effected, answered, h]
      exact .inl ⟨rfl, fun h => by cases h⟩
    | some temporary =>
      simp only [effected, answered, h]
      exact .inr rfl

/-- A run on a disk in which the operations marked so raise. -/
def runFiles {α : Type} : List Bool → Disk → Program FileAns α → List (Event FileAns) × α × Disk
  | _, disk, .done value => ([], value, disk)
  | raises, disk, .ask op next =>
      let (answer, disk') := if raises.headD false then (raised op, disk) else effected disk op
      let (trace, result) := runFiles raises.tail disk' (next answer)
      (⟨op, answer⟩ :: trace, result)

theorem runFiles_run {α : Type} (raises : List Bool) (disk : Disk) (p : Program FileAns α) :
    Runs p (runFiles raises disk p).1 (runFiles raises disk p).2.1 ∧
      Path fileContract disk (runFiles raises disk p).1 (runFiles raises disk p).2.2 := by
  induction p generalizing raises disk with
  | done value => exact ⟨.done value, .nil rfl⟩
  | ask op next ih =>
    have hstep : ∀ answer disk', FileStep disk op answer disk' →
        Runs (.ask op next) (⟨op, answer⟩ :: (runFiles raises.tail disk' (next answer)).1)
            (runFiles raises.tail disk' (next answer)).2.1 ∧
          Path fileContract disk (⟨op, answer⟩ :: (runFiles raises.tail disk' (next answer)).1)
            (runFiles raises.tail disk' (next answer)).2.2 := by
      intro answer disk' h
      obtain ⟨hruns, hpath⟩ := ih answer raises.tail disk'
      exact ⟨.ask answer hruns, .cons rfl h hpath⟩
    by_cases hraise : raises.headD false = true
    · simp only [runFiles, hraise, if_true]
      exact hstep _ _ (raised_step disk op)
    · simp only [runFiles, hraise, Bool.false_eq_true, if_false]
      exact hstep _ _ (effected_step disk op)

/-- A reader of the tables that the scanners find, enough of TOML for the files of
the example. -/
def scannedLoads (contents : List Char) : Option Table :=
  let field (found : List Assignment) : Option Toml :=
    found.head?.map fun assignment => .string assignment.value
  if "[[".toList.isPrefixOf contents then
    some fun key => if key = "package" then
      some (.array ((scanLock contents).map fun block => .table fun key =>
        if key = "name" then field block.names
        else if key = "version" then field block.versions
        else field block.sources))
      else none
  else
    some fun key => if key = "package" then
      some (.table fun key => field (scanPackage contents key.toList).found)
      else none

/-- A checkout at version 1.2.3. -/
def checkoutDisk : Disk where
  files
    | .manifest => ⟨false, true, 0o644,
        encode "[package]\nname = \"cirrusync\"\nversion = \"1.2.3\"\n".toList⟩
    | .lockfile => ⟨false, true, 0o644,
        encode "[[package]]\nname = \"cirrusync\"\nversion = \"1.2.3\"\n".toList⟩
  temporaries := fun _ => none

def checkoutPath : PathText
  | .manifest => "Cargo.toml"
  | .lockfile => "Cargo.lock"

/-- The patch version is bumped on a disk without faults. -/
def patchRun : List (Event FileAns) × Except BumpError Version × Disk :=
  runFiles [] checkoutDisk (bump scannedLoads checkoutPath "patch").run

/-- The replacement of the lockfile raises. -/
def brokenRun : List (Event FileAns) × Except BumpError Version × Disk :=
  runFiles (List.replicate 24 false ++ [true]) checkoutDisk
    (bump scannedLoads checkoutPath "patch").run

theorem patchRun_run :
    Runs (bump scannedLoads checkoutPath "patch").run patchRun.1 patchRun.2.1 ∧
      Path fileContract checkoutDisk patchRun.1 patchRun.2.2 := by
  unfold patchRun
  exact runFiles_run ..

theorem brokenRun_run :
    Runs (bump scannedLoads checkoutPath "patch").run brokenRun.1 brokenRun.2.1 ∧
      Path fileContract checkoutDisk brokenRun.1 brokenRun.2.2 := by
  unfold brokenRun
  exact runFiles_run ..

theorem bump_rewrites_version_patch : ∃ newManifest newLockfile,
    patchRun.2.2.bytes .manifest = encode newManifest ∧
      patchRun.2.2.bytes .lockfile = encode newLockfile ∧
      validatedVersion scannedLoads newManifest newLockfile "working tree" = .ok ⟨1, 2, 4⟩ := by
  have hversion : patchRun.2.1 = .ok ⟨1, 2, 4⟩ := by decide +kernel
  obtain ⟨hruns, hpath⟩ := patchRun_run
  rw [hversion] at hruns
  obtain ⟨_, _, newManifest, newLockfile, _, -, -, hmanifest, hlockfile, -, -, -, haccepted, -⟩ :=
    bump_rewrites_version hruns hpath
  exact ⟨newManifest, newLockfile, hmanifest, hlockfile, haccepted _⟩

theorem bump_updates_both_or_neither_broken :
    (∃ exception, brokenRun.2.1 = .error (.update exception [])) ∧
      ∀ path, brokenRun.2.2.bytes path = checkoutDisk.bytes path := by
  have houtcome : brokenRun.2.1 = .error (.update ⟨false, "Input/output error"⟩ []) := by
    decide +kernel
  have hsilent : ¬ rollbackPhrase.toList <:+:
      ((BumpError.update ⟨false, "Input/output error"⟩ []).message checkoutPath).toList := by
    decide +kernel
  obtain ⟨hruns, hpath⟩ := brokenRun_run
  obtain ⟨-, hrestored, -⟩ := bump_updates_both_or_neither hruns hpath
  exact ⟨⟨_, houtcome⟩, hrestored _ houtcome hsilent⟩

end Cirrusync.Release
