import Cirrusync.Release.BumpRuns
import Cirrusync.Release.VersionGate

/-!
What passes the gate, whatever else is put into the store and wherever refs go while it runs.
A ref is followed once; from then on the gate looks at one commit.
-/

namespace Cirrusync.Release

open Effect Python

/-! ## What a commit releases -/

/-- A file of a commit that is neither executable nor a link. -/
def CommittedFile (store : Git.Store) (commit : Git.ObjectId) (path : VersionFile)
    (bytes : List UInt8) : Prop :=
  ∃ entry, store.HasFile commit path.asPosix entry bytes ∧
    entry.mode.bytes = Git.ascii "100644".toList ∧ entry.kind.bytes = Git.blobKind

/-- A committed file within its bound, by its text. -/
def CommittedText (store : Git.Store) (commit : Git.ObjectId) (path : VersionFile)
    (contents : List Char) : Prop :=
  ∃ bytes, CommittedFile store commit path bytes ∧ bytes.length ≤ path.maximumBytes ∧
    decode bytes = some contents

/-- The version files of a commit are accepted. -/
def Released (loads : List Char → Option Table) (store : Git.Store) (commit : Git.ObjectId)
    (v : Version) : Prop :=
  ∃ manifest lockfile, CommittedText store commit .manifest manifest ∧
    CommittedText store commit .lockfile lockfile ∧
    validatedVersion loads manifest lockfile "requested Git commit" = .ok v

section

variable {store store' : Git.Store} {commit : Git.ObjectId} {path : VersionFile}

theorem CommittedFile.extends {bytes : List UInt8} (h : CommittedFile store commit path bytes)
    (hextends : store.Extends store') : CommittedFile store' commit path bytes := by
  obtain ⟨entry, hfile, hregular⟩ := h
  exact ⟨entry, hfile.extends hextends, hregular⟩

theorem CommittedFile.unique {bytes bytes' : List UInt8}
    (h : CommittedFile store commit path bytes) (h' : CommittedFile store' commit path bytes')
    (hextends : store.Extends store') : bytes = bytes' := by
  obtain ⟨entry, hfile, -⟩ := h
  obtain ⟨entry', hfile', -⟩ := h'
  exact (hfile.unique hfile' hextends).2

theorem CommittedText.extends {contents : List Char}
    (h : CommittedText store commit path contents) (hextends : store.Extends store') :
    CommittedText store' commit path contents := by
  obtain ⟨bytes, hfile, hrest⟩ := h
  exact ⟨bytes, hfile.extends hextends, hrest⟩

theorem CommittedText.unique {contents contents' : List Char}
    (h : CommittedText store commit path contents)
    (h' : CommittedText store' commit path contents') (hextends : store.Extends store') :
    contents = contents' := by
  obtain ⟨bytes, hfile, -, hdecode⟩ := h
  obtain ⟨bytes', hfile', -, hdecode'⟩ := h'
  obtain rfl := hfile.unique hfile' hextends
  exact Option.some.inj (hdecode.symm.trans hdecode')

variable {loads : List Char → Option Table} {v w : Version}

theorem Released.extends (h : Released loads store commit v) (hextends : store.Extends store') :
    Released loads store' commit v := by
  obtain ⟨manifest, lockfile, hmanifest, hlockfile, hvalid⟩ := h
  exact ⟨manifest, lockfile, hmanifest.extends hextends, hlockfile.extends hextends, hvalid⟩

/-- A commit releases one version, whenever it is looked at. -/
theorem Released.unique (h : Released loads store commit v) (h' : Released loads store' commit w)
    (hextends : store.Extends store') : v = w := by
  obtain ⟨manifest, lockfile, hmanifest, hlockfile, hvalid⟩ := h
  obtain ⟨manifest', lockfile', hmanifest', hlockfile', hvalid'⟩ := h'
  obtain rfl := hmanifest.unique hmanifest' hextends
  obtain rfl := hlockfile.unique hlockfile' hextends
  exact Except.ok.inj (hvalid.symm.trans hvalid')

end

/-! ## The parts of the gate -/

section

variable {faults : Bool} {state : Git.State} {α β : Type}
  {post : Except GateError β → Git.State → Prop}

theorem holds_git {command : Git.Command} {f : Git.Completed → Gate β}
    (hfault : ∀ store message, state.store.Extends store → faults = true →
      post (.error (.policy message)) (state.asked store command))
    (h : ∀ store result, state.store.Extends store → store.answers faults command (.ok result) →
      Holds (Git.contract faults) post (f result).run (state.asked store command)) :
    Holds (Git.contract faults) post (git command >>= f).run state := by
  apply holds_raising_bind
  apply Git.holds_ask
  intro store answer hextends hanswers
  cases answer with
  | error exception =>
      exact Git.holds_done (Git.holds_done (hfault store _ hextends hanswers))
  | ok result => exact Git.holds_done (h store result hextends hanswers)

theorem holds_refuseIf {condition : Bool} {message : String} {f : Unit → Gate β}
    (hrefused : condition = true → post (.error (.policy message)) state)
    (h : condition = false → Holds (Git.contract faults) post (f ()).run state) :
    Holds (Git.contract faults) post (refuseIf condition message >>= f).run state := by
  apply holds_raising_bind
  cases condition with
  | true => exact Git.holds_done (Git.holds_done (hrefused rfl))
  | false => exact Git.holds_done (h rfl)

theorem holds_orRefuse {value : Option α} {message : String} {f : α → Gate β}
    (hrefused : value = none → post (.error (.policy message)) state)
    (h : ∀ found, value = some found →
      Holds (Git.contract faults) post (f found).run state) :
    Holds (Git.contract faults) post (orRefuse value message >>= f).run state := by
  apply holds_raising_bind
  cases value with
  | none => exact Git.holds_done (Git.holds_done (hrefused rfl))
  | some found => exact Git.holds_done (h found rfl)

theorem holds_intOfBytes {n : Nat} {f : Nat → Gate β}
    (hrefused : maxStrDigits < (Nat.toDigits 10 n).length → post (.error .value) state)
    (h : Holds (Git.contract faults) post (f n).run state) :
    Holds (Git.contract faults) post
      (intOfBytes (Git.ascii (Nat.toDigits 10 n)) >>= f).run state := by
  apply holds_raising_bind
  by_cases hdigits : (Nat.toDigits 10 n).length ≤ maxStrDigits
  · rw [intOfBytes_size hdigits]
    exact Git.holds_done h
  · have hmany : maxStrDigits < (Git.ascii (Nat.toDigits 10 n)).length := by
      simp only [Git.ascii, List.length_map]
      omega
    unfold intOfBytes
    rw [if_pos hmany]
    exact Git.holds_done (Git.holds_done (hrefused (by omega)))

end

section

variable {faults : Bool} {state state' : Git.State} {commit : Git.ObjectId} {path : VersionFile}

/-- What a file of a commit is read as: nothing but its text and, without faults, its text. -/
structure ReadsFile (faults : Bool) (commit : Git.ObjectId) (path : VersionFile)
    (state : Git.State) (result : Except GateError (List Char)) (state' : Git.State) : Prop where
  extends' : state.store.Extends state'.store
  resolved : state'.resolved = state.resolved
  sound : ∀ contents, result = .ok contents → CommittedText state'.store commit path contents
  complete : faults = false → ∀ contents, CommittedText state'.store commit path contents →
    result = .ok contents

theorem ReadsFile.refused {error : GateError} (hextends : state.store.Extends state'.store)
    (hresolved : state'.resolved = state.resolved)
    (hnone : faults = false → ∀ contents, ¬ CommittedText state'.store commit path contents) :
    ReadsFile faults commit path state (.error error) state' where
  extends' := hextends
  resolved := hresolved
  sound := nofun
  complete := fun hfaults contents h => absurd h (hnone hfaults contents)

theorem ReadsFile.faulted {error : GateError} (hextends : state.store.Extends state'.store)
    (hresolved : state'.resolved = state.resolved) (hfaults : faults = true) :
    ReadsFile faults commit path state (.error error) state' :=
  .refused hextends hresolved fun hnone => absurd (hfaults.symm.trans hnone) (by decide)

/-- The first command: whether the commit has the file. -/
theorem lsTree_regular {store : Git.Store} {result : Git.Completed}
    (hanswers : store.answers faults (.lsTree commit.text path.asPosix) (.ok result)) :
    (result.returncode = 0 → isRegularPrefix (splitBytes (result.stdout.takeWhile (· != 9))) =
      true → ∃ bytes, CommittedFile store commit path bytes) ∧
    (faults = false → ∀ bytes, CommittedFile store commit path bytes → result.returncode = 0 ∧
      isRegularPrefix (splitBytes (result.stdout.takeWhile (· != 9))) = true) := by
  obtain ⟨hprints, hfaultless⟩ := hanswers
  constructor
  · intro hzero hlead
    obtain ⟨tree, htree, hstdout⟩ := hprints hzero commit rfl
    cases hentry : tree path.asPosix with
    | none =>
        rw [hstdout, hentry] at hlead
        cases hlead
    | some entry =>
        rw [hstdout, hentry] at hlead
        obtain ⟨hmode, hkind⟩ := (isRegularPrefix_line entry _).mp hlead
        obtain ⟨data, hfile⟩ := Git.Store.exists_hasFile htree hentry hkind
        exact ⟨data, entry, hfile, hmode, hkind⟩
  · rintro hfaults bytes ⟨entry, hfile, hregular⟩
    obtain ⟨tree, htree, hentry⟩ := hfile.entered
    have hzero : result.returncode = 0 :=
      hfaultless hfaults ⟨commit, rfl, by rw [htree]; rfl⟩
    obtain ⟨tree', htree', hstdout⟩ := hprints hzero commit rfl
    obtain rfl := Option.some.inj (htree.symm.trans htree')
    refine ⟨hzero, ?_⟩
    rw [hstdout, hentry]
    exact (isRegularPrefix_line entry _).mpr hregular

/-- The second command, on a file that the commit has. -/
theorem size_committed {store : Git.Store} {result : Git.Completed} {bytes : List UInt8}
    (hfile : CommittedFile store commit path bytes)
    (hanswers : store.answers faults (.size commit.text path.asPosix) (.ok result)) :
    (result.returncode = 0 →
      result.stdout = Git.ascii (Nat.toDigits 10 bytes.length) ++ [10]) ∧
    (faults = false → result.returncode = 0) := by
  obtain ⟨entry, hentry, -, hkind⟩ := hfile
  obtain ⟨hprints, hfaultless⟩ := hanswers
  exact ⟨fun hzero => hprints hzero commit entry bytes rfl hentry hkind,
    fun hfaults => hfaultless hfaults ⟨commit, entry, bytes, rfl, hentry, hkind⟩⟩

/-- The last command. -/
theorem blob_committed {store : Git.Store} {result : Git.Completed} {bytes : List UInt8}
    (hfile : CommittedFile store commit path bytes)
    (hanswers : store.answers faults (.blob commit.text path.asPosix) (.ok result)) :
    (result.returncode = 0 → result.stdout = bytes) ∧
    (faults = false → result.returncode = 0) := by
  obtain ⟨entry, hentry, -, hkind⟩ := hfile
  obtain ⟨hprints, hfaultless⟩ := hanswers
  exact ⟨fun hzero => hprints hzero commit entry bytes rfl hentry hkind,
    fun hfaults => hfaultless hfaults ⟨commit, entry, bytes, rfl, hentry, hkind⟩⟩

theorem maximumBytes_digits {n : Nat} (hn : n ≤ path.maximumBytes) :
    (Nat.toDigits 10 n).length ≤ maxStrDigits := by
  have hmaximum : path.maximumBytes ≤ maxComponent := by cases path <;> decide
  have hlength := toDigits_length.mpr (hn.trans hmaximum)
  unfold maxStrDigits
  omega

/-- `_file_at_commit` returns a text only if the commit has it under that path, in a regular file
that is not executable and not too large; without faults it returns it for every such file.
Commits do not change, so that all of this is about one and the same file, whatever else happens
to the repository between the commands. -/
theorem fileAtCommit_reads :
    Holds (Git.contract faults) (ReadsFile faults commit path state)
      (fileAtCommit commit.text path).run state := by
  apply holds_git
  · exact fun store _ hextends hfaults => .faulted hextends rfl hfaults
  intro store treeResult hextends htree
  obtain ⟨hregular, hcommitted⟩ := lsTree_regular htree
  apply holds_refuseIf
  · intro hrefused
    refine .refused hextends rfl fun hfaults contents h => ?_
    obtain ⟨bytes, hfile, -⟩ := h
    obtain ⟨hzero, hlead⟩ := hcommitted hfaults bytes hfile
    rw [hzero, hlead] at hrefused
    cases hrefused
  intro haccepted
  simp only [Bool.or_eq_false_iff, bne_eq_false_iff_eq, Bool.not_eq_false'] at haccepted
  obtain ⟨bytes, hfile⟩ := hregular haccepted.1 haccepted.2
  -- from here on the file is there, and is the same in every later state of the store
  apply holds_git
  · exact fun store' _ hextends' hfaults => .faulted (hextends.trans hextends') rfl hfaults
  intro store' sizeResult hextends' hsize
  replace hextends := hextends.trans hextends'
  replace hfile := hfile.extends hextends'
  obtain ⟨hstdout, hfaultless⟩ := size_committed hfile hsize
  apply holds_refuseIf
  · intro hrefused
    refine .refused hextends rfl fun hfaults => ?_
    have hzero := hfaultless hfaults
    rw [hzero, hstdout hzero, stripBytes_size, fullmatch_size] at hrefused
    cases hrefused
  intro haccepted
  simp only [Bool.or_eq_false_iff, bne_eq_false_iff_eq] at haccepted
  rw [hstdout haccepted.1, stripBytes_size]
  have hlarge : path.maximumBytes < bytes.length →
      ∀ contents, ¬ CommittedText store' commit path contents := by
    rintro hlarge contents ⟨bytes', hfile', hsmall, -⟩
    rw [hfile.unique hfile' (.refl _)] at hlarge
    omega
  apply holds_intOfBytes
  · intro hmany
    refine .refused hextends rfl fun _ => hlarge ?_
    by_contra hsmall
    have hfew := maximumBytes_digits (Nat.le_of_not_lt hsmall)
    omega
  apply holds_refuseIf
  · exact fun hrefused => .refused hextends rfl fun _ => hlarge (of_decide_eq_true hrefused)
  intro hsmall
  replace hsmall := Nat.le_of_not_lt (of_decide_eq_false hsmall)
  apply holds_git
  · exact fun store'' _ hextends' hfaults => .faulted (hextends.trans hextends') rfl hfaults
  intro store'' result hextends'' hblob
  replace hextends := hextends.trans hextends''
  replace hfile := hfile.extends hextends''
  obtain ⟨hstdout, hfaultless⟩ := blob_committed hfile hblob
  apply holds_refuseIf
  · intro hrefused
    refine .refused hextends rfl fun hfaults => ?_
    rw [hfaultless hfaults] at hrefused
    cases hrefused
  intro haccepted
  rw [hstdout (by simpa using haccepted)]
  have hdecode : ∀ {contents}, CommittedText store'' commit path contents →
      decode bytes = some contents := by
    rintro contents ⟨bytes', hfile', -, hdecode⟩
    rwa [hfile.unique hfile' (.refl _)]
  cases hcontents : decode bytes with
  | none =>
      refine Git.holds_done (.refused hextends rfl fun _ contents h => ?_)
      have hsome := hdecode h
      rw [hcontents] at hsome
      cases hsome
  | some contents =>
      apply Git.holds_done
      refine ⟨hextends, rfl, ?_, fun _ contents' h => ?_⟩
      · rintro _ ⟨⟩
        exact ⟨bytes, hfile, hsmall, hcontents⟩
      · rw [Option.some.inj (hcontents.symm.trans (hdecode h))]

end

section

variable {faults : Bool} {state state' : Git.State} {ref : List Char}

/-- What a ref is followed to: the object that it stood for when it was asked for. -/
structure Follows (faults : Bool) (ref : List Char) (state : Git.State)
    (result : Except GateError (List Char)) (state' : Git.State) : Prop where
  extends' : state.store.Extends state'.store
  sound : ∀ name, result = .ok name → refIsInvalid ref = false ∧ ∃ commit : Git.ObjectId,
    name = commit.text ∧ state'.resolved = state.resolved ++ [some commit]
  complete : faults = false → refIsInvalid ref = false → ∃ object,
    state'.resolved = state.resolved ++ [object] ∧
      ∀ commit, object = some commit → result = .ok commit.text

/-- The name that is printed is an object's, in small letters already. -/
theorem revParse_object {store : Git.Store} {result : Git.Completed}
    (hanswers : store.answers faults (.revParse ref) (.ok result)) :
    (result.returncode = 0 → ∀ decoded, decodeAscii result.stdout = some decoded →
      Pattern.fullmatch hexObjectRe (strip decoded) = true → ∃ commit,
        store.refs ref = some commit ∧ (strip decoded).map Char.toLower = commit.text) ∧
    (faults = false → ∀ commit, store.refs ref = some commit → result.returncode = 0 ∧
      ∃ decoded, decodeAscii result.stdout = some decoded ∧
        Pattern.fullmatch hexObjectRe (strip decoded) = true ∧
        (strip decoded).map Char.toLower = commit.text) := by
  obtain ⟨hprints, hfaultless⟩ := hanswers
  constructor
  · intro hzero decoded hdecoded hmatch
    rcases hprints hzero with ⟨commit, href, hstdout⟩ | ⟨-, rest, hstdout⟩
    · rw [hstdout, decodeAscii_line (objectId_plain commit)] at hdecoded
      obtain rfl := Option.some.inj hdecoded
      rw [strip_objectId, lower_objectId]
      exact ⟨commit, href, rfl⟩
    · -- the mark of a name to leave out is not a digit
      have hdecoded' : ∃ rest', decoded = '^' :: rest' := by
        rw [hstdout] at hdecoded
        unfold decodeAscii at hdecoded
        split at hdecoded
        · exact ⟨_, (Option.some.inj hdecoded).symm⟩
        · cases hdecoded
      obtain ⟨rest', rfl⟩ := hdecoded'
      have hdigit := (fullmatch_run.mp hmatch).1 '^' (mem_strip_head (by decide))
      cases hdigit
  · intro hfaults commit href
    have hzero : result.returncode = 0 := hfaultless hfaults ⟨commit, href⟩
    refine ⟨hzero, ?_⟩
    rcases hprints hzero with ⟨commit', href', hstdout⟩ | ⟨hnone, -⟩
    · obtain rfl := Option.some.inj (href.symm.trans href')
      refine ⟨_, hstdout ▸ decodeAscii_line (objectId_plain commit), ?_⟩
      rw [strip_objectId]
      exact ⟨fullmatch_objectId commit, lower_objectId commit⟩
    · rw [href] at hnone
      cases hnone

/-- A ref that `_resolve_git_ref` accepts is well formed and was followed to the commit that it
stood for when Git was asked. Refs may move before and after that. -/
theorem resolveGitRef_follows :
    Holds (Git.contract faults) (Follows faults ref state) (resolveGitRef ref).run state := by
  apply holds_refuseIf
  · intro hinvalid
    refine ⟨.refl _, nofun, fun _ hvalid => ?_⟩
    rw [hinvalid] at hvalid
    cases hvalid
  intro hvalid
  apply holds_git
  · intro store message hextends hfaults
    exact ⟨hextends, nofun, fun hnone => absurd (hfaults.symm.trans hnone) (by decide)⟩
  intro store result hextends hanswers
  obtain ⟨hsound, hcomplete⟩ := revParse_object hanswers
  have hrefused : ∀ {error}, (faults = false → ∀ commit, store.refs ref ≠ some commit) →
      Follows faults ref state (.error error) (state.asked store (.revParse ref)) := by
    intro error hnone
    exact ⟨hextends, nofun, fun hfaults _ =>
      ⟨_, rfl, fun commit href => absurd href (hnone hfaults commit)⟩⟩
  apply holds_orRefuse
  · intro hundecoded
    refine hrefused fun hfaults commit href => ?_
    obtain ⟨-, decoded, hdecoded, -⟩ := hcomplete hfaults commit href
    rw [hundecoded] at hdecoded
    cases hdecoded
  intro decoded hdecoded
  apply holds_refuseIf
  · intro hbad
    refine hrefused fun hfaults commit href => ?_
    obtain ⟨hzero, decoded', hdecoded', hmatch, -⟩ := hcomplete hfaults commit href
    obtain rfl := Option.some.inj (hdecoded.symm.trans hdecoded')
    rw [hzero, hmatch] at hbad
    cases hbad
  intro haccepted
  simp only [Bool.or_eq_false_iff, bne_eq_false_iff_eq, Bool.not_eq_false'] at haccepted
  obtain ⟨commit, href, hname⟩ := hsound haccepted.1 decoded hdecoded haccepted.2
  apply Git.holds_done
  rw [hname]
  refine ⟨hextends, ?_, fun _ _ => ⟨_, rfl, fun commit' href' => ?_⟩⟩
  · rintro _ ⟨⟩
    refine ⟨hvalid, commit, rfl, ?_⟩
    rw [← href]
    rfl
  · rw [Option.some.inj (href.symm.trans href')]

variable {loads : List Char → Option Table}

/-- What a ref is taken for: a version that its commit releases. -/
structure TakenAs (loads : List Char → Option Table) (faults : Bool) (ref : List Char)
    (state : Git.State) (result : Except GateError Version) (state' : Git.State) : Prop where
  extends' : state.store.Extends state'.store
  sound : ∀ v, result = .ok v → refIsInvalid ref = false ∧ ∃ commit,
    state'.resolved = state.resolved ++ [some commit] ∧ Released loads state'.store commit v
  complete : faults = false → refIsInvalid ref = false → ∃ object,
    state'.resolved = state.resolved ++ [object] ∧ ∀ commit v, object = some commit →
      Released loads state'.store commit v → result = .ok v

/-- A version that `version_at` returns is that of the commit which the ref stood for when it
was followed, read from both of its files. Without faults it is returned wherever the files have
one. -/
theorem versionAt_taken :
    Holds (Git.contract faults) (TakenAs loads faults ref state) (versionAt loads ref).run
      state := by
  apply holds_raising_bind
  refine holds_mono resolveGitRef_follows ?_
  intro result state₁ hfollows
  cases result with
  | error error =>
      apply Git.holds_done
      refine ⟨hfollows.extends', nofun, fun hfaults hvalid => ?_⟩
      obtain ⟨object, hresolved, hcommit⟩ := hfollows.complete hfaults hvalid
      exact ⟨object, hresolved, fun commit _ h _ => absurd (hcommit commit h) nofun⟩
  | ok name =>
      obtain ⟨hvalid, commit, rfl, hresolved⟩ := hfollows.sound name rfl
      -- the rest looks at this commit only
      have htaken : ∀ {result' : Except GateError Version} {state' : Git.State},
          state₁.store.Extends state'.store → state'.resolved = state₁.resolved →
          (∀ v, result' = .ok v → Released loads state'.store commit v) →
          (faults = false → ∀ v, Released loads state'.store commit v → result' = .ok v) →
          TakenAs loads faults ref state result' state' := by
        intro result' state' hextends hsame hsound hcomplete
        rw [hresolved] at hsame
        refine ⟨hfollows.extends'.trans hextends,
          fun v hv => ⟨hvalid, commit, hsame, hsound v hv⟩,
          fun hfaults _ => ⟨some commit, hsame, ?_⟩⟩
        rintro _ v ⟨⟩ hreleased
        exact hcomplete hfaults v hreleased
      apply holds_raising_bind
      refine holds_mono fileAtCommit_reads ?_
      intro result state₂ hmanifest
      cases result with
      | error error =>
          apply Git.holds_done
          refine htaken hmanifest.extends' hmanifest.resolved nofun fun hfaults v hreleased => ?_
          obtain ⟨manifest, -, h, -⟩ := hreleased
          cases hmanifest.complete hfaults manifest h
      | ok manifest =>
          apply holds_raising_bind
          refine holds_mono fileAtCommit_reads ?_
          intro result state₃ hlockfile
          have hextends := hmanifest.extends'.trans hlockfile.extends'
          have hsame := hlockfile.resolved.trans hmanifest.resolved
          have hmanifest' := (hmanifest.sound manifest rfl).extends hlockfile.extends'
          cases result with
          | error error =>
              apply Git.holds_done
              refine htaken hextends hsame nofun fun hfaults v hreleased => ?_
              obtain ⟨-, lockfile, -, h, -⟩ := hreleased
              cases hlockfile.complete hfaults lockfile h
          | ok lockfile =>
              have hlockfile' := hlockfile.sound lockfile rfl
              have hvalidated : ∀ v, Released loads state₃.store commit v ↔
                  validatedVersion loads manifest lockfile "requested Git commit" = .ok v := by
                intro v
                constructor
                · rintro ⟨manifest', lockfile', h, h', hversion⟩
                  rwa [hmanifest'.unique h (.refl _), hlockfile'.unique h' (.refl _)]
                · exact fun h => ⟨manifest, lockfile, hmanifest', hlockfile', h⟩
              cases hversion : validatedVersion loads manifest lockfile "requested Git commit" with
              | error message =>
                  simp only [hversion]
                  refine Git.holds_done (htaken hextends hsame nofun fun _ v hreleased => ?_)
                  rw [hvalidated, hversion] at hreleased
                  cases hreleased
              | ok version =>
                  simp only [hversion]
                  refine Git.holds_done (htaken hextends hsame ?_ fun _ v hreleased => ?_)
                  · rintro _ ⟨⟩
                    exact (hvalidated version).mpr hversion
                  · rw [hvalidated, hversion] at hreleased
                    rw [Except.ok.inj hreleased]

/-- A base and a head between which the version goes up. -/
structure Passes (loads : List Char → Option Table) (store : Git.Store)
    (baseRef headRef : List Char) (base head : Git.ObjectId) (v w : Version) : Prop where
  base_valid : refIsInvalid baseRef = false
  head_valid : refIsInvalid headRef = false
  base_released : Released loads store base v
  head_released : Released loads store head w
  newer : v < w

/-- What the gate comes to. -/
structure Decided (loads : List Char → Option Table) (faults : Bool) (baseRef headRef : List Char)
    (state : Git.State) (result : Except GateError (Version × Version)) (state' : Git.State) :
    Prop where
  sound : ∀ v w, result = .ok (v, w) → ∃ base head,
    state'.resolved = state.resolved ++ [some base, some head] ∧
      Passes loads state'.store baseRef headRef base head v w
  complete : faults = false → ∀ base head v w asked,
    state'.resolved = state.resolved ++ asked → asked <+: [some base, some head] →
    Passes loads state'.store baseRef headRef base head v w → result = .ok (v, w)

/-- The gate returns the two versions if the first is below the second, and it raises otherwise.
Both refs are followed once each, one after the other, and what they stand for in the meantime
does not matter. -/
theorem checkPr_decided {baseRef headRef : List Char} :
    Holds (Git.contract faults) (Decided loads faults baseRef headRef state)
      (checkPr loads baseRef headRef).run state := by
  apply holds_raising_bind
  refine holds_mono versionAt_taken ?_
  intro result state₁ hbase
  cases result with
  | error error =>
      apply Git.holds_done
      refine ⟨nofun, fun hfaults base head v w asked hasked hlead hpasses => ?_⟩
      obtain ⟨object, hresolved, hcommit⟩ := hbase.complete hfaults hpasses.base_valid
      rw [hresolved, List.append_cancel_left_eq] at hasked
      subst hasked
      obtain ⟨rfl, -⟩ := List.cons_prefix_cons.mp hlead
      cases hcommit base v rfl hpasses.base_released
  | ok base =>
      obtain ⟨hbaseValid, baseCommit, hbaseResolved, hbaseReleased⟩ := hbase.sound base rfl
      apply holds_raising_bind
      refine holds_mono versionAt_taken ?_
      intro result state₂ hhead
      replace hbaseReleased := hbaseReleased.extends hhead.extends'
      cases result with
      | error error =>
          apply Git.holds_done
          refine ⟨nofun, fun hfaults base' head v w asked hasked hlead hpasses => ?_⟩
          obtain ⟨object, hresolved, hcommit⟩ := hhead.complete hfaults hpasses.head_valid
          rw [hresolved, hbaseResolved, List.append_assoc, List.append_cancel_left_eq] at hasked
          subst hasked
          obtain ⟨-, hlead⟩ := List.cons_prefix_cons.mp hlead
          obtain ⟨rfl, -⟩ := List.cons_prefix_cons.mp hlead
          cases hcommit head w rfl hpasses.head_released
      | ok head =>
          obtain ⟨hheadValid, headCommit, hheadResolved, hheadReleased⟩ := hhead.sound head rfl
          rw [hbaseResolved, List.append_assoc] at hheadResolved
          have hnames : ∀ {base' head' v w asked}, state₂.resolved = state.resolved ++ asked →
              asked <+: [some base', some head'] →
              Passes loads state₂.store baseRef headRef base' head' v w →
              v = base ∧ w = head ∧ base < head := by
            intro base' head' v w asked hasked hlead hpasses
            rw [hheadResolved, List.append_cancel_left_eq] at hasked
            subst hasked
            obtain ⟨hbase', hlead⟩ := List.cons_prefix_cons.mp hlead
            obtain ⟨hhead', -⟩ := List.cons_prefix_cons.mp hlead
            cases hbase'
            cases hhead'
            obtain rfl := hpasses.base_released.unique hbaseReleased (.refl _)
            obtain rfl := hpasses.head_released.unique hheadReleased (.refl _)
            exact ⟨rfl, rfl, hpasses.newer⟩
          apply holds_refuseIf
          · intro hrefused
            refine ⟨nofun, fun _ base' head' v w asked hasked hlead hpasses => ?_⟩
            obtain ⟨-, -, hnewer⟩ := hnames hasked hlead hpasses
            exact absurd (of_decide_eq_true hrefused) (not_le.mpr hnewer)
          intro hnewer
          apply Git.holds_done
          refine ⟨?_, fun _ base' head' v w asked hasked hlead hpasses => ?_⟩
          · rintro _ _ ⟨⟩
            exact ⟨baseCommit, headCommit, hheadResolved, hbaseValid, hheadValid, hbaseReleased,
              hheadReleased, not_le.mp (of_decide_eq_false hnewer)⟩
          · obtain ⟨rfl, rfl, -⟩ := hnames hasked hlead hpasses
            rfl

end

/-- The name of an object in one digit. -/
def objectNamed (digit : Char) (h : Git.isHex digit = true) : Git.ObjectId where
  text := List.replicate 40 digit
  least := by simp
  most := by simp
  hex := fun c hc => by rwa [(List.mem_replicate.mp hc).2]

def wordOf (text : String) (hne : (Git.ascii text.toList).isEmpty = false)
    (hplain : (Git.ascii text.toList).all (fun byte => 32 < byte.toNat) = true) : Git.Word where
  bytes := Git.ascii text.toList
  nonempty := List.isEmpty_eq_false_iff.mp hne
  plain := fun byte hbyte => of_decide_eq_true (List.all_eq_true.mp hplain byte hbyte)

/-- A regular file under the name of an object. -/
def regularEntry (object : Git.ObjectId) : Git.Entry where
  mode := wordOf "100644" rfl rfl
  kind := wordOf "blob" rfl rfl
  object := object

def filesOf (manifest lockfile : Git.ObjectId) (path : List Char) : Option Git.Entry :=
  if path = "Cargo.toml".toList then some (regularEntry manifest)
  else if path = "Cargo.lock".toList then some (regularEntry lockfile)
  else none

def baseCommit : Git.ObjectId := objectNamed 'a' (by decide)
def headCommit : Git.ObjectId := objectNamed 'b' (by decide)

/-- A base and the bump of its patch version. -/
def proposalBlobs (object : Git.ObjectId) : Option (List UInt8) :=
  match object.text.head? with
  | some 'c' => some (checkoutDisk.bytes .manifest)
  | some 'd' => some (checkoutDisk.bytes .lockfile)
  | some 'e' => some (patchRun.2.2.bytes .manifest)
  | some 'f' => some (patchRun.2.2.bytes .lockfile)
  | _ => none

def proposalTrees (commit : Git.ObjectId) : Option (List Char → Option Git.Entry) :=
  match commit.text.head? with
  | some 'a' => some (filesOf (objectNamed 'c' (by decide)) (objectNamed 'd' (by decide)))
  | some 'b' => some (filesOf (objectNamed 'e' (by decide)) (objectNamed 'f' (by decide)))
  | _ => none

theorem filesOf_stored {manifest lockfile : Git.ObjectId} {path : List Char} {entry : Git.Entry}
    (hmanifest : (proposalBlobs manifest).isSome = true)
    (hlockfile : (proposalBlobs lockfile).isSome = true)
    (h : filesOf manifest lockfile path = some entry) :
    (proposalBlobs entry.object).isSome = true := by
  unfold filesOf at h
  split_ifs at h
  · cases h
    exact hmanifest
  · cases h
    exact hlockfile

def proposal : Git.Store where
  refs ref := if ref = "main".toList then some baseCommit
    else if ref = "bump".toList then some headCommit else none
  trees := proposalTrees
  blobs := proposalBlobs
  complete := by
    intro commit tree path entry htree hentry _
    unfold proposalTrees at htree
    split at htree
    · cases htree
      exact filesOf_stored rfl rfl hentry
    · cases htree
      exact filesOf_stored rfl rfl hentry
    · cases htree

def proposalRun : List (Event Git.Answer) × Except GateError (Version × Version) × Git.State :=
  Git.runStill ⟨proposal, []⟩ (checkPr scannedLoads "main".toList "bump".toList).run

theorem proposalRun_run (faults : Bool) :
    Runs (checkPr scannedLoads "main".toList "bump".toList).run proposalRun.1 proposalRun.2.1 ∧
      Path (Git.contract faults) ⟨proposal, []⟩ proposalRun.1 proposalRun.2.2 := by
  unfold proposalRun
  exact Git.runStill_run ..

theorem proposalRun_resolved :
    proposalRun.2.2.resolved = [some baseCommit, some headCommit] := by decide +kernel

end Cirrusync.Release
