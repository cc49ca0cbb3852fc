import Cirrusync.Release.VersionPolicy

/-!
A version bump rewrites exactly the version: both texts keep every character
but those between the quotes of one version assignment, and what the checks read
from the new texts is the new version.
-/

namespace Cirrusync.Release

open Numerals Python

/-! ## The messages do not matter -/

/-- Two computations that give the same values, whatever their errors say. -/
structure SameOk {α : Type} (x y : Except String α) : Prop where
  ok_iff : ∀ value, x = .ok value ↔ y = .ok value

theorem SameOk.refl {α : Type} (x : Except String α) : SameOk x x := ⟨fun _ => Iff.rfl⟩

theorem SameOk.error {α : Type} (message message' : String) :
    SameOk (.error message : Except String α) (.error message') := by
  constructor
  intro value
  simp

theorem SameOk.bind {α β : Type} {x y : Except String α} {f g : α → Except String β}
    (h : SameOk x y) (hnext : ∀ value, SameOk (f value) (g value)) :
    SameOk (x >>= f) (y >>= g) := by
  constructor
  intro value
  rw [except_bind_ok, except_bind_ok]
  exact exists_congr fun a => and_congr (h.ok_iff a) ((hnext a).ok_iff value)

theorem SameOk.ensure (condition : Bool) (message message' : String) :
    SameOk (ensure condition message) (ensure condition message') := by
  constructor
  intro value
  rw [ensure_ok, ensure_ok]

theorem SameOk.required {α : Type} (value : Option α) (message message' : String) :
    SameOk (required value message) (required value message') := by
  cases value with
  | none => exact SameOk.error _ _
  | some found => exact SameOk.refl _

section

variable (loads : List Char → Option Table)

theorem parseToml_source (contents : List Char) (source source' : String) :
    SameOk (parseToml loads contents source) (parseToml loads contents source') := by
  unfold parseToml
  cases loads contents with
  | none => exact SameOk.error _ _
  | some parsed => exact SameOk.refl _

theorem parsedLockPackages_source (lockData : Table) (source source' : String) :
    SameOk (parsedLockPackages lockData source) (parsedLockPackages lockData source') := by
  unfold parsedLockPackages
  split
  · split_ifs
    · exact SameOk.refl _
    · exact SameOk.error _ _
  · exact SameOk.error _ _

theorem semanticLockPackage_source (lockData : Table) (source source' : String) :
    SameOk (semanticLockPackage lockData source) (semanticLockPackage lockData source') := by
  refine SameOk.bind (parsedLockPackages_source lockData source source') ?_
  intro lockPackages
  split
  · exact SameOk.refl _
  · exact SameOk.error _ _

theorem manifestPackageAssignment_source (contents key : List Char) (source source' : String) :
    SameOk (manifestPackageAssignment contents key source)
      (manifestPackageAssignment contents key source') := by
  constructor
  intro assignment
  rw [manifestPackageAssignment_ok, manifestPackageAssignment_ok]

theorem assignmentTargetsManifestField_source (contents : List Char) (assignment : Assignment)
    (key source source' : String) :
    SameOk (assignmentTargetsManifestField loads contents assignment key source)
      (assignmentTargetsManifestField loads contents assignment key source') :=
  SameOk.bind (parseToml_source loads _ source source') fun _ => SameOk.refl _

theorem assignmentTargetsLockField_source (contents : List Char) (assignment : Assignment)
    (key : String) (packageIndex packageCount : Nat) (source source' : String) :
    SameOk (assignmentTargetsLockField loads contents assignment key packageIndex packageCount
        source)
      (assignmentTargetsLockField loads contents assignment key packageIndex packageCount
        source') := by
  refine SameOk.bind (parseToml_source loads _ source source') fun probedData => ?_
  exact SameOk.bind (parsedLockPackages_source probedData source source') fun _ => SameOk.refl _

theorem lockVersionAssignmentAt_source (contents : List Char) (packageIndex packageCount : Nat)
    (source source' : String) :
    SameOk (lockVersionAssignmentAt loads contents source packageIndex packageCount)
      (lockVersionAssignmentAt loads contents source' packageIndex packageCount) := by
  refine SameOk.bind (SameOk.ensure _ _ _) fun _ => ?_
  cases (scanLock contents)[packageIndex]? with
  | none => exact SameOk.error _ _
  | some block =>
    simp only
    split
    · refine SameOk.bind (SameOk.ensure _ _ _) fun _ => ?_
      split
      · refine SameOk.bind (assignmentTargetsLockField_source loads ..) fun _ => ?_
        refine SameOk.bind (SameOk.ensure _ _ _) fun _ => ?_
        refine SameOk.bind (assignmentTargetsLockField_source loads ..) fun _ => ?_
        exact SameOk.bind (SameOk.ensure _ _ _) fun _ => SameOk.refl _
      · exact SameOk.error _ _
    · exact SameOk.error _ _

theorem lockVersionAssignment_source (contents : List Char) (package : Option (Nat × Nat))
    (source source' : String) :
    SameOk (lockVersionAssignment loads contents source package)
      (lockVersionAssignment loads contents source' package) := by
  cases package with
  | some package => exact lockVersionAssignmentAt_source loads ..
  | none =>
    refine SameOk.bind (parseToml_source loads ..) fun lockData => ?_
    refine SameOk.bind (semanticLockPackage_source ..) fun found => ?_
    exact lockVersionAssignmentAt_source loads ..

theorem parse_source (value : List Char) (source source' : String) :
    SameOk (Version.parse value source) (Version.parse value source') := by
  constructor
  intro v
  rw [Version.parse_eq_ok_iff, Version.parse_eq_ok_iff]

/-- Whether the texts are accepted, and with which version, does not depend on
the name they are given in the messages. -/
theorem validatedVersion_source (manifest lockfile : List Char) (source source' : String) :
    SameOk (validatedVersion loads manifest lockfile source)
      (validatedVersion loads manifest lockfile source') := by
  refine SameOk.bind (parseToml_source loads ..) fun manifestData => ?_
  refine SameOk.bind (parseToml_source loads ..) fun lockData => ?_
  refine SameOk.bind (SameOk.required ..) fun packageData => ?_
  refine SameOk.bind (SameOk.required ..) fun semanticName => ?_
  refine SameOk.bind (SameOk.required ..) fun semanticManifestVersion => ?_
  refine SameOk.bind (semanticLockPackage_source ..) fun found => ?_
  refine SameOk.bind (SameOk.required ..) fun semanticLockVersion => ?_
  refine SameOk.bind (manifestPackageAssignment_source ..) fun manifestName => ?_
  refine SameOk.bind (SameOk.ensure ..) fun _ => ?_
  refine SameOk.bind (assignmentTargetsManifestField_source loads ..) fun _ => ?_
  refine SameOk.bind (SameOk.ensure ..) fun _ => ?_
  refine SameOk.bind (SameOk.ensure ..) fun _ => ?_
  refine SameOk.bind (manifestPackageAssignment_source ..) fun manifestAssignment => ?_
  refine SameOk.bind (lockVersionAssignment_source loads ..) fun lockAssignment => ?_
  refine SameOk.bind (SameOk.ensure ..) fun _ => ?_
  refine SameOk.bind (assignmentTargetsManifestField_source loads ..) fun _ => ?_
  refine SameOk.bind (SameOk.ensure ..) fun _ => ?_
  refine SameOk.bind (SameOk.ensure ..) fun _ => ?_
  refine SameOk.bind (parse_source ..) fun manifestVersion => ?_
  refine SameOk.bind (parse_source ..) fun lockVersion => ?_
  exact SameOk.bind (SameOk.ensure ..) fun _ => SameOk.refl _

/-! ## The assignment in the lockfile -/

/-- The blocks of a scan, the one that is not finished included. -/
def LockScan.blocks (scan : LockScan) : List PackageBlock :=
  scan.packageBlocks ++ scan.current.toList

theorem LockScan.finishBlock_blocks (scan : LockScan) :
    scan.finishBlock.packageBlocks = scan.blocks ∧ scan.finishBlock.blocks = scan.blocks := by
  obtain ⟨packageBlocks, current⟩ := scan
  cases current <;> simp [LockScan.finishBlock, LockScan.blocks]

/-- A line of the lock file adds no version to a block but one that it assigns itself. -/
theorem LockScan.step_versions {scan : LockScan} {line : List Char × Nat} {block : PackageBlock}
    (h : block ∈ (scan.step line).blocks) {assignment : Assignment}
    (hversion : assignment ∈ block.versions) :
    (∃ block' ∈ scan.blocks, assignment ∈ block'.versions) ∨
      matchStringAssignment line.1 "version".toList line.2 = some assignment := by
  have hblocks := scan.finishBlock_blocks
  unfold LockScan.step at h
  simp only at h
  split at h
  · split_ifs at h
    · simp only [LockScan.blocks, hblocks.1, Option.toList_some, List.mem_append,
        List.mem_singleton] at h
      rcases h with h | rfl
      · exact .inl ⟨block, by simpa [LockScan.blocks] using h, hversion⟩
      · cases hversion
    · rw [hblocks.2] at h
      exact .inl ⟨block, h, hversion⟩
  · split_ifs at h
    · rw [hblocks.2] at h
      exact .inl ⟨block, h, hversion⟩
    · cases hcurrent : scan.current with
      | none =>
        simp only [hcurrent] at h
        exact .inl ⟨block, h, hversion⟩
      | some current =>
        simp only [hcurrent, LockScan.blocks, Option.toList_some, List.mem_append,
          List.mem_singleton] at h
        rcases h with h | rfl
        · exact .inl ⟨block, by simp [LockScan.blocks, h], hversion⟩
        · rcases List.mem_append.mp hversion with hversion | hversion
          · exact .inl ⟨current, by simp [LockScan.blocks, hcurrent], hversion⟩
          · exact .inr (Option.mem_toList.mp hversion)

theorem scanLock_versions {contents : List Char} :
    ∀ block ∈ scanLock contents, ∀ assignment ∈ block.versions,
      assignment.On contents "version".toList := by
  have hstart : ∀ block ∈ (LockScan.mk [] none).blocks, ∀ assignment ∈ block.versions,
      assignment.On contents "version".toList := by simp [LockScan.blocks]
  unfold scanLock
  rw [(LockScan.finishBlock_blocks _).1]
  refine List.foldlRecOn (motive := fun scan : LockScan =>
    ∀ block ∈ scan.blocks, ∀ assignment ∈ block.versions,
      assignment.On contents "version".toList) _ _ hstart ?_
  intro scan hscan line hline block hblock assignment hversion
  rcases LockScan.step_versions hblock hversion with ⟨block', hblock', h⟩ | h
  · exact hscan block' hblock' assignment h
  · have hindex := matchStringAssignment_index h
    rw [List.mem_zipIdx_iff_getElem?] at hline
    exact ⟨line.1, by rw [hindex, hline], by rw [hindex, h]⟩

theorem lockVersionAssignmentAt_on {contents : List Char} {source : String}
    {packageIndex packageCount : Nat} {assignment : Assignment}
    (h : lockVersionAssignmentAt loads contents source packageIndex packageCount =
      .ok assignment) :
    assignment.On contents "version".toList := by
  unfold lockVersionAssignmentAt at h
  simp only [ensure_bind_ok] at h
  obtain ⟨-, h⟩ := h
  cases hblock : (scanLock contents)[packageIndex]? with
  | none =>
    rw [hblock] at h
    cases h
  | some block =>
    simp only [hblock] at h
    split at h
    · rw [ensure_bind_ok] at h
      obtain ⟨-, h⟩ := h
      split at h
      · rename_i version hversions
        simp only [except_bind_ok] at h
        obtain ⟨_, -, _, -, _, -, _, -, h⟩ := h
        cases h
        exact scanLock_versions block (List.mem_of_getElem? hblock) _ (by simp [hversions])
      · cases h
    · cases h

/-! ## What is accepted -/

theorem required_ok {α : Type} {value : Option α} {message : String} {found : α} :
    required value message = .ok found ↔ value = some found := by
  cases value <;> simp [required]

/-- An accepted version is the value of the version assignments of both texts. -/
theorem validatedVersion_ok {manifest lockfile : List Char} {source : String} {v : Version}
    (h : validatedVersion loads manifest lockfile source = .ok v) :
    v.Bounded ∧
    (∃ assignment, (∀ source', manifestVersionAssignment manifest source' = .ok assignment) ∧
      assignment.value = v.str) ∧
    ∃ assignment, (∀ source', lockVersionAssignment loads lockfile source' none =
      .ok assignment) ∧ assignment.value = v.str := by
  unfold validatedVersion at h
  simp only [except_bind_ok, ensure_ok, required_ok, beq_iff_eq] at h
  obtain ⟨manifestData, hmanifestData, lockData, hlockData, packageData, hpackageData,
    semanticName, hsemanticName, semanticVersion, hsemanticVersion, found, hfound,
    semanticLock, hsemanticLock, nameAssignment, hnameAssignment, _, hname, _, -, _, -, _, -,
    manifestAssignment, hmanifestAssignment, lockAssignment, hlockAssignment, _, hmanifestValue,
    _, -, _, -, _, hlockValue, manifestVersion, hmanifestVersion, lockVersion, hlockVersion, _,
    hsame, hv⟩ := h
  cases hv
  obtain ⟨hmanifestText, hbounded⟩ := Version.parse_eq_ok_iff.mp hmanifestVersion
  obtain ⟨hlockText, -⟩ := Version.parse_eq_ok_iff.mp hlockVersion
  refine ⟨hbounded, ⟨manifestAssignment, ?_, hmanifestValue.trans hmanifestText⟩,
    lockAssignment, ?_, hlockValue.trans (hlockText.trans (by rw [hsame]))⟩
  · intro source'
    exact ((manifestPackageAssignment_source _ _ _ source').ok_iff _).mp hmanifestAssignment
  · intro source'
    have hnone : lockVersionAssignment loads lockfile (s!"{source} Cargo.lock") none =
        .ok lockAssignment := by
      simp only [lockVersionAssignment, except_bind_ok]
      exact ⟨lockData, hlockData, found, hfound, hlockAssignment⟩
    exact ((lockVersionAssignment_source loads _ _ _ source').ok_iff _).mp hnone

theorem lockVersionAssignment_on {contents : List Char} {source : String}
    {assignment : Assignment}
    (h : lockVersionAssignment loads contents source none = .ok assignment) :
    assignment.On contents "version".toList := by
  simp only [lockVersionAssignment, except_bind_ok] at h
  obtain ⟨lockData, -, found, -, h⟩ := h
  exact lockVersionAssignmentAt_on loads h

/-! ## The edit -/

/-- A text is another but for the value of one version assignment: the line of
the assignment is the only line that differs, and it differs between the quotes. -/
def RewritesVersion (old new was becomes : List Char) : Prop :=
  ∃ (assignment : Assignment) (before after : List Char),
    (splitlines old)[assignment.lineIndex]? = some (assignment.prefixText ++ was ++
      assignment.suffixText ++ assignment.newline) ∧
    matchStringAssignment (assignment.prefixText ++ was ++ assignment.suffixText ++
      assignment.newline) "version".toList assignment.lineIndex = some assignment ∧
    splitlines new = (splitlines old).set assignment.lineIndex (assignment.prefixText ++
      becomes ++ assignment.suffixText ++ assignment.newline) ∧
    old = before ++ (assignment.prefixText ++ was ++ assignment.suffixText ++
      assignment.newline) ++ after ∧
    new = before ++ (assignment.prefixText ++ becomes ++ assignment.suffixText ++
      assignment.newline) ++ after

theorem version_keyText : KeyText "ersion".toList 'v' where
  notBlank := by decide
  notSpace := by decide
  notBracket := by decide
  plain := List.all_iff_forall_prop.mp (by decide)

theorem isDigit_or_dot {v : Version} : ∀ c ∈ v.str, c.isDigit = true ∨ c = '.' := by
  intro c hc
  simp only [Version.str, List.mem_append, List.mem_cons] at hc
  rcases hc with hc | rfl | hc | rfl | hc
  · exact .inl (toDigits_isDigit c hc)
  · exact .inr rfl
  · exact .inl (toDigits_isDigit c hc)
  · exact .inr rfl
  · exact .inl (toDigits_isDigit c hc)

theorem str_plain (v : Version) : ∀ c ∈ v.str, isLineBoundary c = false := by
  intro c hc
  rw [Bool.eq_false_iff]
  intro hboundary
  simp only [isLineBoundary, List.mem_cons, List.not_mem_nil, or_false,
    decide_eq_true_eq] at hboundary
  have hplain := isDigit_or_dot c hc
  rcases hboundary with rfl | rfl | rfl | rfl | rfl | rfl | rfl | rfl | rfl | rfl <;>
    revert hplain <;> decide

theorem str_stringValue (v : Version) : stringValue.Matches v.str := by
  refine ⟨?_, Nat.zero_le _, by simp⟩
  intro c hc
  have hplain := isDigit_or_dot c hc
  simp only [Bool.not_eq_true', Bool.or_eq_false_iff, beq_eq_false_iff_ne]
  refine ⟨⟨⟨?_, ?_⟩, ?_⟩, ?_⟩ <;> rintro rfl <;> revert hplain <;> decide

theorem replaceAssignment_rewrites {contents : List Char} {assignment : Assignment}
    {was becomes : Version} (hon : assignment.On contents "version".toList)
    (hvalue : assignment.value = was.str) :
    RewritesVersion contents (replaceAssignment contents assignment becomes.str) was.str
      becomes.str := by
  have hold : ∀ c ∈ assignment.value, isLineBoundary c = false := by
    rw [hvalue]
    exact str_plain was
  have hsplit := splitlines_replaceAssignment version_keyText hon hold (str_plain becomes)
  obtain ⟨line, hline, hmatch⟩ := hon
  have htext := Assignment.line_eq version_keyText.notBlank hmatch
  rw [hvalue, ← List.append_assoc] at htext
  rw [← List.append_assoc] at hsplit
  subst htext
  refine ⟨assignment, ((splitlines contents).take assignment.lineIndex).flatten,
    ((splitlines contents).drop (assignment.lineIndex + 1)).flatten, hline, hmatch, hsplit,
    ?_, ?_⟩
  · obtain ⟨hlt, hget⟩ := List.getElem?_eq_some_iff.mp hline
    have hparts := (splitlines_flatten contents).symm
    rw [← List.take_append_drop assignment.lineIndex (splitlines contents),
      List.flatten_append, List.drop_eq_getElem_cons hlt, hget, List.flatten_cons] at hparts
    rw [List.append_assoc, ← hparts]
  · obtain ⟨hlt, -⟩ := List.getElem?_eq_some_iff.mp hline
    unfold replaceAssignment
    rw [List.set_eq_take_append_cons_drop, if_pos hlt, List.flatten_append, List.flatten_cons,
      ← List.append_assoc]

/-- The texts of a bump that succeeds. -/
theorem bumpedTexts_rewrite {manifest lockfile : List Char} {component : String}
    {texts : BumpedTexts} (h : bumpedTexts loads manifest lockfile component = .ok texts) :
    ∃ current, (∀ source, validatedVersion loads manifest lockfile source = .ok current) ∧
      current < texts.version ∧ texts.version.Bounded ∧
      (∀ source, validatedVersion loads texts.manifest texts.lockfile source =
        .ok texts.version) ∧
      RewritesVersion manifest texts.manifest current.str texts.version.str ∧
      RewritesVersion lockfile texts.lockfile current.str texts.version.str := by
  unfold bumpedTexts at h
  simp only [except_bind_ok] at h
  obtain ⟨current, hcurrent, newVersion, hbump, manifestAssignment, hmanifest, lockAssignment,
    hlock, accepted, haccepted, h⟩ := h
  cases h
  obtain ⟨hbounded, ⟨assignment, hassignment, hvalue⟩, lockAssignment', hlock', hlockValue⟩ :=
    validatedVersion_ok loads hcurrent
  obtain rfl : assignment = manifestAssignment :=
    Except.ok.inj ((hassignment _).symm.trans hmanifest)
  obtain rfl : lockAssignment' = lockAssignment := Except.ok.inj ((hlock' _).symm.trans hlock)
  have hon := manifestPackageAssignment_on hmanifest
  have hold : ∀ c ∈ assignment.value, isLineBoundary c = false := by
    rw [hvalue]
    exact str_plain current
  -- the checks of the new texts read the new version back from the edited line
  have hsame : accepted = newVersion := by
    obtain ⟨hacceptedBounded, ⟨found, hfound, hfoundValue⟩, -⟩ :=
      validatedVersion_ok loads haccepted
    have hedited : manifestVersionAssignment (replaceAssignment manifest assignment
        newVersion.str) "" = .ok { assignment with value := newVersion.str } :=
      manifestPackageAssignment_replaceAssignment version_keyText hon hold (str_plain newVersion)
        (str_stringValue newVersion) hmanifest
    rw [hfound] at hedited
    rw [Except.ok.inj hedited] at hfoundValue
    have hnewBounded := Version.bump_bounded hbounded hbump
    exact congrArg Subtype.val
      (@Version.str_injective ⟨accepted, hacceptedBounded⟩ ⟨newVersion, hnewBounded⟩
        hfoundValue.symm)
  subst hsame
  refine ⟨current, fun source => ?_, Version.lt_bump hbump, Version.bump_bounded hbounded hbump,
    fun source => ?_, replaceAssignment_rewrites hon hvalue,
    replaceAssignment_rewrites (lockVersionAssignment_on loads hlock) hlockValue⟩
  · exact ((validatedVersion_source loads _ _ _ source).ok_iff _).mp hcurrent
  · exact ((validatedVersion_source loads _ _ _ source).ok_iff _).mp haccepted

end

end Cirrusync.Release
