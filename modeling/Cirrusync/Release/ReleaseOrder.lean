import Cirrusync.Release.ShellText
import Cirrusync.Release.Version
import Mathlib.Order.RelIso.Basic

/-!
The order of releases as the installer has it, `release_version_is_valid` and
`compare_release_versions`, and its agreement with the order of the parsed
versions.
-/

namespace Cirrusync.Release

open Numerals Shell

/-- `(0|[1-9][0-9]{0,8})` in the C locale. -/
def releaseComponent : Pattern Char :=
  .alt (.lit ['0'])
    (.seq (.run (fun c => '1' ≤ c && c ≤ '9') 1 (some 1))
      (.run (fun c => '0' ≤ c && c ≤ '9') 0 (some 8)))

def releaseVersionIsValid (version : List Char) : Bool :=
  Pattern.fullmatch
      [releaseComponent, .lit ['.'], releaseComponent, .lit ['.'], releaseComponent] version &&
    (readNames '.' 3 (hereLine version)).all (fun component =>
      arithmetic BitVec.sle (constant component) (some 999999999#64))

/-- The loop over the components. -/
def compareComponents : List (List Char × List Char) → List Char
  | [] => "equal".toList
  | (candidateComponent, installedComponent) :: rest =>
      if arithmetic (fun x y => BitVec.slt y x) (constant candidateComponent)
          (constant installedComponent) then "newer".toList
      else if arithmetic BitVec.slt (constant candidateComponent)
          (constant installedComponent) then "older".toList
      else compareComponents rest

def compareReleaseVersions (candidate installed : List Char) : Outcome :=
  if releaseVersionIsValid candidate && releaseVersionIsValid installed then
    ⟨0, compareComponents ((readNames '.' 3 (hereLine candidate)).zip
      (readNames '.' 3 (hereLine installed)))⟩
  else ⟨2, []⟩

/-! ## Components in 64-bit arithmetic -/

theorem constant_toDigits {n : Nat} (hn : n ≤ maxComponent) :
    ∃ x, constant (Nat.toDigits 10 n) = some x ∧ x.toInt = n := by
  refine constant_value Nat.toDigits_ne_nil toDigits_isDigit
    Nat.ofDigitChars_ten_toDigits.symm ?_
  unfold maxComponent at hn
  omega

theorem arithmetic_slt {m n : Nat} (hm : m ≤ maxComponent) (hn : n ≤ maxComponent) :
    arithmetic BitVec.slt (constant (Nat.toDigits 10 m)) (constant (Nat.toDigits 10 n)) =
      decide (m < n) := by
  obtain ⟨x, hx, hxm⟩ := constant_toDigits hm
  obtain ⟨y, hy, hyn⟩ := constant_toDigits hn
  simp [arithmetic, hx, hy, BitVec.slt, hxm, hyn]

theorem arithmetic_sgt {m n : Nat} (hm : m ≤ maxComponent) (hn : n ≤ maxComponent) :
    arithmetic (fun x y => BitVec.slt y x) (constant (Nat.toDigits 10 m))
      (constant (Nat.toDigits 10 n)) = decide (n < m) := by
  obtain ⟨x, hx, hxm⟩ := constant_toDigits hm
  obtain ⟨y, hy, hyn⟩ := constant_toDigits hn
  simp [arithmetic, hx, hy, BitVec.slt, hxm, hyn]

theorem arithmetic_limit {n : Nat} (hn : n ≤ maxComponent) :
    arithmetic BitVec.sle (constant (Nat.toDigits 10 n)) (some 999999999#64) = true := by
  obtain ⟨x, hx, hxn⟩ := constant_toDigits hn
  have hlimit : (999999999#64 : BitVec 64).toInt = 999999999 := by decide
  unfold maxComponent at hn
  simp only [arithmetic, hx, BitVec.sle, hxn, hlimit, decide_eq_true_eq]
  omega

/-! ## The printed version under `read` -/

theorem readNames_str (v : Version) :
    readNames '.' 3 (hereLine v.str) =
      [Nat.toDigits 10 v.major, Nat.toDigits 10 v.minor, Nat.toDigits 10 v.patch] := by
  have hnewline : '\n' ∉ v.str := by
    have hdigits : ∀ n, '\n' ∉ Nat.toDigits 10 n := notMem_toDigits (by decide) (by decide)
    simp [Version.str, hdigits]
  have hdot : ∀ n, '.' ∉ Nat.toDigits 10 n := notMem_toDigits (by decide) (by decide)
  rw [hereLine_eq hnewline]
  simp only [Version.str, readNames, word_append (hdot _), word_eq (hdot _), List.isEmpty_nil,
    if_true]

theorem releaseVersionIsValid_iff {version : List Char} :
    releaseVersionIsValid version = true ↔ ∃ v : Version, v.Bounded ∧ version = v.str := by
  have hpattern : Pattern.fullmatch
      [releaseComponent, .lit ['.'], releaseComponent, .lit ['.'], releaseComponent] version =
        (Pattern.captures versionRe version).isSome := rfl
  rw [releaseVersionIsValid, hpattern, Bool.and_eq_true, Option.isSome_iff_exists]
  constructor
  · rintro ⟨⟨ms, hms⟩, -⟩
    obtain ⟨v, hv, htext, -⟩ := versionRe_captures.mp hms
    exact ⟨v, hv, htext⟩
  · rintro ⟨v, hv, rfl⟩
    refine ⟨⟨_, versionRe_captures.mpr ⟨v, hv, rfl, rfl⟩⟩, ?_⟩
    simp [readNames_str, arithmetic_limit hv.major, arithmetic_limit hv.minor,
      arithmetic_limit hv.patch]

/-- What the comparison prints of two versions. -/
def relation (candidate installed : Version) : List Char :=
  if installed < candidate then "newer".toList
  else if candidate < installed then "older".toList
  else "equal".toList

theorem compareComponents_nil : compareComponents [] = "equal".toList := rfl

theorem compareComponents_cons {m n : Nat} (hm : m ≤ maxComponent) (hn : n ≤ maxComponent)
    (rest : List (List Char × List Char)) :
    compareComponents ((Nat.toDigits 10 m, Nat.toDigits 10 n) :: rest) =
      if n < m then "newer".toList else if m < n then "older".toList
      else compareComponents rest := by
  simp only [compareComponents, arithmetic_sgt hm hn, arithmetic_slt hm hn, decide_eq_true_eq]

theorem compareReleaseVersions_str {v w : Version} (hv : v.Bounded) (hw : w.Bounded) :
    compareReleaseVersions v.str w.str = ⟨0, relation v w⟩ := by
  have hvalid : releaseVersionIsValid v.str = true := releaseVersionIsValid_iff.mpr ⟨v, hv, rfl⟩
  have hvalid' : releaseVersionIsValid w.str = true := releaseVersionIsValid_iff.mpr ⟨w, hw, rfl⟩
  have hloop : compareComponents ((readNames '.' 3 (hereLine v.str)).zip
      (readNames '.' 3 (hereLine w.str))) = relation v w := by
    simp only [readNames_str, List.zip_cons_cons, List.zip_nil_right,
      compareComponents_cons hv.major hw.major, compareComponents_cons hv.minor hw.minor,
      compareComponents_cons hv.patch hw.patch, compareComponents_nil, relation, Version.lt_iff]
    rcases lt_trichotomy v.major w.major with hmajor | hmajor | hmajor
    · simp [hmajor, hmajor.not_gt, hmajor.ne']
    · rcases lt_trichotomy v.minor w.minor with hminor | hminor | hminor
      · simp [hmajor, hminor, hminor.not_gt, hminor.ne']
      · simp [hmajor, hminor]
      · simp [hmajor, hminor]
    · simp [hmajor]
  rw [compareReleaseVersions, hvalid, hvalid', Bool.and_self, if_pos rfl, hloop]

theorem compareReleaseVersions_invalid {a b : List Char}
    (h : ¬ (releaseVersionIsValid a = true ∧ releaseVersionIsValid b = true)) :
    compareReleaseVersions a b = ⟨2, []⟩ := by
  rw [compareReleaseVersions, if_neg (by simpa using h)]

theorem relation_newer {v w : Version} : relation v w = "newer".toList ↔ w < v := by
  unfold relation
  split_ifs with hgt hlt
  · simp [hgt]
  · simp [hgt]
  · simp [hgt]

theorem relation_older {v w : Version} : relation v w = "older".toList ↔ v < w := by
  unfold relation
  split_ifs with hgt hlt
  · simp [hgt.le]
  · simp [hlt]
  · simp [hlt]

theorem relation_equal {v w : Version} : relation v w = "equal".toList ↔ v = w := by
  unfold relation
  split_ifs with hgt hlt
  · simp [hgt.ne']
  · simp [hlt.ne]
  · simp [le_antisymm (not_lt.mp hgt) (not_lt.mp hlt)]

/-- The first text is a newer release than the second. -/
def Newer (a b : List Char) : Prop := compareReleaseVersions a b = ⟨0, "newer".toList⟩

/-- The texts that the installer accepts as versions. -/
abbrev ReleaseText := {text : List Char // releaseVersionIsValid text = true}

theorem parse_isOk_iff {a : List Char} {source : String} :
    (∃ v, Version.parse a source = .ok v) ↔ releaseVersionIsValid a = true := by
  simp only [Version.parse_eq_ok_iff, releaseVersionIsValid_iff, and_comm]

/-- The version of an accepted text. -/
def ReleaseText.version (a : ReleaseText) : Version :=
  match Version.parse a.1 "" with
  | .ok v => v
  | .error _ => ⟨0, 0, 0⟩

theorem ReleaseText.version_spec (a : ReleaseText) :
    a.1 = a.version.str ∧ a.version.Bounded := by
  obtain ⟨v, hv⟩ : ∃ v, Version.parse a.1 "" = .ok v := parse_isOk_iff.mpr a.2
  have hversion : a.version = v := by simp only [ReleaseText.version, hv]
  rw [hversion]
  exact Version.parse_eq_ok_iff.mp hv

/-- The comparison of accepted texts is the order of their versions. -/
def ReleaseText.embedding : (fun a b : ReleaseText => Newer a.1 b.1) ↪r
    (fun v w : Version => w < v) where
  toFun := ReleaseText.version
  inj' := by
    intro a b h
    apply Subtype.ext
    rw [a.version_spec.1, b.version_spec.1, h]
  map_rel_iff' := by
    intro a b
    obtain ⟨ha, hva⟩ := a.version_spec
    obtain ⟨hb, hvb⟩ := b.version_spec
    change b.version < a.version ↔ Newer a.1 b.1
    rw [Newer, ha, hb, compareReleaseVersions_str hva hvb, Outcome.mk.injEq, relation_newer]
    simp

/-- The installer and the release tool have one order of versions. -/
theorem compareReleaseVersions_is_version_order :
    (∀ a source, releaseVersionIsValid a = true ↔ ∃ v, Version.parse a source = .ok v) ∧
    (∀ a b source v w, Version.parse a source = .ok v → Version.parse b source = .ok w →
      (compareReleaseVersions a b = ⟨0, "newer".toList⟩ ↔ w < v) ∧
      (compareReleaseVersions a b = ⟨0, "equal".toList⟩ ↔ v = w) ∧
      (compareReleaseVersions a b = ⟨0, "older".toList⟩ ↔ v < w)) ∧
    (∀ a b, ¬ (releaseVersionIsValid a = true ∧ releaseVersionIsValid b = true) →
      (compareReleaseVersions a b).status ≠ 0 ∧ (compareReleaseVersions a b).output = []) ∧
    IsStrictTotalOrder ReleaseText (fun a b => Newer a.1 b.1) ∧
    (∀ a b : ReleaseText,
      compareReleaseVersions a.1 b.1 = ⟨0, "equal".toList⟩ ↔ a.1 = b.1) ∧
    (∀ a source v component w, Version.parse a source = .ok v →
      Version.bump v component = .ok w → Newer w.str a) := by
  refine ⟨fun a source => parse_isOk_iff.symm, ?_, ?_,
    ReleaseText.embedding.isStrictTotalOrder, ?_, ?_⟩
  · intro a b source v w hv hw
    obtain ⟨rfl, hboundedv⟩ := Version.parse_eq_ok_iff.mp hv
    obtain ⟨rfl, hboundedw⟩ := Version.parse_eq_ok_iff.mp hw
    simp only [compareReleaseVersions_str hboundedv hboundedw, Outcome.mk.injEq, true_and,
      relation_newer, relation_equal, relation_older, and_self]
  · intro a b h
    rw [compareReleaseVersions_invalid h]
    exact ⟨by simp, rfl⟩
  · intro a b
    obtain ⟨ha, hva⟩ := a.version_spec
    obtain ⟨hb, hvb⟩ := b.version_spec
    rw [ha, hb, compareReleaseVersions_str hva hvb, Outcome.mk.injEq, relation_equal]
    constructor
    · rintro ⟨-, h⟩
      rw [h]
    · intro h
      have := @Version.str_injective ⟨_, hva⟩ ⟨_, hvb⟩ h
      exact ⟨rfl, congrArg Subtype.val this⟩
  · intro a source v component w hv hbump
    obtain ⟨rfl, hbounded⟩ := Version.parse_eq_ok_iff.mp hv
    have hw := Version.bump_bounded hbounded hbump
    unfold Newer
    rw [compareReleaseVersions_str hw hbounded, relation_newer.mpr (Version.lt_bump hbump)]

end Cirrusync.Release
