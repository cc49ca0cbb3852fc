import Cirrusync.Numerals
import Cirrusync.Release.Pattern
import Mathlib.Data.Prod.Lex
import Mathlib.Tactic.Common

/-!
The versions of a release as `scripts/versioning.py` has them: the expression
that accepts a version text, the parsed value with its order, and the next
version of each kind.
-/

namespace Cirrusync.Release

open Numerals

def maxComponent : Nat := 999999999

/-- `_COMPONENT_PATTERN`: `(?:0|[1-9][0-9]{0,8})`. -/
def componentPattern : Pattern Char :=
  .alt (.lit ['0'])
    (.seq (.run (fun c => '1' ≤ c && c ≤ '9') 1 (some 1))
      (.run (fun c => '0' ≤ c && c ≤ '9') 0 (some 8)))

/-- `_VERSION_RE`. -/
def versionRe : List (Pattern Char) :=
  [componentPattern, .lit ['.'], componentPattern, .lit ['.'], componentPattern]

/-- A strict three-component release version. -/
structure Version where
  major : Nat
  minor : Nat
  patch : Nat
deriving DecidableEq, Repr

namespace Version

/-- `int` of a text of ASCII digits. -/
def int (digits : List Char) : Nat := Nat.ofDigitChars 10 digits 0

def parse (value : List Char) (source : String) : Except String Version :=
  match Pattern.captures versionRe value with
  | some [major, _, minor, _, patch] =>
      if [int major, int minor, int patch].any (fun component => maxComponent < component) then
        .error s!"{source} version exceeds the maximum component value {maxComponent}"
      else .ok ⟨int major, int minor, int patch⟩
  | _ =>
      .error (s!"{source} version is invalid; expected X.Y.Z with " ++
        "no leading zeros and components from 0 through 999999999")

def bump (version : Version) (component : String) : Except String Version :=
  if component = "patch" then
    if version.patch = maxComponent then .error "patch version cannot be incremented further"
    else .ok ⟨version.major, version.minor, version.patch + 1⟩
  else if component = "minor" then
    if version.minor = maxComponent then .error "minor version cannot be incremented further"
    else .ok ⟨version.major, version.minor + 1, 0⟩
  else if component = "major" then
    if version.major = maxComponent then .error "major version cannot be incremented further"
    else .ok ⟨version.major + 1, 0, 0⟩
  -- `repr` of a component without quotes or backslashes
  else .error s!"unknown version component '{component}'"

/-- `__str__`. -/
def str (version : Version) : List Char :=
  Nat.toDigits 10 version.major ++ '.' :: (Nat.toDigits 10 version.minor ++
    '.' :: Nat.toDigits 10 version.patch)

/-- What the dataclass compares. -/
def tuple (version : Version) : ℕ ×ₗ ℕ ×ₗ ℕ :=
  toLex (version.major, toLex (version.minor, version.patch))

theorem tuple_injective : Function.Injective tuple := by
  intro v w h
  cases v
  cases w
  simpa [tuple] using h

instance : LinearOrder Version := LinearOrder.lift' tuple tuple_injective

theorem lt_iff {v w : Version} :
    v < w ↔ v.major < w.major ∨ v.major = w.major ∧
      (v.minor < w.minor ∨ v.minor = w.minor ∧ v.patch < w.patch) := by
  have h : v < w ↔ tuple v < tuple w := Iff.rfl
  rw [h, tuple, tuple, Prod.Lex.toLex_lt_toLex, Prod.Lex.toLex_lt_toLex]

/-- The components are in range. -/
structure Bounded (v : Version) : Prop where
  major : v.major ≤ maxComponent
  minor : v.minor ≤ maxComponent
  patch : v.patch ≤ maxComponent

theorem bump_bounded {v w : Version} {component : String} (hv : v.Bounded)
    (h : v.bump component = .ok w) : w.Bounded := by
  obtain ⟨hmajor, hminor, hpatch⟩ := hv
  unfold bump at h
  split_ifs at h <;> cases h
  · exact ⟨hmajor, hminor, by simp only; omega⟩
  · exact ⟨hmajor, by simp only; omega, Nat.zero_le _⟩
  · exact ⟨by simp only; omega, Nat.zero_le _, Nat.zero_le _⟩

theorem lt_bump {v w : Version} {component : String} (h : v.bump component = .ok w) : v < w := by
  rw [lt_iff]
  unfold bump at h
  split_ifs at h <;> cases h
  · exact .inr ⟨rfl, .inr ⟨rfl, Nat.lt_succ_self _⟩⟩
  · exact .inr ⟨rfl, .inl (Nat.lt_succ_self _)⟩
  · exact .inl (Nat.lt_succ_self _)

end Version

/-! ## The texts of the components -/

theorem isDigit_iff (c : Char) : ('0' ≤ c && c ≤ '9') = c.isDigit := rfl

theorem toDigits_length {n : Nat} : (Nat.toDigits 10 n).length ≤ 9 ↔ n ≤ maxComponent := by
  rw [Nat.length_toDigits_le_iff (by decide) (by decide), maxComponent]
  omega

/-- The texts of a component are the printed numbers in range. -/
theorem componentPattern_matches {m : List Char} :
    componentPattern.Matches m ↔ ∃ n ≤ maxComponent, m = Nat.toDigits 10 n := by
  have hnine : ∀ c : Char, ('1' ≤ c && c ≤ '9') = true ↔ c.isDigit = true ∧ c ≠ '0' := by
    intro c
    have hc : c ≠ '0' ↔ c.toNat ≠ 48 := by rw [Ne, ← Char.toNat_inj]; rfl
    rw [hc]
    simp only [Char.isDigit, Char.le_def, UInt32.le_iff_toNat_le, Char.toNat, Bool.and_eq_true,
      decide_eq_true_eq, ge_iff_le]
    have : '1'.val.toNat = 49 := rfl
    have : '9'.val.toNat = 57 := rfl
    have : '0'.val.toNat = 48 := rfl
    omega
  simp only [componentPattern, Pattern.Matches, isDigit_iff, hnine]
  constructor
  · rintro (rfl | ⟨front, tail, rfl, ⟨hfront, hone, hone'⟩, htail, -, hlength⟩)
    · exact ⟨0, Nat.zero_le _, rfl⟩
    · have hone'' := hone' 1 rfl
      obtain ⟨d, rfl⟩ : ∃ d, front = [d] := List.length_eq_one_iff.mp (by omega)
      obtain ⟨hd, hzero⟩ := hfront d List.mem_cons_self
      obtain ⟨hlt, hchar⟩ := digitChar_of_isDigit hd
      have hpos : 0 < d.toNat - '0'.toNat := by
        rcases Nat.eq_zero_or_pos (d.toNat - '0'.toNat) with h | h
        · rw [h] at hchar
          exact absurd hchar.symm hzero
        · exact h
      have htext := toDigits_ofDigitChars htail hpos
      rw [Nat.toDigits_of_lt_base hlt, hchar] at htext
      have height := hlength 8 rfl
      refine ⟨_, toDigits_length.mp ?_, htext.symm⟩
      rw [htext]
      simp only [List.length_append, List.length_singleton]
      omega
  · rintro ⟨n, hn, rfl⟩
    rcases Nat.eq_zero_or_pos n with rfl | hpos
    · exact .inl rfl
    · obtain ⟨d, rest, hd, hne⟩ := toDigits_head hpos
      have hlength := toDigits_length.mpr hn
      have hdigits := toDigits_isDigit (n := n)
      rw [hd] at hlength hdigits ⊢
      simp only [List.length_cons] at hlength
      exact .inr ⟨[d], rest, rfl,
        ⟨by simpa using ⟨hdigits d List.mem_cons_self, hne⟩, by simp, by simp⟩,
        fun c hc => hdigits c (List.mem_cons_of_mem d hc), Nat.zero_le _, by
          simp only [Option.mem_def, Option.some.injEq, forall_eq']; omega⟩

theorem versionRe_unambiguous : Pattern.Unambiguous versionRe := by
  have hdigits : ∀ m, componentPattern.Matches m → ∀ c ∈ m, c.isDigit = true := by
    intro m hm
    obtain ⟨n, -, rfl⟩ := componentPattern_matches.mp hm
    exact toDigits_isDigit
  have hdot : ∀ ps ms, List.Forall₂ Pattern.Matches (.lit ['.'] :: ps) ms →
      ∀ c ∈ ms.flatten.head?, c.isDigit = false := by
    intro ps ms h
    obtain ⟨m, tail, hm, -, rfl⟩ := List.forall₂_cons_left_iff.mp h
    simp only [Pattern.Matches] at hm
    subst hm
    simp [Char.isDigit]
  refine Pattern.unambiguous_class hdigits (hdot _) (Pattern.unambiguous_lit ?_)
  refine Pattern.unambiguous_class hdigits (hdot _) (Pattern.unambiguous_lit ?_)
  refine Pattern.unambiguous_class hdigits ?_ Pattern.unambiguous_nil
  intro ms h
  cases h
  simp

/-- What the version expression matches, and its groups. -/
theorem versionRe_captures {value : List Char} {ms : List (List Char)} :
    Pattern.captures versionRe value = some ms ↔
      ∃ v : Version, v.Bounded ∧ value = v.str ∧
        ms = [Nat.toDigits 10 v.major, ['.'], Nat.toDigits 10 v.minor, ['.'],
          Nat.toDigits 10 v.patch] := by
  rw [Pattern.captures_eq_some_iff versionRe_unambiguous]
  simp only [versionRe, List.forall₂_cons_left_iff, List.forall₂_nil_left_iff]
  constructor
  · rintro ⟨⟨m₁, _, h₁, ⟨_, _, rfl, ⟨m₂, _, h₂, ⟨_, _, rfl, ⟨m₃, _, h₃, rfl, rfl⟩, rfl⟩, rfl⟩,
      rfl⟩, rfl⟩, rfl⟩
    obtain ⟨major, hmajor, rfl⟩ := componentPattern_matches.mp h₁
    obtain ⟨minor, hminor, rfl⟩ := componentPattern_matches.mp h₂
    obtain ⟨patch, hpatch, rfl⟩ := componentPattern_matches.mp h₃
    exact ⟨⟨major, minor, patch⟩, ⟨hmajor, hminor, hpatch⟩, by simp [Version.str], rfl⟩
  · rintro ⟨v, ⟨hmajor, hminor, hpatch⟩, rfl, rfl⟩
    have hcomponent : ∀ {n : Nat}, n ≤ maxComponent →
        componentPattern.Matches (Nat.toDigits 10 n) :=
      fun hn => componentPattern_matches.mpr ⟨_, hn, rfl⟩
    exact ⟨⟨_, _, hcomponent hmajor, ⟨_, _, rfl, ⟨_, _, hcomponent hminor, ⟨_, _, rfl,
      ⟨_, _, hcomponent hpatch, rfl, rfl⟩, rfl⟩, rfl⟩, rfl⟩, rfl⟩, by simp [Version.str]⟩

namespace Version

theorem int_toDigits (n : Nat) : int (Nat.toDigits 10 n) = n := Nat.ofDigitChars_ten_toDigits

/-- A text is accepted as a version exactly when it is how that version prints
and the components are in range. -/
theorem parse_eq_ok_iff {value : List Char} {source : String} {v : Version} :
    parse value source = .ok v ↔ value = v.str ∧ v.Bounded := by
  cases hcaptures : Pattern.captures versionRe value with
  | none =>
    simp only [parse, hcaptures, reduceCtorEq, false_iff, not_and]
    intro htext hv
    have := versionRe_captures.mpr ⟨v, hv, htext, rfl⟩
    rw [hcaptures] at this
    cases this
  | some ms =>
    obtain ⟨w, hw, rfl, rfl⟩ := versionRe_captures.mp hcaptures
    have hrange : [w.major, w.minor, w.patch].any (maxComponent < ·) = false := by
      simp [hw.major, hw.minor, hw.patch]
    simp only [parse, hcaptures, int_toDigits, hrange, Bool.false_eq_true, if_false,
      Except.ok.injEq]
    constructor
    · rintro rfl
      exact ⟨rfl, hw⟩
    · rintro ⟨htext, hv⟩
      rw [versionRe_captures.mpr ⟨v, hv, htext, rfl⟩, Option.some.injEq] at hcaptures
      simp only [List.cons.injEq, and_true, true_and] at hcaptures
      obtain ⟨hmajor, hminor, hpatch⟩ := hcaptures
      have hdigits : ∀ {m n : Nat}, Nat.toDigits 10 m = Nat.toDigits 10 n → m = n := by
        intro m n h
        rw [← int_toDigits m, h, int_toDigits]
      rw [Version.mk.injEq]
      exact ⟨(hdigits hmajor).symm, (hdigits hminor).symm, (hdigits hpatch).symm⟩

theorem str_injective : Function.Injective (fun v : {v : Version // v.Bounded} => v.1.str) := by
  intro v w h
  have hv : parse v.1.str "" = .ok v.1 := parse_eq_ok_iff.mpr ⟨rfl, v.2⟩
  have hw : parse w.1.str "" = .ok w.1 := parse_eq_ok_iff.mpr ⟨rfl, w.2⟩
  simp only at h
  rw [h, hw] at hv
  exact Subtype.ext (Except.ok.inj hv).symm

end Version

end Cirrusync.Release
