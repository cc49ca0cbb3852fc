import Mathlib.Data.List.Basic
import Mathlib.Data.List.Forall2

/-!
Regular expressions without nested repetition, matched against a whole text.
An expression is a list of segments; what each segment matched is known after
the match, so that a group is a segment or several in a row. The matcher
backtracks, longest run first, and the match reported is the first it finds.
-/

namespace Cirrusync

/-- One segment of a regular expression over an alphabet. -/
inductive Pattern (α : Type) where
  | lit (text : List α)
  /-- A bracket expression repeated between `least` and `most` times. -/
  | run (accepts : α → Bool) (least : Nat) (most : Option Nat)
  | seq (first second : Pattern α)
  | alt (left right : Pattern α)

namespace Pattern

variable {α : Type}

/-- The texts of a pattern. -/
def Matches : Pattern α → List α → Prop
  | .lit text, m => m = text
  | .run accepts least most, m =>
      (∀ c ∈ m, accepts c = true) ∧ least ≤ m.length ∧ ∀ bound ∈ most, m.length ≤ bound
  | .seq first second, m =>
      ∃ a b, m = a ++ b ∧ first.Matches a ∧ second.Matches b
  | .alt left right, m => left.Matches m ∨ right.Matches m

variable [DecidableEq α]

/-- The ways a pattern can match at the start of a text, each with what follows,
in the order in which a backtracking matcher tries them. -/
def splits : Pattern α → List α → List (List α × List α)
  | .lit text, s => if text.isPrefixOf s then [(text, s.drop text.length)] else []
  | .run accepts least most, s =>
      let reach := (s.takeWhile accepts).length
      let limit := match most with
        | none => reach
        | some bound => min bound reach
      ((List.range (limit + 1)).reverse.filter (least ≤ ·)).map s.splitAt
  | .seq first second, s =>
      (first.splits s).flatMap fun taken =>
        (second.splits taken.2).map fun next => (taken.1 ++ next.1, next.2)
  | .alt left right, s => left.splits s ++ right.splits s

/-- What the segments of an expression match of a text they match as a whole. -/
def captures : List (Pattern α) → List α → Option (List (List α))
  | [], s => if s.isEmpty then some [] else none
  | p :: ps, s =>
      (p.splits s).findSome? fun taken => (captures ps taken.2).map (taken.1 :: ·)

def fullmatch (ps : List (Pattern α)) (s : List α) : Bool := (captures ps s).isSome

omit [DecidableEq α] in
theorem le_takeWhile_length {f : α → Bool} {s : List α} {k : Nat} :
    k ≤ (s.takeWhile f).length ↔ k ≤ s.length ∧ ∀ c ∈ s.take k, f c = true := by
  induction s generalizing k with
  | nil => simp
  | cons c s ih =>
    cases k with
    | zero => simp
    | succ k =>
      by_cases hc : f c = true
      · simp [hc, ih]
      · simp [hc]

omit [DecidableEq α] in
theorem mem_run_splits {least limit : Nat} {s m r : List α} :
    (m, r) ∈ ((List.range (limit + 1)).reverse.filter (least ≤ ·)).map s.splitAt ↔
      ∃ k, k ≤ limit ∧ least ≤ k ∧ m = s.take k ∧ r = s.drop k := by
  simp only [List.mem_map, List.mem_filter, List.mem_reverse, List.mem_range,
    decide_eq_true_eq, List.splitAt_eq, Prod.mk.injEq]
  constructor
  · rintro ⟨k, ⟨hk, hleast⟩, rfl, rfl⟩
    exact ⟨k, by omega, hleast, rfl, rfl⟩
  · rintro ⟨k, hk, hleast, rfl, rfl⟩
    exact ⟨k, ⟨by omega, hleast⟩, rfl, rfl⟩

/-- The splits of a text by a pattern are all the ways to divide it after a match. The induction
is on the pattern, and a repeated class is split by the number of characters that it takes. -/
theorem mem_splits {p : Pattern α} {s m r : List α} :
    (m, r) ∈ p.splits s ↔ s = m ++ r ∧ p.Matches m := by
  induction p generalizing s m r with
  | lit text =>
    simp only [splits, Matches]
    split
    · rename_i h
      obtain ⟨rest, rfl⟩ := List.isPrefixOf_iff_prefix.mp h
      simp only [List.drop_left, List.mem_singleton, Prod.mk.injEq]
      constructor
      · rintro ⟨rfl, rfl⟩
        exact ⟨rfl, rfl⟩
      · rintro ⟨h, rfl⟩
        exact ⟨rfl, (List.append_cancel_left h).symm⟩
    · rename_i h
      simp only [List.not_mem_nil, false_iff, not_and]
      rintro rfl rfl
      exact h (List.isPrefixOf_iff_prefix.mpr ⟨r, rfl⟩)
  | run f least most =>
    simp only [splits, mem_run_splits, Matches]
    have hlimit : ∀ k, (k ≤ match most with
        | none => (s.takeWhile f).length
        | some bound => min bound (s.takeWhile f).length) ↔
        k ≤ (s.takeWhile f).length ∧ ∀ bound ∈ most, k ≤ bound := by
      intro k
      cases most with
      | none => simp
      | some bound =>
        simp only [Option.mem_def, Option.some.injEq, forall_eq']
        omega
    constructor
    · rintro ⟨k, hk, hleast, rfl, rfl⟩
      obtain ⟨hreach, hmost⟩ := (hlimit k).mp hk
      obtain ⟨hlength, hall⟩ := le_takeWhile_length.mp hreach
      have hk' : (s.take k).length = k := by simp [hlength]
      exact ⟨(List.take_append_drop k s).symm, hall, by omega,
        fun bound hb => by have := hmost bound hb; omega⟩
    · rintro ⟨rfl, hall, hleast, hmost⟩
      have htake : (m ++ r).take m.length = m := by simp
      refine ⟨m.length, (hlimit _).mpr ⟨le_takeWhile_length.mpr ⟨by simp, ?_⟩, hmost⟩,
        hleast, htake.symm, by simp⟩
      rw [htake]
      exact hall
  | seq first second ihf ihs =>
    simp only [splits, Matches, List.mem_flatMap, List.mem_map, Prod.exists, Prod.mk.injEq]
    constructor
    · rintro ⟨a, rest, ha, b, r', hb, rfl, rfl⟩
      obtain ⟨rfl, hfirst⟩ := ihf.mp ha
      obtain ⟨rfl, hsecond⟩ := ihs.mp hb
      exact ⟨by simp, a, b, rfl, hfirst, hsecond⟩
    · rintro ⟨rfl, a, b, rfl, hfirst, hsecond⟩
      exact ⟨a, b ++ r, ihf.mpr ⟨by simp, hfirst⟩, b, r, ihs.mpr ⟨rfl, hsecond⟩, rfl, rfl⟩
  | alt left right ihl ihr =>
    simp only [splits, Matches, List.mem_append, ihl, ihr]
    tauto

/-- A match that is reported is a match. -/
theorem captures_sound {ps : List (Pattern α)} {s : List α} {ms : List (List α)}
    (h : captures ps s = some ms) : List.Forall₂ Matches ps ms ∧ ms.flatten = s := by
  induction ps generalizing s ms with
  | nil =>
    unfold captures at h
    split at h
    · rename_i hs
      cases h
      exact ⟨List.Forall₂.nil, (List.isEmpty_iff.mp hs).symm⟩
    · cases h
  | cons p ps ih =>
    obtain ⟨⟨m, rest⟩, hm, hrest⟩ := List.exists_of_findSome?_eq_some h
    obtain ⟨rfl, hp⟩ := mem_splits.mp hm
    obtain ⟨tail, htail, rfl⟩ := Option.map_eq_some_iff.mp hrest
    obtain ⟨hall, hflat⟩ := ih htail
    exact ⟨List.Forall₂.cons hp hall, by simp [hflat]⟩

/-- Where there is a match, one is reported. -/
theorem captures_complete {ps : List (Pattern α)} {ms : List (List α)}
    (h : List.Forall₂ Matches ps ms) : (captures ps ms.flatten).isSome = true := by
  induction h with
  | nil => simp [captures]
  | @cons p m ps ms hp hall ih =>
    obtain ⟨found, hfound⟩ := Option.isSome_iff_exists.mp ih
    have hm : (m, ms.flatten) ∈ p.splits (m ++ ms.flatten) := mem_splits.mpr ⟨rfl, hp⟩
    simp only [captures, List.flatten_cons, List.findSome?_isSome_iff]
    exact ⟨_, hm, by simp [hfound]⟩

theorem fullmatch_iff {ps : List (Pattern α)} {s : List α} :
    fullmatch ps s = true ↔ ∃ ms, List.Forall₂ Matches ps ms ∧ ms.flatten = s := by
  constructor
  · intro h
    obtain ⟨ms, hms⟩ := Option.isSome_iff_exists.mp h
    exact ⟨ms, captures_sound hms⟩
  · rintro ⟨ms, hall, rfl⟩
    exact captures_complete hall

omit [DecidableEq α] in
/-- No text of the expression can be shared among its segments in two ways. -/
def Unambiguous (ps : List (Pattern α)) : Prop :=
  ∀ ms ms', List.Forall₂ Matches ps ms → List.Forall₂ Matches ps ms' →
    ms.flatten = ms'.flatten → ms = ms'

theorem captures_eq_some_iff {ps : List (Pattern α)} (hps : Unambiguous ps) {s : List α}
    {ms : List (List α)} :
    captures ps s = some ms ↔ List.Forall₂ Matches ps ms ∧ ms.flatten = s := by
  constructor
  · exact captures_sound
  · rintro ⟨hall, rfl⟩
    obtain ⟨found, hfound⟩ := Option.isSome_iff_exists.mp (captures_complete hall)
    obtain ⟨hall', hflat⟩ := captures_sound hfound
    rw [hfound, hps found ms hall' hall hflat]

omit [DecidableEq α] in
theorem unambiguous_nil : Unambiguous ([] : List (Pattern α)) := by
  intro ms ms' h h' _
  cases h
  cases h'
  rfl

omit [DecidableEq α] in
theorem unambiguous_lit {text : List α} {ps : List (Pattern α)} (hps : Unambiguous ps) :
    Unambiguous (.lit text :: ps) := by
  intro ms ms' h h' hflat
  obtain ⟨m, tail, hm, htail, rfl⟩ := List.forall₂_cons_left_iff.mp h
  obtain ⟨m', tail', hm', htail', rfl⟩ := List.forall₂_cons_left_iff.mp h'
  simp only [Matches] at hm hm'
  subst hm hm'
  rw [hps tail tail' htail htail' (List.append_cancel_left hflat)]

omit [DecidableEq α] in
/-- A segment ends where its characters end, when what can follow it starts
with a character it does not take. -/
theorem append_inj_of_class {f : α → Bool} {a b rest rest' : List α}
    (ha : ∀ c ∈ a, f c = true) (hb : ∀ c ∈ b, f c = true)
    (hrest : ∀ c ∈ rest.head?, f c = false) (hrest' : ∀ c ∈ rest'.head?, f c = false)
    (h : a ++ rest = b ++ rest') : a = b ∧ rest = rest' := by
  have htake : ∀ {m r : List α}, (∀ c ∈ m, f c = true) → (∀ c ∈ r.head?, f c = false) →
      (m ++ r).takeWhile f = m := by
    intro m r hm hr
    rw [List.takeWhile_append_of_pos hm]
    cases r with
    | nil => simp
    | cons c r => simp [hr c rfl]
  have hab : a = b := by rw [← htake ha hrest, ← htake hb hrest', h]
  subst hab
  exact ⟨rfl, List.append_cancel_left h⟩

omit [DecidableEq α] in
theorem unambiguous_class {f : α → Bool} {p : Pattern α} {ps : List (Pattern α)}
    (hp : ∀ m, p.Matches m → ∀ c ∈ m, f c = true)
    (hnext : ∀ ms, List.Forall₂ Matches ps ms → ∀ c ∈ ms.flatten.head?, f c = false)
    (hps : Unambiguous ps) : Unambiguous (p :: ps) := by
  intro ms ms' h h' hflat
  obtain ⟨m, tail, hm, htail, rfl⟩ := List.forall₂_cons_left_iff.mp h
  obtain ⟨m', tail', hm', htail', rfl⟩ := List.forall₂_cons_left_iff.mp h'
  obtain ⟨rfl, hrest⟩ := append_inj_of_class (hp m hm) (hp m' hm') (hnext tail htail)
    (hnext tail' htail') hflat
  rw [hps tail tail' htail htail' hrest]

end Pattern

end Cirrusync
