import Cirrusync.Release.Lines
import Cirrusync.Release.Version

/-!
String assignments on lines of their own, as the line scanners of
`scripts/versioning.py` recognise them, and the replacement of their values.
-/

namespace Cirrusync.Release

open Python

def packageName : List Char := "cirrusync".toList

/-- `[ \t]`. -/
def isBlank (c : Char) : Bool := c == ' ' || c == '\t'

/-- `[ \t]*`. -/
def blanks : Pattern Char := .run isBlank 0 none

/-- `(?:#.*)?`, a dot being anything but a line feed. -/
def comment : Pattern Char :=
  .alt (.seq (.lit ['#']) (.run (· != '\n') 0 none)) (.lit [])

/-- `[^\[\]\r\n]+`. -/
def tableName : Pattern Char :=
  .run (fun c => !(c == '[' || c == ']' || c == '\r' || c == '\n')) 1 none

/-- `_MANIFEST_SECTION_RE`. -/
def manifestSectionRe : List (Pattern Char) :=
  [blanks, .lit ['['], tableName, .lit [']'], blanks, comment]

/-- `_LOCK_TABLE_RE`. -/
def lockTableRe : List (Pattern Char) :=
  [blanks, .lit ['[', '['], tableName, .lit [']', ']'], blanks, comment]

/-- `[^"\\\r\n]*`. -/
def stringValue : Pattern Char :=
  .run (fun c => !(c == '"' || c == '\\' || c == '\r' || c == '\n')) 0 none

/-- The group `prefix` of `_match_string_assignment`. -/
def prefixRe (key : List Char) : List (Pattern Char) :=
  [blanks, .lit key, blanks, .lit ['='], blanks, .lit ['"']]

/-- Its group `suffix`. -/
def suffixRe : List (Pattern Char) := [.lit ['"'], blanks, comment]

def assignmentRe (key : List Char) : List (Pattern Char) :=
  prefixRe key ++ stringValue :: suffixRe

/-- `_Assignment`. -/
structure Assignment where
  lineIndex : Nat
  value : List Char
  prefixText : List Char
  suffixText : List Char
  newline : List Char
deriving DecidableEq, Repr

def splitLineEnding (line : List Char) : List Char × List Char :=
  if ['\r', '\n'].isSuffixOf line then (line.dropLast.dropLast, ['\r', '\n'])
  else match line.getLast? with
    | some '\n' => (line.dropLast, ['\n'])
    | some '\r' => (line.dropLast, ['\r'])
    | _ => (line, [])

def matchStringAssignment (line key : List Char) (lineIndex : Nat) : Option Assignment :=
  match Pattern.captures (assignmentRe key) (splitLineEnding line).1 with
  | some [indent, name, space, equals, space', opening, value, closing, space'', remark] =>
      some {
        lineIndex := lineIndex
        value := value
        prefixText := indent ++ name ++ space ++ equals ++ space' ++ opening
        suffixText := closing ++ space'' ++ remark
        newline := (splitLineEnding line).2 }
  | _ => none

def replaceAssignment (contents : List Char) (assignment : Assignment) (newValue : List Char) :
    List Char :=
  ((splitlines contents).set assignment.lineIndex
    (assignment.prefixText ++ newValue ++ assignment.suffixText ++ assignment.newline)).flatten

/-! ## Line ends -/

/-- A line's end is not looked for in front of a character other than a line feed. -/
theorem splitLineEnding_append {front tail : List Char} {c : Char} (hc : c ≠ '\n') :
    splitLineEnding (front ++ c :: tail) =
      (front ++ (splitLineEnding (c :: tail)).1, (splitLineEnding (c :: tail)).2) := by
  have hsuffix : ['\r', '\n'].isSuffixOf (front ++ c :: tail) =
      ['\r', '\n'].isSuffixOf (c :: tail) := by
    rw [Bool.eq_iff_iff, List.isSuffixOf_iff_suffix, List.isSuffixOf_iff_suffix]
    constructor
    · intro h
      cases tail with
      | nil =>
        have hlast := h.getLast (by simp)
        simp only [List.getLast_append_singleton] at hlast
        exact absurd hlast.symm hc
      | cons d tail =>
        exact List.suffix_of_suffix_length_le h (List.suffix_append _ _) (by simp)
    · exact fun h => h.trans (List.suffix_append _ _)
  have hlast : (front ++ c :: tail).getLast? = (c :: tail).getLast? :=
    List.getLast?_append_cons ..
  have hdrop : (front ++ c :: tail).dropLast = front ++ (c :: tail).dropLast :=
    List.dropLast_append_of_ne_nil (by simp)
  unfold splitLineEnding
  rw [hsuffix, hlast, hdrop]
  split_ifs with hcrlf
  · have htail : (c :: tail).dropLast ≠ [] := by
      rintro h
      cases tail with
      | nil => simp [List.isSuffixOf, List.isPrefixOf] at hcrlf
      | cons d tail => simp at h
    rw [List.dropLast_append_of_ne_nil htail]
  · split <;> rfl

theorem splitLineEnding_flatten (line : List Char) :
    (splitLineEnding line).1 ++ (splitLineEnding line).2 = line := by
  have hlast : ∀ c, line.getLast? = some c → line.dropLast ++ [c] = line := by
    intro c h
    obtain ⟨before, rfl⟩ := List.getLast?_eq_some_iff.mp h
    simp
  unfold splitLineEnding
  split_ifs with hcrlf
  · obtain ⟨before, rfl⟩ := List.isSuffixOf_iff_suffix.mp hcrlf
    simp
  · split
    · exact hlast _ ‹_›
    · exact hlast _ ‹_›
    · simp

/-! ## The expression of an assignment -/

theorem blanks_class {m : List Char} (h : blanks.Matches m) : ∀ c ∈ m, isBlank c = true := h.1

theorem lit_head {key : List Char} {k : Char} {ps : List (Pattern Char)} {ms : List (List Char)}
    (h : List.Forall₂ Pattern.Matches (.lit (k :: key) :: ps) ms) :
    ms.flatten.head? = some k := by
  obtain ⟨m, tail, hm, -, rfl⟩ := List.forall₂_cons_left_iff.mp h
  simp only [Pattern.Matches] at hm
  subst hm
  rfl

theorem comment_head {ms : List (List Char)}
    (h : List.Forall₂ Pattern.Matches [comment] ms) : ∀ c ∈ ms.flatten.head?, c = '#' := by
  obtain ⟨m, tail, hm, htail, rfl⟩ := List.forall₂_cons_left_iff.mp h
  cases htail
  rcases hm with ⟨a, b, rfl, ha, -⟩ | hm
  · simp only [Pattern.Matches] at ha
    subst ha
    simp
  · simp only [Pattern.Matches] at hm
    subst hm
    simp

theorem comment_unambiguous : Pattern.Unambiguous [comment] := by
  intro ms ms' h h' hflat
  obtain ⟨m, tail, -, htail, rfl⟩ := List.forall₂_cons_left_iff.mp h
  obtain ⟨m', tail', -, htail', rfl⟩ := List.forall₂_cons_left_iff.mp h'
  cases htail
  cases htail'
  simpa using hflat

theorem blanks_comment_unambiguous : Pattern.Unambiguous [blanks, comment] := by
  refine Pattern.unambiguous_class (fun m => blanks_class) ?_ comment_unambiguous
  intro ms h c hc
  rw [comment_head h c hc]
  rfl

/-- Blanks in front of a fixed text that does not start with one. -/
theorem blanks_lit_unambiguous {key : List Char} {k : Char} {ps : List (Pattern Char)}
    (hk : isBlank k = false) (hps : Pattern.Unambiguous ps) :
    Pattern.Unambiguous (blanks :: .lit (k :: key) :: ps) := by
  refine Pattern.unambiguous_class (fun m => blanks_class) ?_ (Pattern.unambiguous_lit hps)
  intro ms h c hc
  rw [lit_head h, Option.mem_some_iff] at hc
  rw [← hc]
  exact hk

theorem assignmentRe_unambiguous {key : List Char} {k : Char} (hk : isBlank k = false) :
    Pattern.Unambiguous (assignmentRe (k :: key)) := by
  refine blanks_lit_unambiguous hk (blanks_lit_unambiguous rfl (blanks_lit_unambiguous rfl ?_))
  refine Pattern.unambiguous_class (fun m hm => hm.1) ?_
    (Pattern.unambiguous_lit blanks_comment_unambiguous)
  intro ms h c hc
  rw [lit_head h, Option.mem_some_iff] at hc
  rw [← hc]
  rfl

/-- A line is an assignment when it reads as one, and then in one way. -/
theorem matchStringAssignment_iff {line key : List Char} {k : Char} (hk : isBlank k = false)
    {lineIndex : Nat} {assignment : Assignment} :
    matchStringAssignment line (k :: key) lineIndex = some assignment ↔
      assignment.lineIndex = lineIndex ∧
      Pattern.fullmatch (prefixRe (k :: key)) assignment.prefixText = true ∧
      stringValue.Matches assignment.value ∧
      Pattern.fullmatch suffixRe assignment.suffixText = true ∧
      splitLineEnding line = (assignment.prefixText ++ assignment.value ++ assignment.suffixText,
        assignment.newline) := by
  simp only [Pattern.fullmatch_iff]
  constructor
  · intro h
    unfold matchStringAssignment at h
    split at h
    · rename_i indent name space equals space' opening value closing space'' remark hcaptures
      cases h
      obtain ⟨hall, hflat⟩ := Pattern.captures_sound hcaptures
      have hprefix : List.Forall₂ Pattern.Matches (prefixRe (k :: key))
          [indent, name, space, equals, space', opening] := List.forall₂_take 6 hall
      have hrest : List.Forall₂ Pattern.Matches (stringValue :: suffixRe)
          [value, closing, space'', remark] := List.forall₂_drop 6 hall
      obtain ⟨hvalue, hsuffix⟩ := List.forall₂_cons.mp hrest
      refine ⟨rfl, ⟨_, hprefix, by simp⟩, hvalue, ⟨_, hsuffix, by simp⟩, ?_⟩
      rw [Prod.ext_iff]
      exact ⟨by rw [← hflat]; simp, rfl⟩
    · cases h
  · rintro ⟨rfl, ⟨ms, hprefix, hms⟩, hvalue, ⟨ms', hsuffix, hms'⟩, hline⟩
    have hall : List.Forall₂ Pattern.Matches (assignmentRe (k :: key))
        (ms ++ assignment.value :: ms') := List.rel_append hprefix (hsuffix.cons hvalue)
    have hflat : (ms ++ assignment.value :: ms').flatten = (splitLineEnding line).1 := by
      rw [hline, ← hms, ← hms']
      simp
    have hcaptures := (Pattern.captures_eq_some_iff (assignmentRe_unambiguous hk)).mpr
      ⟨hall, hflat⟩
    obtain ⟨indent, name, space, equals, space', opening, rfl⟩ :
        ∃ a b c d e f, ms = [a, b, c, d, e, f] := by
      have hlength : 6 = ms.length := hprefix.length_eq
      match ms, hlength with
      | [a, b, c, d, e, f], _ => exact ⟨a, b, c, d, e, f, rfl⟩
    obtain ⟨closing, space'', remark, rfl⟩ : ∃ a b c, ms' = [a, b, c] := by
      have hlength : 3 = ms'.length := hsuffix.length_eq
      match ms', hlength with
      | [a, b, c], _ => exact ⟨a, b, c, rfl⟩
    unfold matchStringAssignment
    rw [hcaptures]
    cases assignment
    simp_all [List.append_assoc]

/-! ## Another value on the line -/

theorem suffix_shape {text : List Char} (h : Pattern.fullmatch suffixRe text = true) :
    ∃ rest, text = '"' :: rest := by
  obtain ⟨ms, hms, rfl⟩ := Pattern.fullmatch_iff.mp h
  exact List.head?_eq_some_iff.mp (lit_head hms)

theorem prefix_shape {key text : List Char} {k : Char}
    (h : Pattern.fullmatch (prefixRe (k :: key)) text = true) :
    ∃ indent rest, (∀ c ∈ indent, isBlank c = true) ∧ text = indent ++ k :: rest := by
  obtain ⟨ms, hms, rfl⟩ := Pattern.fullmatch_iff.mp h
  obtain ⟨indent, tail, hindent, htail, rfl⟩ := List.forall₂_cons_left_iff.mp hms
  obtain ⟨rest, hrest⟩ := List.head?_eq_some_iff.mp (lit_head htail)
  exact ⟨indent, rest, hindent.1, by rw [List.flatten_cons, hrest]⟩

theorem prefix_plain {key text : List Char} (hkey : ∀ c ∈ key, isLineBoundary c = false)
    (h : Pattern.fullmatch (prefixRe key) text = true) :
    ∀ c ∈ text, isLineBoundary c = false := by
  have hblank : ∀ {m : List Char}, blanks.Matches m → ∀ c ∈ m, isLineBoundary c = false := by
    intro m hm c hc
    have hc' := blanks_class hm c hc
    simp only [isBlank, Bool.or_eq_true, beq_iff_eq] at hc'
    rcases hc' with rfl | rfl <;> decide
  have hlit : ∀ {m text : List Char}, (Pattern.lit text).Matches m →
      (∀ c ∈ text, isLineBoundary c = false) → ∀ c ∈ m, isLineBoundary c = false := by
    intro m text hm htext
    simp only [Pattern.Matches] at hm
    rwa [hm]
  obtain ⟨ms, hms, rfl⟩ := Pattern.fullmatch_iff.mp h
  simp only [prefixRe, List.forall₂_cons_left_iff, List.forall₂_nil_left_iff] at hms
  obtain ⟨_, _, h₁, ⟨_, _, h₂, ⟨_, _, h₃, ⟨_, _, h₄, ⟨_, _, h₅, ⟨_, _, h₆, rfl, rfl⟩, rfl⟩, rfl⟩,
    rfl⟩, rfl⟩, rfl⟩ := hms
  simp only [List.flatten_cons, List.flatten_nil, List.append_nil, List.forall_mem_append]
  exact ⟨hblank h₁, hlit h₂ hkey, hblank h₃, hlit h₄ (List.all_iff_forall_prop.mp (by decide)),
    hblank h₅, hlit h₆ (List.all_iff_forall_prop.mp (by decide))⟩

section

variable {key : List Char} {k : Char} (hk : isBlank k = false)
include hk

theorem Assignment.line_eq {line : List Char} {i : Nat} {assignment : Assignment}
    (h : matchStringAssignment line (k :: key) i = some assignment) :
    line = assignment.prefixText ++ assignment.value ++
      (assignment.suffixText ++ assignment.newline) := by
  obtain ⟨-, -, -, -, hline⟩ := (matchStringAssignment_iff hk).mp h
  rw [← splitLineEnding_flatten line, hline]
  simp

/-- The same line with another value is the same assignment with that value. -/
theorem matchStringAssignment_replaced {line : List Char} {i : Nat} {assignment : Assignment}
    {newValue : List Char} (h : matchStringAssignment line (k :: key) i = some assignment)
    (hnew : stringValue.Matches newValue) :
    matchStringAssignment (assignment.prefixText ++ newValue ++
      (assignment.suffixText ++ assignment.newline)) (k :: key) i =
        some { assignment with value := newValue } := by
  have hline := Assignment.line_eq hk h
  obtain ⟨hindex, hprefix, hvalue, hsuffix, hsplit⟩ := (matchStringAssignment_iff hk).mp h
  obtain ⟨rest, hrest⟩ := suffix_shape hsuffix
  rw [hline, hrest, List.cons_append, splitLineEnding_append (by decide), Prod.mk.injEq] at hsplit
  obtain ⟨hbody, hnewline⟩ := hsplit
  have hbody' := List.append_cancel_left hbody
  refine (matchStringAssignment_iff hk).mpr ⟨hindex, hprefix, hnew, hsuffix, ?_⟩
  simp only
  rw [hrest, List.cons_append, splitLineEnding_append (by decide), hbody', hnewline]

variable (hbracket : k ≠ '[')
include hbracket

/-- An assignment is no section header. -/
theorem not_section_of_assignment {line : List Char} {i : Nat} {assignment : Assignment}
    (h : matchStringAssignment line (k :: key) i = some assignment) :
    Pattern.captures manifestSectionRe (splitLineEnding line).1 = none := by
  obtain ⟨-, hprefix, -, -, hline⟩ := (matchStringAssignment_iff hk).mp h
  obtain ⟨indent, rest, hindent, hshape⟩ := prefix_shape hprefix
  cases hcaptures : Pattern.captures manifestSectionRe (splitLineEnding line).1 with
  | none => rfl
  | some ms =>
    obtain ⟨hall, hflat⟩ := Pattern.captures_sound hcaptures
    obtain ⟨indent', tail, hindent', htail, rfl⟩ := List.forall₂_cons_left_iff.mp hall
    obtain ⟨rest', hrest'⟩ := List.head?_eq_some_iff.mp (lit_head htail)
    rw [hline, List.flatten_cons, hrest', hshape, List.append_assoc, List.append_assoc,
      List.cons_append] at hflat
    have hnext := (Pattern.append_inj_of_class hindent'.1 hindent (by simp [isBlank])
      (by simp [hk]) hflat).2
    exact absurd (List.cons.inj hnext).1.symm hbracket

theorem lstrip_assignment {line : List Char} {i : Nat} {assignment : Assignment}
    (hspace : isSpace k = false)
    (h : matchStringAssignment line (k :: key) i = some assignment) :
    (lstrip (splitLineEnding line).1).head? ≠ some '[' := by
  obtain ⟨-, hprefix, -, -, hline⟩ := (matchStringAssignment_iff hk).mp h
  obtain ⟨indent, rest, hindent, hshape⟩ := prefix_shape hprefix
  have hspaces : ∀ c ∈ indent, isSpace c = true := by
    intro c hc
    have hc' := hindent c hc
    simp only [isBlank, Bool.or_eq_true, beq_iff_eq] at hc'
    rcases hc' with rfl | rfl <;> decide
  rw [hline, hshape]
  simp only [List.append_assoc, List.cons_append, lstrip]
  rw [List.dropWhile_append_of_pos hspaces, List.dropWhile_cons_of_neg (by simp [hspace]),
    List.head?_cons, Ne, Option.some.injEq]
  exact hbracket

end

end Cirrusync.Release
