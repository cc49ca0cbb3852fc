import Cirrusync.Release.Assignment

/-!
The scanner that looks for the string assignment of a key in the `[package]`
table of a manifest. It finds the assignment again after an edit of its value.
-/

namespace Cirrusync.Release

open Python

/-- The locals of `_manifest_package_assignment`. -/
structure PackageScan where
  inPackage : Bool
  packageSectionCount : Nat
  found : List Assignment

/-- One round of the loop of `_manifest_package_assignment`. -/
def PackageScan.step (key : List Char) (scan : PackageScan) (line : List Char × Nat) :
    PackageScan :=
  let body := (splitLineEnding line.1).1
  match Pattern.captures manifestSectionRe body with
  | some [_, _, table, _, _, _] =>
      let inPackage := strip table == "package".toList
      ⟨inPackage, if inPackage then scan.packageSectionCount + 1 else scan.packageSectionCount,
        scan.found⟩
  | _ =>
      if (lstrip body).head? == some '[' then { scan with inPackage := false }
      else if scan.inPackage then
        match matchStringAssignment line.1 key line.2 with
        | some assignment => { scan with found := scan.found ++ [assignment] }
        | none => scan
      else scan

def scanPackage (contents key : List Char) : PackageScan :=
  (splitlines contents).zipIdx.foldl (PackageScan.step key) ⟨false, 0, []⟩

def manifestPackageAssignment (contents key : List Char) (source : String) :
    Except String Assignment :=
  let scan := scanPackage contents key
  if scan.packageSectionCount ≠ 1 then
    .error (s!"{source} has {scan.packageSectionCount} [package] tables; " ++
      "expected exactly one")
  else match scan.found with
    | [] => .error (s!"{source} has no string " ++ String.ofList key ++ " in [package]")
    | [assignment] => .ok assignment
    | found =>
        .error (s!"{source} has {found.length} package " ++ String.ofList key ++
          " assignments; expected exactly one")

def manifestVersionAssignment (contents : List Char) (source : String) :
    Except String Assignment :=
  manifestPackageAssignment contents "version".toList source

/-! ## What the scan finds -/

/-- An assignment is that of a line of a text. -/
def Assignment.On (contents key : List Char) (assignment : Assignment) : Prop :=
  ∃ line, (splitlines contents)[assignment.lineIndex]? = some line ∧
    matchStringAssignment line key assignment.lineIndex = some assignment

theorem matchStringAssignment_index {line key : List Char} {i : Nat} {assignment : Assignment}
    (h : matchStringAssignment line key i = some assignment) : assignment.lineIndex = i := by
  unfold matchStringAssignment at h
  split at h
  · cases h
    rfl
  · cases h

theorem PackageScan.step_found {key : List Char} {scan : PackageScan} {line : List Char × Nat}
    {assignment : Assignment} (h : assignment ∈ (scan.step key line).found) :
    assignment ∈ scan.found ∨ matchStringAssignment line.1 key line.2 = some assignment := by
  unfold PackageScan.step at h
  simp only at h
  split at h
  · exact .inl h
  · split_ifs at h
    · exact .inl h
    · split at h
      · rename_i found hfound
        rcases List.mem_append.mp h with h | h
        · exact .inl h
        · rw [List.mem_singleton.mp h]
          exact .inr hfound
      · exact .inl h
    · exact .inl h

theorem scanPackage_found {contents key : List Char} :
    ∀ assignment ∈ (scanPackage contents key).found, assignment.On contents key := by
  have hstart : ∀ assignment ∈ (PackageScan.mk false 0 []).found,
      assignment.On contents key := by simp
  refine List.foldlRecOn (motive := fun scan : PackageScan =>
    ∀ assignment ∈ scan.found, assignment.On contents key) _ _ hstart ?_
  intro scan hscan line hline assignment h
  rcases PackageScan.step_found h with h | h
  · exact hscan assignment h
  · have hindex := matchStringAssignment_index h
    rw [List.mem_zipIdx_iff_getElem?] at hline
    exact ⟨line.1, by rw [hindex, hline], by rw [hindex, h]⟩

/-! ## The scan of an edited text -/

/-- The assignments of an edited text from those of the text before. -/
def Assignment.edited (target : Nat) (newValue : List Char) (assignment : Assignment) :
    Assignment :=
  if assignment.lineIndex = target then { assignment with value := newValue } else assignment

def PackageScan.edited (target : Nat) (newValue : List Char) (scan : PackageScan) :
    PackageScan :=
  { scan with found := scan.found.map (Assignment.edited target newValue) }

/-- A line that is not edited. -/
theorem PackageScan.step_edited_other {key newValue line : List Char} {target i : Nat}
    (scan : PackageScan) (hi : i ≠ target) :
    (scan.edited target newValue).step key (line, i) =
      (scan.step key (line, i)).edited target newValue := by
  unfold PackageScan.step
  simp only [PackageScan.edited]
  split
  · rfl
  · by_cases hbracket : ((lstrip (splitLineEnding line).1).head? == some '[') = true
    · simp only [hbracket, if_true]
    · by_cases hin : scan.inPackage = true
      · cases h : matchStringAssignment line key i with
        | none => simp only [hbracket, hin, if_true, Bool.false_eq_true, if_false]
        | some assignment =>
          have hindex := matchStringAssignment_index h
          simp only [hbracket, hin, Bool.false_eq_true, if_false, if_true, List.map_append,
            List.map_cons, List.map_nil, Assignment.edited, hindex, hi]
      · simp only [hbracket, hin, Bool.false_eq_true, if_false]

/-- The edited line: an assignment before and after. -/
theorem PackageScan.step_edited {key newValue line line' : List Char} {i : Nat}
    {assignment : Assignment} (scan : PackageScan)
    (hsection : Pattern.captures manifestSectionRe (splitLineEnding line).1 = none)
    (hsection' : Pattern.captures manifestSectionRe (splitLineEnding line').1 = none)
    (hstrip : (lstrip (splitLineEnding line).1).head? ≠ some '[')
    (hstrip' : (lstrip (splitLineEnding line').1).head? ≠ some '[')
    (h : matchStringAssignment line key i = some assignment)
    (h' : matchStringAssignment line' key i = some { assignment with value := newValue }) :
    (scan.edited i newValue).step key (line', i) = (scan.step key (line, i)).edited i newValue := by
  have hindex := matchStringAssignment_index h
  unfold PackageScan.step
  simp only [hsection, hsection', beq_iff_eq, hstrip, hstrip', if_false, h, h',
    PackageScan.edited]
  by_cases hin : scan.inPackage = true
  · simp only [hin, if_true, List.map_append, List.map_cons, List.map_nil, Assignment.edited,
      hindex]
  · simp only [hin, Bool.false_eq_true, if_false]

/-- The scan of the lines with one of them changed is the scan of the lines with its result
changed at that place, if that is so of the one step at the line. -/
theorem foldl_step_set {key newValue line line' : List Char} {lines : List (List Char)}
    {i n : Nat} (hline : lines[i]? = some line)
    (hstep : ∀ scan : PackageScan, (scan.edited (n + i) newValue).step key (line', n + i) =
      (scan.step key (line, n + i)).edited (n + i) newValue) (scan : PackageScan) :
    ((lines.set i line').zipIdx n).foldl (PackageScan.step key) (scan.edited (n + i) newValue) =
      ((lines.zipIdx n).foldl (PackageScan.step key) scan).edited (n + i) newValue := by
  induction lines generalizing i n scan with
  | nil => cases hline
  | cons first lines ih =>
    have hothers : ∀ (rest : List (List Char)) (m : Nat) (scan : PackageScan), n + i < m →
        (rest.zipIdx m).foldl (PackageScan.step key) (scan.edited (n + i) newValue) =
          ((rest.zipIdx m).foldl (PackageScan.step key) scan).edited (n + i) newValue := by
      intro rest
      induction rest with
      | nil => intro m scan _; rfl
      | cons l rest ih =>
        intro m scan hm
        rw [List.zipIdx_cons, List.foldl_cons, List.foldl_cons,
          PackageScan.step_edited_other scan (by omega), ih (m + 1) _ (by omega)]
    cases i with
    | zero =>
      rw [List.getElem?_cons_zero, Option.some.injEq] at hline
      subst hline
      rw [List.set_cons_zero, List.zipIdx_cons, List.foldl_cons, List.zipIdx_cons,
        List.foldl_cons]
      have hfirst := hstep scan
      rw [Nat.add_zero] at hfirst hothers ⊢
      rw [hfirst, hothers lines (n + 1) _ (by omega)]
    | succ i =>
      rw [List.getElem?_cons_succ] at hline
      have hnext : n + (i + 1) = n + 1 + i := by omega
      rw [List.set_cons_succ, List.zipIdx_cons, List.foldl_cons, List.zipIdx_cons,
        List.foldl_cons, PackageScan.step_edited_other scan (by omega)]
      rw [hnext] at hstep ⊢
      exact ih hline hstep _

theorem manifestPackageAssignment_ok {contents key : List Char} {source : String}
    {assignment : Assignment} :
    manifestPackageAssignment contents key source = .ok assignment ↔
      (scanPackage contents key).packageSectionCount = 1 ∧
        (scanPackage contents key).found = [assignment] := by
  unfold manifestPackageAssignment
  simp only
  split_ifs with hcount
  · simp [hcount]
  · rw [not_not] at hcount
    cases hfound : (scanPackage contents key).found with
    | nil => simp
    | cons first rest =>
      cases rest with
      | nil => simp [hcount]
      | cons second rest => simp

theorem manifestPackageAssignment_on {contents key : List Char} {source : String}
    {assignment : Assignment}
    (h : manifestPackageAssignment contents key source = .ok assignment) :
    assignment.On contents key := by
  obtain ⟨-, hfound⟩ := manifestPackageAssignment_ok.mp h
  exact scanPackage_found assignment (by simp [hfound])

/-- A key that no blank, section header or line end can be taken for. -/
structure KeyText (key : List Char) (k : Char) : Prop where
  notBlank : isBlank k = false
  notSpace : isSpace k = false
  notBracket : k ≠ '['
  plain : ∀ c ∈ k :: key, isLineBoundary c = false

section

variable {contents key newValue : List Char} {k : Char} {assignment : Assignment}
  (hkey : KeyText key k) (hon : assignment.On contents (k :: key))
  (hold : ∀ c ∈ assignment.value, isLineBoundary c = false)
  (hnew : ∀ c ∈ newValue, isLineBoundary c = false)
include hkey hon hold hnew

/-- The edited text has the lines of the text before but for the edited one. -/
theorem splitlines_replaceAssignment :
    splitlines (replaceAssignment contents assignment newValue) =
      (splitlines contents).set assignment.lineIndex
        (assignment.prefixText ++ newValue ++ (assignment.suffixText ++ assignment.newline)) := by
  obtain ⟨line, hline, hmatch⟩ := hon
  obtain ⟨-, hprefix, -, -, -⟩ := (matchStringAssignment_iff hkey.notBlank).mp hmatch
  obtain ⟨indent, rest, -, hshape⟩ := prefix_shape hprefix
  have hne : assignment.prefixText ≠ [] := by
    rw [hshape]
    simp
  rw [Assignment.line_eq hkey.notBlank hmatch] at hline
  unfold replaceAssignment
  rw [List.append_assoc (assignment.prefixText ++ newValue)]
  exact splitlines_set hne (prefix_plain hkey.plain hprefix) hold hnew hline

theorem scanPackage_replaceAssignment (hvalue : stringValue.Matches newValue) :
    scanPackage (replaceAssignment contents assignment newValue) (k :: key) =
      (scanPackage contents (k :: key)).edited assignment.lineIndex newValue := by
  have hsplit := splitlines_replaceAssignment hkey hon hold hnew
  obtain ⟨line, hline, hmatch⟩ := hon
  have hmatch' := matchStringAssignment_replaced hkey.notBlank hmatch hvalue
  have hscan := foldl_step_set (n := 0) hline (by
    rw [Nat.zero_add]
    intro scan
    exact PackageScan.step_edited scan
      (not_section_of_assignment hkey.notBlank hkey.notBracket hmatch)
      (not_section_of_assignment hkey.notBlank hkey.notBracket hmatch')
      (lstrip_assignment hkey.notBlank hkey.notBracket hkey.notSpace hmatch)
      (lstrip_assignment hkey.notBlank hkey.notBracket hkey.notSpace hmatch') hmatch hmatch')
    ⟨false, 0, []⟩
  rw [Nat.zero_add] at hscan
  unfold scanPackage
  rw [hsplit]
  exact hscan

/-- The scanner finds the edited assignment on the same line, with the new value. -/
theorem manifestPackageAssignment_replaceAssignment (hvalue : stringValue.Matches newValue)
    {source source' : String}
    (h : manifestPackageAssignment contents (k :: key) source = .ok assignment) :
    manifestPackageAssignment (replaceAssignment contents assignment newValue) (k :: key) source' =
      .ok { assignment with value := newValue } := by
  rw [manifestPackageAssignment_ok] at h ⊢
  rw [scanPackage_replaceAssignment hkey hon hold hnew hvalue]
  obtain ⟨hcount, hfound⟩ := h
  refine ⟨hcount, ?_⟩
  simp only [PackageScan.edited, hfound, List.map_cons, List.map_nil, Assignment.edited, if_true]

end

end Cirrusync.Release
