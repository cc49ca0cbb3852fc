import Cirrusync.ApiError
import Cirrusync.Sequence.Squeeze
import Cirrusync.Trim

/-!
What the single pass over remote text comes to: the text with its blanks folded
and collapsed, whole or cut off with an ellipsis. The pass decides on the cut
before it drops the blank at the end, and that blank can be a control character.
-/

namespace Cirrusync

open Text Sequence

/-- A character that the pass turns into a space. -/
def isBlank (c : Char) : Bool := isControl c || isWhitespace c

def foldBlank (c : Char) : Char := if isBlank c then ' ' else c

/-- Control characters and white space as spaces, runs of spaces collapsed, none at
the ends. -/
def normalized (value : List Char) : List Char := strip ' ' (squeeze ' ' (value.map foldBlank))

/-- The longest start of a text that leaves room for the dots, and the dots. -/
def shortened (maxBytes : Nat) (text : List Char) : List Char :=
  (fitting Char.utf8Size (maxBytes - min 3 maxBytes) text).rdropWhile (· == ' ') ++
    List.replicate (min 3 maxBytes) '.'

/-- The text on one line, cut only when it does not fit. -/
def boundedLine (value : String) (maxBytes : Nat) : String :=
  let line := normalized value.toList
  .ofList (if byteLength line ≤ maxBytes then line else shortened maxBytes line)

/-- What the pass collects when nothing stops it. -/
def collected (value : List Char) : List Char :=
  collapse ' ' true ((trimChars value).map foldBlank)

theorem byteLength_eq_total (cs : List Char) : byteLength cs = total Char.utf8Size cs := rfl

theorem foldBlank_blank {c : Char} (h : isBlank c = true) : foldBlank c = ' ' := by
  simp [foldBlank, h]

theorem foldBlank_eq_self {c : Char} (h : foldBlank c ≠ ' ') : foldBlank c = c := by
  unfold foldBlank at h ⊢
  split
  · rename_i hblank
    simp [hblank] at h
  · rfl

theorem isBlank_of_whitespace {c : Char} (h : isWhitespace c = true) : isBlank c = true := by
  simp [isBlank, h]

theorem foldBlank_eq_space_iff (c : Char) : foldBlank c = ' ' ↔ isBlank c = true := by
  constructor
  · intro h
    by_contra hblank
    have hself : foldBlank c = c := by simp [foldBlank, hblank]
    rw [hself] at h
    subst h
    exact hblank (by decide)
  · exact foldBlank_blank

/-- The loop collects as much as fits and says whether there was more. -/
theorem sanitizeLoop_eq (maxBytes : Nat) (cs sanitized : List Char) (previousSpace : Bool)
    (hfits : byteLength sanitized ≤ maxBytes) :
    sanitizeLoop maxBytes cs sanitized previousSpace =
      let more := collapse ' ' (previousSpace || sanitized.isEmpty) (cs.map foldBlank)
      (sanitized ++ fitting Char.utf8Size (maxBytes - byteLength sanitized) more,
        decide (maxBytes < byteLength sanitized + byteLength more)) := by
  induction cs generalizing sanitized previousSpace with
  | nil =>
      have hnil : byteLength [] = 0 := rfl
      have hnot : ¬maxBytes < byteLength sanitized := by omega
      simp [sanitizeLoop, fitting, hnil, hnot]
  | cons character rest ih =>
      have hfold : (if isControl character || isWhitespace character then ' ' else character) =
          foldBlank character := rfl
      rw [sanitizeLoop, List.map_cons]
      simp only [hfold]
      generalize foldBlank character = folded
      rcases collapse_cases ' ' (previousSpace || sanitized.isEmpty) folded
        (rest.map foldBlank) with ⟨hblank, hskip, hdrop⟩ | ⟨hnot, hkeep⟩
      · -- a blank after a blank, or before everything else
        have hcond : (folded == ' ' && (previousSpace || sanitized.isEmpty)) = true := by
          simp [hblank, hskip]
        rw [if_pos hcond, hdrop, ih sanitized previousSpace hfits, hskip]
      · have hcond : ¬(folded == ' ' && (previousSpace || sanitized.isEmpty)) = true := by
          intro h
          rw [Bool.and_eq_true, beq_iff_eq] at h
          exact hnot h
        rw [if_neg hcond, hkeep]
        by_cases hroom : byteLength sanitized + folded.utf8Size > maxBytes
        · have hcut : ¬folded.utf8Size ≤ maxBytes - byteLength sanitized := by omega
          have hmore : maxBytes < byteLength sanitized +
              byteLength (folded :: collapse ' ' (folded == ' ') (rest.map foldBlank)) := by
            simp only [byteLength_eq_total, total_cons] at hroom ⊢
            omega
          simp only [if_pos hroom, fitting, if_neg hcut, List.append_nil, decide_eq_true hmore]
        · have hsize : byteLength (sanitized ++ [folded]) =
              byteLength sanitized + folded.utf8Size := by
            simp [byteLength_eq_total]
          have hpush : byteLength (sanitized ++ [folded]) ≤ maxBytes := by omega
          have hfit : folded.utf8Size ≤ maxBytes - byteLength sanitized := by omega
          have hleft : maxBytes - byteLength (sanitized ++ [folded]) =
              maxBytes - byteLength sanitized - folded.utf8Size := by omega
          have hempty : (sanitized ++ [folded]).isEmpty = false := by simp
          have hsum : ∀ more : List Char, byteLength sanitized + byteLength (folded :: more) =
              byteLength (sanitized ++ [folded]) + byteLength more := by
            intro more
            rw [hsize, byteLength_eq_total (folded :: more), total_cons, ← byteLength_eq_total]
            omega
          rw [if_neg hroom, ih _ _ hpush]
          simp only [hempty, Bool.or_false, fitting, if_pos hfit, hleft, hsum, List.append_assoc,
            List.cons_append, List.nil_append]

/-- Removing characters from the end leaves the longest start that fits. -/
theorem popTo_reverse (limit : Nat) (cs : List Char) :
    (popTo limit cs.reverse).reverse = fitting Char.utf8Size limit cs := by
  induction cs using List.reverseRecOn with
  | nil => rfl
  | append_singleton front c ih =>
      have hsize : byteLength (c :: front.reverse) = total Char.utf8Size (front ++ [c]) := by
        simp [byteLength_eq_total, total, Nat.add_comm]
      rw [List.reverse_append, List.reverse_singleton, List.singleton_append, popTo]
      by_cases hover : byteLength (c :: front.reverse) > limit
      · rw [if_pos hover, ih, fitting_append]
        split
        · rename_i hfront
          rw [hsize, total_append, total_cons, total_nil] at hover
          have hc : ¬c.utf8Size ≤ limit - total Char.utf8Size front := by omega
          simp [fitting, hc, fitting_of_le hfront]
        · rfl
      · have hfits : total Char.utf8Size (front ++ [c]) ≤ limit := by omega
        rw [if_neg hover, fitting_of_le hfits]
        simp

theorem normalized_eq (value : List Char) :
    normalized value = (collected value).rdropWhile (· == ' ') := by
  obtain ⟨before, after, hbefore, hafter, hvalue⟩ := exists_trimChars value
  have hfolded : ∀ {cs : List Char}, (∀ c ∈ cs, isWhitespace c = true) →
      ∀ c ∈ cs.map foldBlank, c = ' ' := by
    intro cs hcs c hc
    obtain ⟨d, hd, rfl⟩ := List.mem_map.mp hc
    exact foldBlank_blank (isBlank_of_whitespace (hcs d hd))
  have hmap : value.map foldBlank = before.map foldBlank ++
      ((trimChars value).map foldBlank ++ after.map foldBlank) := by
    conv_lhs => rw [hvalue]
    simp
  rw [normalized, strip_squeeze, hmap, collapse_true_blanks (hfolded hbefore),
    rdropWhile_collapse_append true (hfolded hafter), collected]

/-- The pass in one equation. -/
theorem sanitizeAndTruncateChars_eq (value : List Char) (maxBytes : Nat) :
    sanitizeAndTruncateChars value maxBytes =
      if byteLength (collected value) ≤ maxBytes then normalized value
      else shortened maxBytes (normalized value) := by
  have hloop := sanitizeLoop_eq maxBytes (trimChars value) [] false
    (Nat.zero_le maxBytes)
  have hnil : byteLength [] = 0 := rfl
  simp only [List.isEmpty_nil, Bool.or_true, List.nil_append, hnil, Nat.sub_zero,
    Nat.zero_add] at hloop
  rw [← collected] at hloop
  unfold sanitizeAndTruncateChars
  rw [hloop, normalized_eq]
  by_cases hfits : byteLength (collected value) ≤ maxBytes
  · have hnot : ¬maxBytes < byteLength (collected value) := by omega
    simp only [hnot, decide_false, Bool.false_eq_true, if_false, if_pos hfits]
    rw [fitting_of_le hfits]
  · have hmore : maxBytes < byteLength (collected value) := by omega
    have hlimit : maxBytes - min 3 maxBytes ≤ maxBytes := by omega
    simp only [hmore, decide_true, if_true, if_neg hfits, popTo_reverse, shortened]
    rw [rdropWhile_fitting_rdropWhile, fitting_fitting hlimit, rdropWhile_fitting_rdropWhile]

/-! ## When the pass cuts a line that would fit -/

theorem collected_ne_nil {value : List Char} (h : normalized value ≠ []) :
    collected value ≠ [] := by
  intro hnil
  rw [normalized_eq, hnil] at h
  exact h rfl

/-- The last character of a trimmed text is blank only as a control character. -/
theorem getLast?_folded (value : List Char) :
    ((trimChars value).map foldBlank).getLast? = some ' ' ↔
      ∃ c ∈ (trimChars value).getLast?, isControl c = true := by
  rw [List.getLast?_map, Option.map_eq_some_iff]
  refine exists_congr fun c => and_congr_right fun hc => ?_
  have hlast : isWhitespace c = false := getLast?_rdropWhile hc
  rw [foldBlank_eq_space_iff, isBlank, hlast, Bool.or_false]

/-- What is collected is the line, and a blank when a control character ends the text. -/
theorem collected_eq {value : List Char} (h : normalized value ≠ []) :
    (∃ c ∈ (trimChars value).getLast?, isControl c = true) ∧
        byteLength (collected value) = byteLength (normalized value) + 1 ∨
      (∀ c ∈ (trimChars value).getLast?, isControl c = false) ∧
        collected value = normalized value := by
  have hsplit := collapse_true_eq (collected_ne_nil h)
  rw [← collected, ← normalized_eq] at hsplit
  by_cases hlast : ((trimChars value).map foldBlank).getLast? = some ' '
  · left
    rw [if_pos hlast] at hsplit
    have hspace : total Char.utf8Size [' '] = 1 := by decide
    refine ⟨(getLast?_folded value).mp hlast, ?_⟩
    rw [hsplit, byteLength_eq_total, total_append, hspace, byteLength_eq_total]
  · right
    rw [if_neg hlast, List.append_nil] at hsplit
    refine ⟨fun c hc => ?_, hsplit⟩
    by_contra hcontrol
    exact hlast ((getLast?_folded value).mpr ⟨c, hc, by simpa using hcontrol⟩)

theorem total_dots (n : Nat) : total Char.utf8Size (List.replicate n '.') = n := by
  induction n with
  | zero => rfl
  | succ n ih =>
      have hdot : Char.utf8Size '.' = 1 := by decide
      rw [List.replicate_succ, total_cons, ih, hdot, Nat.add_comm]

/-- A line of exactly the limit looks the same shortened when it ends in the dots. -/
theorem shortened_eq_self_iff {line : List Char} {maxBytes : Nat}
    (h : byteLength line = maxBytes) :
    shortened maxBytes line = line ↔
      ∃ front, line = front ++ List.replicate (min 3 maxBytes) '.' ∧
        front.getLast? ≠ some ' ' := by
  constructor
  · intro hself
    refine ⟨_, hself.symm, fun hlast => ?_⟩
    have hkept := getLast?_rdropWhile hlast
    cases hkept
  · rintro ⟨front, rfl, hlast⟩
    rw [byteLength_eq_total, total_append, total_dots] at h
    have hfront : total Char.utf8Size front = maxBytes - min 3 maxBytes := by omega
    have hcut : fitting Char.utf8Size 0 (List.replicate (min 3 maxBytes) '.') = [] := by
      have hdot : ¬Char.utf8Size '.' ≤ 0 := by decide
      cases min 3 maxBytes with
      | zero => rfl
      | succ n => simp [List.replicate_succ, fitting, hdot]
    have htrim : front.rdropWhile (· == ' ') = front := by
      refine rdropWhile_of_getLast? (fun c hc => ?_)
      have hne : c ≠ ' ' := by
        rintro rfl
        exact hlast hc
      simpa using hne
    rw [shortened, ← hfront, fitting_append, if_pos (Nat.le_refl _), Nat.sub_self, hcut,
      List.append_nil, htrim]

/-- The pass gives the bounded line, unless a control character ends a text whose line
has exactly as many bytes as fit: then the line is cut though it fits, and that shows
unless it already ended in the dots. -/
theorem sanitizeAndTruncate_eq_boundedLine_iff (value : String) (maxBytes : Nat) :
    sanitizeAndTruncate value maxBytes = boundedLine value maxBytes ↔
      (∀ c ∈ (trimChars value.toList).getLast?, isControl c = false) ∨
        normalized value.toList = [] ∨ byteLength (normalized value.toList) ≠ maxBytes ∨
        ∃ front, normalized value.toList = front ++ List.replicate (min 3 maxBytes) '.' ∧
          front.getLast? ≠ some ' ' := by
  unfold sanitizeAndTruncate boundedLine
  rw [String.ofList_inj, sanitizeAndTruncateChars_eq]
  generalize value.toList = text
  by_cases hnil : normalized text = []
  · have hcollected : collected text = [] := by
      by_contra hne
      have hsplit := collapse_true_eq hne
      have hhead := head?_collapse_true ' ' ((trimChars text).map foldBlank)
      rw [← collected] at hhead
      rw [← collected, ← normalized_eq, hnil, List.nil_append] at hsplit
      split at hsplit
      · exact hhead (by rw [hsplit]; rfl)
      · exact hne hsplit
    have hzero : byteLength [] ≤ maxBytes := Nat.zero_le maxBytes
    simp [hnil, hcollected, hzero]
  · rcases collected_eq hnil with ⟨hcontrol, hsize⟩ | ⟨hplain, hsame⟩
    · have hnot : ¬∀ c ∈ (trimChars text).getLast?, isControl c = false := by
        obtain ⟨c, hc, hctl⟩ := hcontrol
        intro hall
        rw [hall c hc] at hctl
        cases hctl
      by_cases hexact : byteLength (normalized text) = maxBytes
      · have hover : ¬byteLength (collected text) ≤ maxBytes := by omega
        have hfits : byteLength (normalized text) ≤ maxBytes := by omega
        rw [if_neg hover, if_pos hfits, shortened_eq_self_iff hexact]
        constructor
        · exact fun hdots => .inr (.inr (.inr hdots))
        · rintro (hplain | hempty | hother | hdots)
          · exact absurd hplain hnot
          · exact absurd hempty hnil
          · exact absurd hexact hother
          · exact hdots
      · have hsides : byteLength (collected text) ≤ maxBytes ↔
            byteLength (normalized text) ≤ maxBytes := by omega
        simp [hsides, hexact]
    · rw [hsame]
      simp only [true_iff]
      exact .inl hplain

/-- A message of exactly the limit, and a bell at its end. -/
theorem bell_cuts_message :
    sanitizeAndTruncate (.ofList (List.replicate 256 'a' ++ ['\x07'])) maxErrorMessageBytes ≠
      boundedLine (.ofList (List.replicate 256 'a' ++ ['\x07'])) maxErrorMessageBytes := by
  -- the pass by its equation, so that the sizes are added up once
  rw [sanitizeAndTruncate, boundedLine, ne_eq, String.ofList_inj, sanitizeAndTruncateChars_eq,
    String.toList_ofList]
  decide +kernel

end Cirrusync
