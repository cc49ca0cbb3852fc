import Cirrusync.Text

/-!
How `split` goes through texts put together from pieces.
-/

namespace Cirrusync.Text

theorem splitChars_ne_nil (separator : Char) (cs : List Char) : splitChars separator cs ≠ [] := by
  cases cs with
  | nil => simp [splitChars]
  | cons c rest =>
      unfold splitChars
      split
      · simp
      · split <;> simp

@[simp] theorem splitChars_separator (separator : Char) (rest : List Char) :
    splitChars separator (separator :: rest) = [] :: splitChars separator rest := by
  simp [splitChars]

theorem splitChars_cons {separator c : Char} {rest piece : List Char}
    {pieces : List (List Char)} (hc : c ≠ separator)
    (hrest : splitChars separator rest = piece :: pieces) :
    splitChars separator (c :: rest) = (c :: piece) :: pieces := by
  simp [splitChars, hc, hrest]

theorem splitChars_of_not_mem {separator : Char} {cs : List Char} (h : separator ∉ cs) :
    splitChars separator cs = [cs] := by
  induction cs with
  | nil => rfl
  | cons c cs ih =>
      simp only [List.mem_cons, not_or] at h
      exact splitChars_cons (Ne.symm h.1) (ih h.2)

/-- A separator ends the pieces before it. -/
theorem splitChars_append (separator : Char) (front rest : List Char) :
    splitChars separator (front ++ separator :: rest) =
      splitChars separator front ++ splitChars separator rest := by
  induction front with
  | nil => simp [splitChars]
  | cons c front ih =>
      by_cases hc : c = separator
      · subst hc
        simp [ih]
      · obtain ⟨piece, pieces, hpieces⟩ :=
          List.exists_cons_of_ne_nil (splitChars_ne_nil separator front)
        have hwhole : splitChars separator (front ++ separator :: rest) =
            piece :: (pieces ++ splitChars separator rest) := by
          rw [ih, hpieces, List.cons_append]
        rw [List.cons_append, splitChars_cons hc hwhole, splitChars_cons hc hpieces,
          List.cons_append]

theorem splitChars_append_of_not_mem {separator : Char} {front rest piece : List Char}
    {pieces : List (List Char)} (h : separator ∉ front)
    (hrest : splitChars separator rest = piece :: pieces) :
    splitChars separator (front ++ rest) = (front ++ piece) :: pieces := by
  induction front with
  | nil => exact hrest
  | cons c front ih =>
      simp only [List.mem_cons, not_or] at h
      exact splitChars_cons (Ne.symm h.1) (ih h.2)

theorem splitChars_eq_splitOn (separator : Char) (cs : List Char) :
    splitChars separator cs = cs.splitOn separator := by
  induction cs with
  | nil => simp [splitChars]
  | cons c cs ih =>
      rw [List.splitOn_cons_eq_if_modifyHead, ← ih]
      by_cases hc : c = separator
      · simp [splitChars, hc]
      · obtain ⟨piece, pieces, hpieces⟩ :=
          List.exists_cons_of_ne_nil (splitChars_ne_nil separator cs)
        simp [splitChars, hc, hpieces]

theorem intercalate_splitChars (separator : Char) (cs : List Char) :
    [separator].intercalate (splitChars separator cs) = cs := by
  rw [splitChars_eq_splitOn, List.intercalate_splitOn]

theorem splitChars_intercalate {separator : Char} {pieces : List (List Char)}
    (h : ∀ piece ∈ pieces, separator ∉ piece) (hne : pieces ≠ []) :
    splitChars separator ([separator].intercalate pieces) = pieces := by
  rw [splitChars_eq_splitOn, List.splitOn_intercalate separator h hne]

theorem intercalate_append (separator : Char) {front rest : List (List Char)}
    (hfront : front ≠ []) (hrest : rest ≠ []) :
    [separator].intercalate (front ++ rest) =
      [separator].intercalate front ++ separator :: [separator].intercalate rest := by
  induction front with
  | nil => exact absurd rfl hfront
  | cons piece front ih =>
      cases front with
      | nil =>
          rw [List.singleton_append, List.intercalate_cons_of_ne_nil hrest]
          simp
      | cons next front =>
          rw [List.cons_append, List.cons_append, List.intercalate_cons_cons, ← List.cons_append,
            ih (List.cons_ne_nil _ _), List.intercalate_cons_cons]
          simp

/-- The pieces of one text end the pieces of another just when it is that text, or
ends it after a separator. -/
theorem splitChars_suffix_iff (separator : Char) (part whole : List Char) :
    splitChars separator part <:+ splitChars separator whole ↔
      whole = part ∨ separator :: part <:+ whole := by
  constructor
  · rintro ⟨front, hfront⟩
    have hwhole := congrArg ([separator].intercalate ·) hfront
    simp only [intercalate_splitChars] at hwhole
    cases front with
    | nil =>
        rw [List.nil_append, intercalate_splitChars] at hwhole
        exact .inl hwhole.symm
    | cons piece front =>
        rw [intercalate_append separator (List.cons_ne_nil _ _) (splitChars_ne_nil _ _),
          intercalate_splitChars] at hwhole
        exact .inr ⟨_, hwhole⟩
  · rintro (rfl | ⟨front, rfl⟩)
    · exact List.suffix_refl _
    · rw [splitChars_append]
      exact List.suffix_append _ _

/-- A piece is the whole text, or starts it, ends it or stands in it between separators. -/
theorem mem_splitChars_iff {separator : Char} {piece cs : List Char} (h : separator ∉ piece) :
    piece ∈ splitChars separator cs ↔ cs = piece ∨ piece ++ [separator] <+: cs ∨
      separator :: piece <:+ cs ∨ separator :: (piece ++ [separator]) <:+: cs := by
  have hself := splitChars_of_not_mem h
  constructor
  · intro hmem
    obtain ⟨front, rest, hsplit⟩ := List.append_of_mem hmem
    have hcs := intercalate_splitChars separator cs
    rw [hsplit] at hcs
    cases front with
    | nil =>
        cases rest with
        | nil => exact .inl (by simpa using hcs.symm)
        | cons next rest =>
            rw [List.nil_append, List.intercalate_cons_cons] at hcs
            exact .inr (.inl ⟨_, hcs⟩)
    | cons first front =>
        rw [intercalate_append separator (List.cons_ne_nil _ _) (List.cons_ne_nil _ _)] at hcs
        cases rest with
        | nil =>
            rw [List.intercalate_singleton] at hcs
            exact .inr (.inr (.inl ⟨_, hcs⟩))
        | cons next rest =>
            rw [List.intercalate_cons_cons] at hcs
            have hinfix : separator :: (piece ++ [separator]) <:+: cs := by
              refine ⟨[separator].intercalate (first :: front),
                [separator].intercalate (next :: rest), ?_⟩
              rw [← hcs, List.append_assoc, List.cons_append]
            exact .inr (.inr (.inr hinfix))
  · rintro (rfl | ⟨rest, rfl⟩ | ⟨front, rfl⟩ | ⟨front, rest, rfl⟩)
    · simp [hself]
    · rw [List.append_assoc, List.singleton_append, splitChars_append, hself]
      exact List.mem_append_left _ (List.mem_singleton.mpr rfl)
    · rw [splitChars_append, hself]
      exact List.mem_append_right _ (List.mem_singleton.mpr rfl)
    · have hsplit : front ++ separator :: (piece ++ [separator]) ++ rest =
          front ++ separator :: (piece ++ separator :: rest) := by simp
      rw [hsplit, splitChars_append, splitChars_append, hself]
      exact List.mem_append_right _ (List.mem_append_left _ (List.mem_singleton.mpr rfl))

/-- A character map that neither makes nor moves separators acts piece by piece. -/
theorem splitChars_map {separator : Char} {f : Char → Char}
    (hf : ∀ c, f c = separator ↔ c = separator) (cs : List Char) :
    splitChars separator (cs.map f) = (splitChars separator cs).map (List.map f) := by
  induction cs with
  | nil => rfl
  | cons c cs ih =>
      by_cases hc : c = separator
      · subst hc
        rw [List.map_cons, (hf c).mpr rfl]
        simp [ih]
      · obtain ⟨first, pieces, hpieces⟩ :=
          List.exists_cons_of_ne_nil (splitChars_ne_nil separator cs)
        have hfc : f c ≠ separator := fun h => hc ((hf c).mp h)
        have hmapped : splitChars separator (cs.map f) =
            first.map f :: pieces.map (List.map f) := by
          rw [ih, hpieces, List.map_cons]
        rw [List.map_cons, splitChars_cons hfc hmapped, splitChars_cons hc hpieces]
        simp

/-- A text starts with its longest start in a class, when what follows starts
outside of it. -/
theorem takeWhile_append_class {f : Char → Bool} {front rest : List Char}
    (hfront : ∀ c ∈ front, f c = true) (hrest : ∀ c ∈ rest.head?, f c = false) :
    (front ++ rest).takeWhile f = front ∧ (front ++ rest).dropWhile f = rest := by
  have hnil : rest.takeWhile f = [] ∧ rest.dropWhile f = rest := by
    cases rest with
    | nil => simp
    | cons c rest =>
        have hc : f c = false := hrest c rfl
        simp [hc]
  rw [List.takeWhile_append_of_pos hfront, List.dropWhile_append_of_pos hfront, hnil.1, hnil.2]
  simp

theorem contains_iff (pattern cs : List Char) : contains pattern cs = true ↔ pattern <:+: cs := by
  induction cs with
  | nil => simp [contains]
  | cons c rest ih =>
      rw [contains, Bool.or_eq_true, ih, List.isPrefixOf_iff_prefix, List.infix_cons_iff]

@[simp] theorem stripPrefix_append (start rest : List Char) :
    stripPrefix start (start ++ rest) = some rest := by
  induction start with
  | nil => rfl
  | cons c start ih => simp [stripPrefix, ih]

end Cirrusync.Text
