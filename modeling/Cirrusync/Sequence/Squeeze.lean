import Cirrusync.Sequence.Fitting
import Mathlib.Data.List.Destutter

/-!
Runs of one element, the blank. `squeeze` leaves one blank of every run;
`collapse` does so from the left, in one pass, and can leave out the first run.
-/

namespace Cirrusync.Sequence

variable {α : Type} [DecidableEq α] {blank : α}

/-- Two neighbours that are not both blank. -/
def Apart (blank a b : α) : Prop := a ≠ blank ∨ b ≠ blank

instance (blank : α) : DecidableRel (Apart blank) :=
  fun _ _ => inferInstanceAs (Decidable (_ ∨ _))

/-- Every run of blanks becomes one. -/
def squeeze (blank : α) (cs : List α) : List α := cs.destutter (Apart blank)

def strip (blank : α) (cs : List α) : List α :=
  (cs.dropWhile (· == blank)).rdropWhile (· == blank)

/-- The same from the left; the flag says whether a blank here is to be dropped. -/
def collapse (blank : α) : Bool → List α → List α
  | _, [] => []
  | skip, c :: rest =>
      if c = blank then
        if skip then collapse blank true rest else c :: collapse blank true rest
      else c :: collapse blank false rest

@[simp] theorem collapse_nil (skip : Bool) : collapse blank skip [] = [] := by
  cases skip <;> rfl

@[simp] theorem collapse_blank_skip (rest : List α) :
    collapse blank true (blank :: rest) = collapse blank true rest := by
  simp [collapse]

@[simp] theorem collapse_blank_keep (rest : List α) :
    collapse blank false (blank :: rest) = blank :: collapse blank true rest := by
  simp [collapse]

theorem collapse_cons {c : α} (hc : c ≠ blank) (skip : Bool) (rest : List α) :
    collapse blank skip (c :: rest) = c :: collapse blank false rest := by
  simp [collapse, hc]

/-- The pass, one element at a time: an element is dropped or it is kept. -/
theorem collapse_cases (blank : α) (skip : Bool) (c : α) (rest : List α) :
    c = blank ∧ skip = true ∧ collapse blank skip (c :: rest) = collapse blank true rest ∨
      ¬(c = blank ∧ skip = true) ∧
        collapse blank skip (c :: rest) = c :: collapse blank (c == blank) rest := by
  by_cases hc : c = blank
  · subst hc
    cases skip <;> simp
  · right
    have hflag : (c == blank) = false := by simpa using hc
    simp [collapse_cons hc, hc, hflag]

theorem destutter'_eq_collapse (first : α) (cs : List α) :
    cs.destutter' (Apart blank) first = first :: collapse blank (first == blank) cs := by
  induction cs generalizing first with
  | nil => simp
  | cons c rest ih =>
      by_cases happart : Apart blank first c
      · rw [List.destutter'_cons_pos _ happart, ih c]
        rcases collapse_cases blank (first == blank) c rest with
          ⟨hc, hfirst, -⟩ | ⟨-, hkept⟩
        · rcases happart with h | h
          · exact absurd (beq_iff_eq.mp hfirst) h
          · exact absurd hc h
        · rw [hkept]
      · obtain ⟨rfl, rfl⟩ : first = blank ∧ c = blank := by simpa [Apart] using happart
        rw [List.destutter'_cons_neg _ happart, ih]
        simp

theorem head?_collapse_true (blank : α) (cs : List α) :
    (collapse blank true cs).head? ≠ some blank := by
  induction cs with
  | nil => simp
  | cons c rest ih =>
      by_cases hc : c = blank
      · subst hc
        rw [collapse_blank_skip]
        exact ih
      · simpa [collapse_cons hc] using hc

theorem dropWhile_blank_of_head? {cs : List α} (h : cs.head? ≠ some blank) :
    cs.dropWhile (· == blank) = cs := by
  cases cs with
  | nil => rfl
  | cons c rest =>
      have hc : c ≠ blank := by simpa using h
      simp [hc]

/-- To collapse with the first run left out is to squeeze and drop a first blank. -/
theorem dropWhile_squeeze (cs : List α) :
    (squeeze blank cs).dropWhile (· == blank) = collapse blank true cs := by
  cases cs with
  | nil => simp [squeeze]
  | cons c rest =>
      rw [squeeze, List.destutter_cons', destutter'_eq_collapse]
      by_cases hc : c = blank
      · subst hc
        simp [dropWhile_blank_of_head? (head?_collapse_true c rest)]
      · have hflag : (c == blank) = false := by simpa using hc
        simp [hflag, collapse_cons hc]

theorem strip_squeeze (cs : List α) :
    strip blank (squeeze blank cs) = (collapse blank true cs).rdropWhile (· == blank) := by
  rw [strip, dropWhile_squeeze]

theorem isChain_collapse_true (blank : α) (cs : List α) :
    (collapse blank true cs).IsChain (Apart blank) := by
  rw [← dropWhile_squeeze]
  exact (List.isChain_destutter _ cs).suffix (List.dropWhile_suffix _)

theorem mem_collapse {skip : Bool} {c : α} {cs : List α} (h : c ∈ collapse blank skip cs) :
    c ∈ cs := by
  induction cs generalizing skip with
  | nil => simp at h
  | cons first rest ih =>
      rcases collapse_cases blank skip first rest with ⟨-, -, hdrop⟩ | ⟨-, hkeep⟩
      · rw [hdrop] at h
        exact List.mem_cons_of_mem _ (ih h)
      · rw [hkeep] at h
        rcases List.mem_cons.mp h with rfl | h
        · exact List.mem_cons_self
        · exact List.mem_cons_of_mem _ (ih h)

theorem collapse_append (blank : α) (skip : Bool) (front rest : List α) :
    ∃ later, collapse blank skip (front ++ rest) =
      collapse blank skip front ++ collapse blank later rest := by
  induction front generalizing skip with
  | nil => exact ⟨skip, by simp⟩
  | cons c front ih =>
      rcases collapse_cases blank skip c front with ⟨rfl, rfl, hdrop⟩ | ⟨hc, hkeep⟩
      · obtain ⟨later, hlater⟩ := ih true
        exact ⟨later, by simpa using hlater⟩
      · obtain ⟨later, hlater⟩ := ih (c == blank)
        refine ⟨later, ?_⟩
        rcases collapse_cases blank skip c (front ++ rest) with ⟨h, h', -⟩ | ⟨-, hwhole⟩
        · exact absurd ⟨h, h'⟩ hc
        · rw [List.cons_append, hwhole, hkeep, hlater, List.cons_append]

theorem collapse_true_blanks {blanks : List α} (h : ∀ c ∈ blanks, c = blank) (rest : List α) :
    collapse blank true (blanks ++ rest) = collapse blank true rest := by
  induction blanks with
  | nil => rfl
  | cons c blanks ih =>
      obtain rfl := h c List.mem_cons_self
      rw [List.cons_append, collapse_blank_skip]
      exact ih (fun other member => h other (List.mem_cons_of_mem _ member))

/-- Blanks at the end are trimmed away whether they are collapsed or not. -/
theorem rdropWhile_collapse_append (skip : Bool) {blanks : List α}
    (h : ∀ c ∈ blanks, c = blank) (cs : List α) :
    (collapse blank skip (cs ++ blanks)).rdropWhile (· == blank) =
      (collapse blank skip cs).rdropWhile (· == blank) := by
  obtain ⟨later, hlater⟩ := collapse_append blank skip cs blanks
  rw [hlater]
  exact rdropWhile_append_of_pos (fun c hc => by simpa using h c (mem_collapse hc))

theorem collapse_eq_nil {skip : Bool} {cs : List α} (h : collapse blank skip cs = []) :
    ∀ c ∈ cs, c = blank := by
  induction cs generalizing skip with
  | nil => simp
  | cons c rest ih =>
      rcases collapse_cases blank skip c rest with ⟨rfl, -, hdrop⟩ | ⟨-, hkeep⟩
      · rw [hdrop] at h
        simpa using ih h
      · rw [hkeep] at h
        cases h

/-- The pass keeps the last element, unless it keeps none. -/
theorem getLast?_collapse {skip : Bool} {cs : List α} (h : collapse blank skip cs ≠ []) :
    (collapse blank skip cs).getLast? = cs.getLast? := by
  induction cs generalizing skip with
  | nil => simp at h
  | cons c rest ih =>
      have hrest : ∀ later, collapse blank later rest ≠ [] →
          (collapse blank later rest).getLast? = (c :: rest).getLast? := by
        intro later hlater
        have hne : rest ≠ [] := by
          rintro rfl
          simp at hlater
        rw [ih hlater, List.getLast?_cons_of_ne_nil hne]
      rcases collapse_cases blank skip c rest with ⟨-, -, hdrop⟩ | ⟨hc, hkeep⟩
      · rw [hdrop] at h ⊢
        exact hrest true h
      · rw [hkeep]
        by_cases hnil : collapse blank (c == blank) rest = []
        · -- nothing is kept after this element, so that it is the last or all are blank
          have hblank := collapse_eq_nil hnil
          rw [hnil]
          cases rest with
          | nil => rfl
          | cons next others =>
              have hskip : c = blank := by
                by_contra hne
                have hfalse : (c == blank) = false := by simpa using hne
                obtain rfl := hblank next List.mem_cons_self
                rw [hfalse, collapse_blank_keep] at hnil
                cases hnil
              have hlast : (next :: others).getLast (by simp) = blank :=
                hblank _ (List.getLast_mem _)
              rw [List.getLast?_cons_cons, List.getLast?_eq_some_getLast (List.cons_ne_nil _ _),
                List.getLast?_eq_some_getLast (List.cons_ne_nil next others), hlast, hskip]
              rfl
        · rw [List.getLast?_cons_of_ne_nil hnil]
          exact hrest _ hnil

/-- After the pass at most one blank is left at the end, and one only where the list
ends in one. -/
theorem collapse_true_eq {cs : List α} (h : collapse blank true cs ≠ []) :
    collapse blank true cs = (collapse blank true cs).rdropWhile (· == blank) ++
      if cs.getLast? = some blank then [blank] else [] := by
  have hlast := getLast?_collapse h
  have hchain := isChain_collapse_true blank cs
  have hhead := head?_collapse_true blank cs
  generalize collapse blank true cs = kept at *
  rw [← hlast]
  rcases List.eq_nil_or_concat kept with rfl | ⟨front, c, rfl⟩
  · exact absurd rfl h
  · rw [List.concat_eq_append] at *
    rw [List.getLast?_concat]
    by_cases hc : c = blank
    · subst hc
      have hkept : front.rdropWhile (· == c) = front := by
        rw [List.rdropWhile_eq_self_iff]
        intro hne hblank
        obtain ⟨start, last, rfl⟩ := (List.eq_nil_or_concat front).resolve_left hne
        rw [List.concat_eq_append] at *
        have hend : last = c := by simpa using hblank
        rw [List.append_assoc] at hchain
        have happart := (List.isChain_append.mp hchain).2.1
        rw [hend] at happart
        simp [Apart] at happart
      rw [List.rdropWhile_concat_pos _ _ _ (by simp), hkept]
      simp
    · have hne : ¬some c = some blank := by simpa using hc
      rw [List.rdropWhile_concat_neg _ _ _ (by simpa using hc), if_neg hne, List.append_nil]

/-- A list without blanks at its ends or next to each other is left as it is. -/
theorem collapse_true_of_isChain {cs : List α} (hchain : cs.IsChain (Apart blank))
    (hhead : cs.head? ≠ some blank) : collapse blank true cs = cs := by
  rw [← dropWhile_squeeze, squeeze, List.destutter_of_isChain _ _ hchain]
  exact dropWhile_blank_of_head? hhead

/-- The pass makes no new start without blanks. -/
theorem prefix_of_collapse {part cs : List α} (hpart : blank ∉ part)
    (h : part <+: collapse blank false cs) : part <+: cs := by
  induction cs generalizing part with
  | nil => simpa using h
  | cons c rest ih =>
      have hkeep : collapse blank false (c :: rest) = c :: collapse blank (c == blank) rest := by
        simpa using (collapse_cases blank false c rest)
      rw [hkeep] at h
      rcases List.prefix_cons_iff.mp h with rfl | ⟨tail, rfl, htail⟩
      · exact List.nil_prefix
      · simp only [List.mem_cons, not_or] at hpart
        have hflag : (c == blank) = false := by simpa using Ne.symm hpart.1
        rw [hflag] at htail
        exact List.cons_prefix_cons.mpr ⟨rfl, ih hpart.2 htail⟩

/-- What is found without blanks after the pass was there before it. -/
theorem infix_of_collapse {skip : Bool} {part cs : List α} (hpart : blank ∉ part)
    (hne : part ≠ []) (h : part <:+: collapse blank skip cs) : part <:+: cs := by
  induction cs generalizing skip with
  | nil => simpa using h
  | cons c rest ih =>
      rcases collapse_cases blank skip c rest with ⟨-, -, hdrop⟩ | ⟨-, hkeep⟩
      · rw [hdrop] at h
        exact (ih h).trans (List.suffix_cons _ _).isInfix
      · rw [hkeep] at h
        rcases List.infix_cons_iff.mp h with hstart | hlater
        · rcases List.prefix_cons_iff.mp hstart with rfl | ⟨tail, rfl, htail⟩
          · exact absurd rfl hne
          · simp only [List.mem_cons, not_or] at hpart
            have hflag : (c == blank) = false := by simpa using Ne.symm hpart.1
            rw [hflag] at htail
            have hrest := prefix_of_collapse hpart.2 htail
            exact (List.cons_prefix_cons.mpr ⟨rfl, hrest⟩).isInfix
        · exact (ih hlater).trans (List.suffix_cons _ _).isInfix

end Cirrusync.Sequence
