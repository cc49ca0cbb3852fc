import Mathlib.Data.List.Infix

/-!
Lists that do not have a given part, and what keeps it out of them: a separator
between two lists, or a replacement for every match that shares no element with
the part at either end.
-/

namespace Cirrusync.Sequence

variable {α : Type} {part cs front rest : List α}

/-- No run of neighbours in `cs` is `part`. -/
def Lacks (part cs : List α) : Prop := ¬part <:+: cs

theorem Lacks.of_infix {shorter : List α} (h : Lacks part cs) (hshorter : shorter <:+: cs) :
    Lacks part shorter :=
  fun hpart => h (hpart.trans hshorter)

theorem Lacks.of_part {longer : List α} (h : Lacks part cs) (hlonger : part <:+: longer) :
    Lacks longer cs :=
  fun hpart => h (hlonger.trans hpart)

theorem Lacks.of_notMem {c : α} (hc : c ∈ part) (hcs : c ∉ cs) : Lacks part cs :=
  fun hpart => hcs (hpart.subset hc)

theorem prefix_of_append_cons {c : α} (hc : c ∉ part) (h : part <+: front ++ c :: rest) :
    part <+: front := by
  induction front generalizing part with
  | nil =>
      rcases List.prefix_cons_iff.mp h with rfl | ⟨tail, rfl, -⟩
      · exact List.prefix_refl []
      · exact absurd List.mem_cons_self hc
  | cons d front ih =>
      rcases List.prefix_cons_iff.mp h with rfl | ⟨tail, rfl, htail⟩
      · exact List.nil_prefix
      · have htail' := ih (fun hmem => hc (List.mem_cons_of_mem d hmem)) htail
        exact List.prefix_cons_iff.mpr (.inr ⟨tail, rfl, htail'⟩)

/-- An element that the part does not have keeps it on one of the sides. -/
theorem infix_of_append_cons {c : α} (hc : c ∉ part) (h : part <:+: front ++ c :: rest) :
    part <:+: front ∨ part <:+: rest := by
  induction front with
  | nil =>
      rcases List.infix_cons_iff.mp h with hstart | hlater
      · exact .inl (prefix_of_append_cons hc hstart).isInfix
      · exact .inr hlater
  | cons d front ih =>
      rcases List.infix_cons_iff.mp h with hstart | hlater
      · have hfront : part <+: d :: front := prefix_of_append_cons hc hstart
        exact .inl hfront.isInfix
      · rcases ih hlater with hfront | hrest
        · exact .inl (hfront.trans (List.suffix_cons d front).isInfix)
        · exact .inr hrest

theorem Lacks.append_cons {c : α} (hc : c ∉ part) (hfront : Lacks part front)
    (hrest : Lacks part rest) : Lacks part (front ++ c :: rest) := by
  intro h
  rcases infix_of_append_cons hc h with h | h
  · exact hfront h
  · exact hrest h

theorem Lacks.cons {c : α} (hc : c ∉ part) (hne : part ≠ []) (hrest : Lacks part rest) :
    Lacks part (c :: rest) := by
  have hfront : Lacks part [] := fun h => hne (List.infix_nil.mp h)
  exact hfront.append_cons hc hrest

/-- What shares no element with the part can stand before a list without it. -/
theorem Lacks.append_left {other : List α} (hother : ∀ c ∈ other, c ∉ part) (hne : part ≠ [])
    (hrest : Lacks part rest) : Lacks part (other ++ rest) := by
  induction other with
  | nil => exact hrest
  | cons c other ih =>
      exact Lacks.cons (hother c List.mem_cons_self) hne
        (ih (fun d hd => hother d (List.mem_cons_of_mem c hd)))

theorem Lacks.append_right {other : List α} (hother : ∀ c ∈ other, c ∉ part) (hne : part ≠ [])
    (hfront : Lacks part front) : Lacks part (front ++ other) := by
  cases other with
  | nil =>
      rw [List.append_nil]
      exact hfront
  | cons c other =>
      have hrest : Lacks part (other ++ []) :=
        Lacks.append_left (fun d hd => hother d (List.mem_cons_of_mem c hd)) hne
          (fun h => hne (List.infix_nil.mp h))
      rw [List.append_nil] at hrest
      exact Lacks.append_cons (hother c List.mem_cons_self) hfront hrest

/-- Lists without the part, joined by a separator that shares no element with it. -/
theorem Lacks.intercalate {separator : List α} {pieces : List (List α)}
    (hseparator : ∀ c ∈ separator, c ∉ part) (hsome : separator ≠ []) (hne : part ≠ [])
    (h : ∀ piece ∈ pieces, Lacks part piece) : Lacks part (separator.intercalate pieces) := by
  induction pieces with
  | nil => exact fun hnil => hne (List.infix_nil.mp hnil)
  | cons piece pieces ih =>
      have hfirst := h piece List.mem_cons_self
      have hlater := ih (fun other hother => h other (List.mem_cons_of_mem piece hother))
      cases pieces with
      | nil => simpa using hfirst
      | cons next pieces =>
          rw [List.intercalate_cons_cons]
          cases separator with
          | nil => exact absurd rfl hsome
          | cons c separator =>
              rw [List.append_assoc, List.cons_append]
              refine Lacks.append_cons (hseparator c List.mem_cons_self) hfirst ?_
              exact Lacks.append_left
                (fun d hd => hseparator d (List.mem_cons_of_mem c hd)) hne hlater

end Cirrusync.Sequence
