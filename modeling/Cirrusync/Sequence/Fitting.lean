import Mathlib.Algebra.GroupWithZero.Nat
import Mathlib.Data.List.Basic
import Mathlib.Data.List.DropRight

/-!
The longest start of a list that fits in a size limit, and what trimming the end
of a list does to it. The size of an element is any number.
-/

namespace Cirrusync.Sequence

variable {α : Type}

def total (size : α → Nat) (cs : List α) : Nat := (cs.map size).sum

@[simp] theorem total_nil (size : α → Nat) : total size [] = 0 := rfl

@[simp] theorem total_cons (size : α → Nat) (c : α) (cs : List α) :
    total size (c :: cs) = size c + total size cs := by
  simp [total]

@[simp] theorem total_append (size : α → Nat) (front rest : List α) :
    total size (front ++ rest) = total size front + total size rest := by
  simp [total]

/-- The longest start of a list whose sizes add up to at most the limit. -/
def fitting (size : α → Nat) : Nat → List α → List α
  | _, [] => []
  | limit, c :: rest => if size c ≤ limit then c :: fitting size (limit - size c) rest else []

variable {size : α → Nat}

theorem fitting_isPrefix (limit : Nat) (cs : List α) : fitting size limit cs <+: cs := by
  induction cs generalizing limit with
  | nil => exact List.prefix_refl []
  | cons c rest ih =>
      unfold fitting
      split
      · exact List.cons_prefix_cons.mpr ⟨rfl, ih (limit - size c)⟩
      · exact List.nil_prefix

theorem total_fitting_le (limit : Nat) (cs : List α) :
    total size (fitting size limit cs) ≤ limit := by
  induction cs generalizing limit with
  | nil => exact Nat.zero_le limit
  | cons c rest ih =>
      unfold fitting
      split
      · have hrest := ih (limit - size c)
        rw [total_cons]
        omega
      · exact Nat.zero_le limit

/-- A list is cut at the end of its first part, or inside of it. -/
theorem fitting_append (limit : Nat) (front rest : List α) :
    fitting size limit (front ++ rest) =
      if total size front ≤ limit then front ++ fitting size (limit - total size front) rest
      else fitting size limit front := by
  induction front generalizing limit with
  | nil => simp
  | cons c front ih =>
      by_cases hc : size c ≤ limit
      · have hsplit : total size (c :: front) ≤ limit ↔ total size front ≤ limit - size c := by
          rw [total_cons]
          omega
        have hleft : limit - total size (c :: front) = limit - size c - total size front := by
          rw [total_cons]
          omega
        simp only [List.cons_append, fitting, hc, if_true, ih, hsplit, hleft]
        split <;> rfl
      · have hover : ¬total size (c :: front) ≤ limit := by
          rw [total_cons]
          omega
        simp only [List.cons_append, fitting, hc, hover, if_false]

theorem fitting_of_le {limit : Nat} {cs : List α} (h : total size cs ≤ limit) :
    fitting size limit cs = cs := by
  have hwhole : fitting size limit (cs ++ []) = _ := fitting_append limit cs []
  rw [List.append_nil, if_pos h] at hwhole
  simpa [fitting] using hwhole

/-- A smaller limit cuts what is left of a larger one as it cuts the whole. -/
theorem fitting_fitting {small large : Nat} (h : small ≤ large) (cs : List α) :
    fitting size small (fitting size large cs) = fitting size small cs := by
  induction cs generalizing small large with
  | nil => rfl
  | cons c rest ih =>
      by_cases hlarge : size c ≤ large
      · by_cases hsmall : size c ≤ small
        · simp [fitting, hlarge, hsmall, ih (Nat.sub_le_sub_right h (size c))]
        · simp [fitting, hlarge, hsmall]
      · have hsmall : ¬size c ≤ small := by omega
        simp [fitting, hlarge, hsmall]

theorem rdropWhile_append_of_pos {p : α → Bool} {cs rest : List α}
    (h : ∀ c ∈ rest, p c = true) : (cs ++ rest).rdropWhile p = cs.rdropWhile p := by
  induction rest using List.reverseRecOn with
  | nil => rw [List.append_nil]
  | append_singleton rest c ih =>
      have hc : p c = true := h c (by simp)
      rw [← List.append_assoc, List.rdropWhile_concat_pos _ _ _ hc]
      exact ih (fun other member => h other (List.mem_append_left _ member))

/-- A list is its trimmed part and elements that trimming takes. -/
theorem exists_rdropWhile_append (p : α → Bool) (cs : List α) :
    ∃ dropped, (∀ c ∈ dropped, p c = true) ∧ cs = cs.rdropWhile p ++ dropped :=
  ⟨cs.rtakeWhile p, fun _ hc => List.mem_rtakeWhile_imp hc,
    List.rdropWhile_append_rtakeWhile.symm⟩

theorem getLast?_rdropWhile {p : α → Bool} {cs : List α} {c : α}
    (h : c ∈ (cs.rdropWhile p).getLast?) : p c = false := by
  have hne : cs.rdropWhile p ≠ [] := by
    intro hnil
    rw [hnil] at h
    cases h
  have hkept := List.rdropWhile_last_not p cs hne
  have hlast : (cs.rdropWhile p).getLast hne = c :=
    Option.some.inj ((List.getLast?_eq_some_getLast hne).symm.trans h)
  rw [hlast] at hkept
  simpa using hkept

theorem rdropWhile_of_getLast? {p : α → Bool} {cs : List α}
    (h : ∀ c ∈ cs.getLast?, p c = false) : cs.rdropWhile p = cs := by
  rw [List.rdropWhile_eq_self_iff]
  intro hne hlast
  rw [h _ (List.getLast?_eq_some_getLast hne)] at hlast
  cases hlast

/-- To trim the end before a cut as well changes nothing. -/
theorem rdropWhile_fitting_rdropWhile (p : α → Bool) (limit : Nat) (cs : List α) :
    (fitting size limit (cs.rdropWhile p)).rdropWhile p = (fitting size limit cs).rdropWhile p := by
  obtain ⟨dropped, hdropped, hcs⟩ := exists_rdropWhile_append p cs
  have hcut : fitting size limit cs = _ := (congrArg _ hcs).trans (fitting_append limit _ _)
  rw [hcut]
  split
  · rename_i hfits
    have hrest : ∀ c ∈ fitting size (limit - total size (cs.rdropWhile p)) dropped, p c = true :=
      fun c hc => hdropped c ((fitting_isPrefix _ _).subset hc)
    rw [fitting_of_le hfits, rdropWhile_append_of_pos hrest]
  · rfl

end Cirrusync.Sequence
