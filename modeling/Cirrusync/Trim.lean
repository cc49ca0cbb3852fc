import Cirrusync.Text
import Cirrusync.Sequence.Fitting

/-!
What `trim` leaves of a text: no white space at the ends, and everything between.
-/

namespace Cirrusync.Text

open Sequence

/-- Trimming takes white space off both ends. -/
theorem exists_trimChars (value : List Char) :
    ∃ before after, (∀ c ∈ before, isWhitespace c = true) ∧ (∀ c ∈ after, isWhitespace c = true) ∧
      value = before ++ trimChars value ++ after := by
  obtain ⟨after, hafter, hend⟩ :=
    exists_rdropWhile_append isWhitespace (value.dropWhile isWhitespace)
  refine ⟨value.takeWhile isWhitespace, after, fun c hc => List.mem_takeWhile_imp hc, hafter, ?_⟩
  rw [trimChars, List.append_assoc, ← hend, List.takeWhile_append_dropWhile]

theorem mem_of_mem_trimChars {value : List Char} {c : Char} (h : c ∈ trimChars value) :
    c ∈ value := by
  obtain ⟨before, after, -, -, hvalue⟩ := exists_trimChars value
  rw [hvalue]
  exact List.mem_append_left _ (List.mem_append_right _ h)

theorem mem_trimChars {value : List Char} {c : Char} (h : c ∈ value)
    (hc : isWhitespace c = false) : c ∈ trimChars value := by
  obtain ⟨before, after, hbefore, hafter, hvalue⟩ := exists_trimChars value
  rw [hvalue] at h
  rcases List.mem_append.mp h with h | h
  · rcases List.mem_append.mp h with h | h
    · rw [hbefore c h] at hc
      cases hc
    · exact h
  · rw [hafter c h] at hc
    cases hc

theorem head?_dropWhile {p : Char → Bool} {cs : List Char} {c : Char}
    (h : c ∈ (cs.dropWhile p).head?) : p c = false := by
  have hnot := List.head?_dropWhile_not p cs
  rw [Option.mem_def.mp h] at hnot
  simpa using hnot

theorem head?_of_isPrefix {front cs : List Char} (h : front <+: cs) {c : Char}
    (hc : c ∈ front.head?) : c ∈ cs.head? := by
  obtain ⟨rest, rfl⟩ := h
  rw [Option.mem_def, List.head?_append, Option.mem_def.mp hc, Option.some_or]

theorem head?_trimChars {value : List Char} {c : Char} (h : c ∈ (trimChars value).head?) :
    isWhitespace c = false :=
  head?_dropWhile (head?_of_isPrefix (List.rdropWhile_prefix _ _) h)

theorem getLast?_trimChars {value : List Char} {c : Char} (h : c ∈ (trimChars value).getLast?) :
    isWhitespace c = false :=
  getLast?_rdropWhile h

theorem trimChars_append_blanks {value blanks : List Char}
    (h : ∀ c ∈ blanks, isWhitespace c = true) : trimChars (value ++ blanks) = trimChars value := by
  unfold trimChars
  rw [List.dropWhile_append]
  split
  · rename_i hempty
    have hnil : value.dropWhile isWhitespace = [] := by simpa using hempty
    have hblanks : blanks.dropWhile isWhitespace = [] := List.dropWhile_eq_nil_iff.mpr h
    rw [hnil, hblanks]
  · exact rdropWhile_append_of_pos h

theorem trimChars_blanks_append {value blanks : List Char}
    (h : ∀ c ∈ blanks, isWhitespace c = true) : trimChars (blanks ++ value) = trimChars value := by
  unfold trimChars
  rw [List.dropWhile_append_of_pos h]

/-- A text that neither starts nor ends with white space is left as it is. -/
theorem trimChars_of_ends {cs : List Char} (hhead : ∀ c ∈ cs.head?, isWhitespace c = false)
    (hlast : ∀ c ∈ cs.getLast?, isWhitespace c = false) : trimChars cs = cs := by
  have hfront : cs.dropWhile isWhitespace = cs := by
    cases cs with
    | nil => rfl
    | cons c rest => simp [hhead c rfl]
  rw [trimChars, hfront]
  exact rdropWhile_of_getLast? hlast

theorem trimChars_trimChars (value : List Char) : trimChars (trimChars value) = trimChars value :=
  trimChars_of_ends (fun _ => head?_trimChars) (fun _ => getLast?_trimChars)

/-- A text that keeps its length is not trimmed. -/
theorem trimChars_of_length {value : List Char} (h : value.length ≤ (trimChars value).length) :
    trimChars value = value := by
  obtain ⟨before, after, -, -, hvalue⟩ := exists_trimChars value
  have hlength := congrArg List.length hvalue
  simp only [List.length_append] at hlength
  have hbefore : before = [] := List.eq_nil_of_length_eq_zero (by omega)
  have hafter : after = [] := List.eq_nil_of_length_eq_zero (by omega)
  rw [hbefore, hafter, List.nil_append, List.append_nil] at hvalue
  exact hvalue.symm

end Cirrusync.Text
