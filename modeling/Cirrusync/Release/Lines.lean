import Mathlib.Data.Bool.AllAny
import Mathlib.Data.List.DropRight
import Mathlib.Tactic.Common

/-!
Lines of a text with their ends, as `str.splitlines(keepends=True)` of Python
gives them, and what it means for the lines that one of them is edited: an edit
that keeps clear of the line's ends and adds no boundary changes that line only.
-/

namespace Cirrusync.Python

/-- The characters at which a line ends; a carriage return and a line feed
together are one end. -/
def isLineBoundary (c : Char) : Bool :=
  c ∈ ['\n', '\r', '\x0b', '\x0c', '\x1c', '\x1d', '\x1e', '\u0085', '\u2028', '\u2029']

/-- What `str.strip` takes away. -/
def isSpace (c : Char) : Bool :=
  let n := c.toNat
  (9 ≤ n && n ≤ 13) || (0x1c ≤ n && n ≤ 0x20) || n == 0x85 || n == 0xa0 || n == 0x1680 ||
    (0x2000 ≤ n && n ≤ 0x200a) || n == 0x2028 || n == 0x2029 || n == 0x202f ||
    n == 0x205f || n == 0x3000

def lstrip (s : List Char) : List Char := s.dropWhile isSpace

def strip (s : List Char) : List Char := (lstrip s).rdropWhile isSpace

/-- A character in front of the lines of what follows it. -/
def consLine (c : Char) : List (List Char) → List (List Char)
  | [] => [[c]]
  | line :: lines => (c :: line) :: lines

/-- `splitlines(keepends=True)`. -/
def splitlines : List Char → List (List Char)
  | [] => []
  | '\r' :: '\n' :: rest => ['\r', '\n'] :: splitlines rest
  | c :: rest => if isLineBoundary c then [c] :: splitlines rest else consLine c (splitlines rest)

theorem splitlines_crlf (rest : List Char) :
    splitlines ('\r' :: '\n' :: rest) = ['\r', '\n'] :: splitlines rest := rfl

theorem splitlines_boundary {c : Char} {rest : List Char} (hc : isLineBoundary c = true)
    (hrest : c = '\r' → rest.head? ≠ some '\n') :
    splitlines (c :: rest) = [c] :: splitlines rest := by
  rw [splitlines, if_pos hc]
  rintro tail hcr rfl
  exact hrest hcr rfl

theorem splitlines_plain {c : Char} {rest : List Char} (hc : isLineBoundary c = false) :
    splitlines (c :: rest) = consLine c (splitlines rest) := by
  rw [splitlines, if_neg (by simp [hc])]
  rintro tail rfl
  simp [isLineBoundary] at hc

/-- A text by what stands at its front: nothing, the two characters of one line
end, one boundary, or another character. -/
theorem lines_induction {motive : List Char → Prop} (nil : motive [])
    (crlf : ∀ rest, motive rest → motive ('\r' :: '\n' :: rest))
    (boundary : ∀ c rest, isLineBoundary c = true → (c = '\r' → rest.head? ≠ some '\n') →
      motive rest → motive (c :: rest))
    (plain : ∀ c rest, isLineBoundary c = false → motive rest → motive (c :: rest))
    (text : List Char) : motive text := by
  induction text using splitlines.induct with
  | case1 => exact nil
  | case2 rest ih => exact crlf rest ih
  | case3 c rest hrest hc ih =>
    refine boundary c rest hc ?_ ih
    rintro rfl hhead
    obtain ⟨tail, rfl⟩ := List.head?_eq_some_iff.mp hhead
    exact hrest tail rfl rfl
  | case4 c rest _ hc ih => exact plain c rest (by simpa using hc) ih

theorem consLine_flatten (c : Char) (lines : List (List Char)) :
    (consLine c lines).flatten = c :: lines.flatten := by
  cases lines <;> rfl

theorem splitlines_flatten (text : List Char) : (splitlines text).flatten = text := by
  induction text using lines_induction with
  | nil => rfl
  | crlf rest ih => rw [splitlines_crlf, List.flatten_cons, ih]; rfl
  | boundary c rest hc hrest ih =>
    rw [splitlines_boundary hc hrest, List.flatten_cons, ih]
    rfl
  | plain c rest hc ih => rw [splitlines_plain hc, consLine_flatten, ih]

/-- Plain characters in front of a text are in front of its first line. -/
theorem splitlines_plain_append {front : List Char} (hne : front ≠ [])
    (hfront : ∀ c ∈ front, isLineBoundary c = false) (rest : List Char) :
    splitlines (front ++ rest) =
      (front ++ ((splitlines rest).head?.getD [])) :: (splitlines rest).tail := by
  induction front with
  | nil => exact absurd rfl hne
  | cons c front ih =>
    rw [List.cons_append, splitlines_plain (hfront c List.mem_cons_self)]
    cases front with
    | nil =>
      rw [List.nil_append]
      cases splitlines rest <;> rfl
    | cons d front =>
      rw [ih (by simp) (fun e he => hfront e (List.mem_cons_of_mem c he))]
      rfl

/-- Editing a line behind its first character leaves the first character of
the text. -/
theorem flatten_set_head {c : Char} {line line' : List Char} {lines : List (List Char)} {i : Nat}
    (h : lines[i]? = some (c :: line)) :
    (lines.set i (c :: line')).flatten.head? = lines.flatten.head? := by
  induction lines generalizing i with
  | nil => cases h
  | cons first lines ih =>
    cases i with
    | zero =>
      rw [List.getElem?_cons_zero, Option.some.injEq] at h
      simp [h]
    | succ i =>
      rw [List.getElem?_cons_succ] at h
      cases first with
      | nil => simpa using ih h
      | cons d first => simp

section

variable {before old new after : List Char} (hbefore : before ≠ [])
  (hplain : ∀ c ∈ before, isLineBoundary c = false)
  (hold : ∀ c ∈ old, isLineBoundary c = false) (hnew : ∀ c ∈ new, isLineBoundary c = false)

include hbefore hplain hold hnew

/-- A text in whose first line a part is replaced, with no line boundary up to the end of that
part, splits into the same lines but for that one. -/
theorem splitlines_set_first {text : List Char}
    (hline : (splitlines text)[0]? = some (before ++ old ++ after)) :
    splitlines ((splitlines text).set 0 (before ++ new ++ after)).flatten =
      (splitlines text).set 0 (before ++ new ++ after) := by
  obtain ⟨lines, h⟩ : ∃ lines, splitlines text = (before ++ old ++ after) :: lines := by
    cases hlines : splitlines text with
    | nil =>
      rw [hlines] at hline
      cases hline
    | cons line lines =>
      rw [hlines, List.getElem?_cons_zero, Option.some.injEq] at hline
      exact ⟨lines, by rw [hline]⟩
  have hplains : ∀ {middle : List Char}, (∀ c ∈ middle, isLineBoundary c = false) →
      ∀ c ∈ before ++ middle, isLineBoundary c = false := by
    intro middle hmiddle c hc
    rcases List.mem_append.mp hc with hc | hc
    · exact hplain c hc
    · exact hmiddle c hc
  have hne : ∀ middle, before ++ middle ≠ [] := by
    intro middle h
    exact hbefore (List.append_eq_nil_iff.mp h).1
  have htext : text = before ++ old ++ (after ++ lines.flatten) := by
    rw [← splitlines_flatten text, h, List.flatten_cons]
    simp only [List.append_assoc]
  have hsplit := h
  rw [htext, splitlines_plain_append (hne old) (hplains hold)] at hsplit
  obtain ⟨hhead, htail⟩ := List.cons.inj hsplit
  have hafter := List.append_cancel_left hhead
  rw [h, List.set_cons_zero, List.flatten_cons, List.append_assoc (before ++ new),
    splitlines_plain_append (hne new) (hplains hnew), htail, hafter]

/-- An edit inside one line, in front of its end, is an edit of that line only. -/
theorem splitlines_set {text : List Char} {i : Nat}
    (hline : (splitlines text)[i]? = some (before ++ old ++ after)) :
    splitlines ((splitlines text).set i (before ++ new ++ after)).flatten =
      (splitlines text).set i (before ++ new ++ after) := by
  induction text using lines_induction generalizing i with
  | nil => cases hline
  | crlf rest ih =>
    cases i with
    | zero => exact splitlines_set_first hbefore hplain hold hnew hline
    | succ i =>
      rw [splitlines_crlf, List.getElem?_cons_succ] at hline
      rw [splitlines_crlf, List.set_cons_succ, List.flatten_cons]
      exact (splitlines_crlf _).trans (congrArg _ (ih hline))
  | boundary c rest hc hrest ih =>
    cases i with
    | zero => exact splitlines_set_first hbefore hplain hold hnew hline
    | succ i =>
      rw [splitlines_boundary hc hrest, List.getElem?_cons_succ] at hline
      obtain ⟨d, front, rfl⟩ := List.exists_cons_of_ne_nil hbefore
      have hhead : ((splitlines rest).set i (d :: (front ++ new ++ after))).flatten.head? =
          (splitlines rest).flatten.head? := flatten_set_head hline
      rw [splitlines_boundary hc hrest, List.set_cons_succ, List.flatten_cons,
        List.singleton_append, splitlines_boundary hc ?_, ih hline]
      rw [splitlines_flatten] at hhead
      rw [List.cons_append, List.cons_append, hhead]
      exact hrest
  | plain c rest hc ih =>
    cases i with
    | zero => exact splitlines_set_first hbefore hplain hold hnew hline
    | succ i =>
      rw [splitlines_plain hc] at hline ⊢
      cases hlines : splitlines rest with
      | nil =>
        rw [hlines, consLine] at hline
        cases hline
      | cons line lines =>
        rw [hlines, consLine, List.getElem?_cons_succ] at hline
        have hset := ih (i := i + 1) (by rw [hlines, List.getElem?_cons_succ, hline])
        rw [hlines, List.set_cons_succ] at hset
        rw [consLine, List.set_cons_succ, List.flatten_cons, List.cons_append,
          splitlines_plain hc, ← List.flatten_cons, hset, consLine]

end

end Cirrusync.Python
