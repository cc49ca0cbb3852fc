import Mathlib.Algebra.Group.Nat.Defs
import Mathlib.Data.List.TakeWhile

/-!
What the scripts use of bash on texts: here-strings, `read` with a separator
that is not white space, and base-ten constants of shell arithmetic. A text is
its characters; none of the operations looks at a character other than the
separator, the line feed and the ASCII digits, so that the encoding of the
others is left open.
-/

namespace Cirrusync.Shell

/-- The line that `read -r` takes from `<<<text`. -/
def hereLine (text : List Char) : List Char := text.takeWhile (· != '\n')

/-- The first word of a line and what follows its separator. -/
def word (ifs : Char) : List Char → List Char × List Char
  | [] => ([], [])
  | c :: rest =>
      if c = ifs then ([], rest)
      else (c :: (word ifs rest).1, (word ifs rest).2)

/-- `IFS=ifs read -r` into a number of names: the last takes what is left,
without the separator at its end when it is a single word. -/
def readNames (ifs : Char) : Nat → List Char → List (List Char)
  | 0, _ => []
  | 1, line =>
      [if (word ifs line).2.isEmpty then (word ifs line).1 else line]
  | names + 2, line =>
      (word ifs line).1 :: readNames ifs (names + 1) (word ifs line).2

/-- `10#digits` in 64-bit arithmetic that wraps around; other texts are not
constants and leave the arithmetic command with an error. -/
def constant (digits : List Char) : Option (BitVec 64) :=
  if digits.isEmpty || !digits.all Char.isDigit then none
  else some (digits.foldl
    (fun value c => value * 10#64 + BitVec.ofNat 64 (c.toNat - '0'.toNat)) 0#64)

/-- `((left op right))`, false when a side is no constant. -/
def arithmetic (op : BitVec 64 → BitVec 64 → Bool) (left right : Option (BitVec 64)) : Bool :=
  match left, right with
  | some x, some y => op x y
  | _, _ => false

/-- The exit status of a command and what it prints. -/
structure Outcome where
  status : Nat
  output : List Char
deriving DecidableEq, Repr

theorem hereLine_eq {text : List Char} (h : '\n' ∉ text) : hereLine text = text := by
  unfold hereLine
  rw [List.takeWhile_eq_self_iff]
  intro c hc
  have hne : c ≠ '\n' := by
    rintro rfl
    exact h hc
  simpa using hne

theorem word_append {ifs : Char} {front rest : List Char} (h : ifs ∉ front) :
    word ifs (front ++ ifs :: rest) = (front, rest) := by
  induction front with
  | nil => simp [word]
  | cons c front ih =>
    simp only [List.mem_cons, not_or] at h
    simp [word, ih h.2, Ne.symm h.1]

theorem word_eq {ifs : Char} {text : List Char} (h : ifs ∉ text) : word ifs text = (text, []) := by
  induction text with
  | nil => rfl
  | cons c text ih =>
    simp only [List.mem_cons, not_or] at h
    simp [word, ih h.2, Ne.symm h.1]

/-- Digits that stay below 2^63 have their decimal value. -/
theorem constant_value {digits : List Char} (hne : digits ≠ [])
    (hdigits : ∀ c ∈ digits, c.isDigit = true) {value : Nat}
    (hvalue : value = Nat.ofDigitChars 10 digits 0) (hlt : value < 2 ^ 63) :
    ∃ x, constant digits = some x ∧ x.toInt = value := by
  have hfold : ∀ (cs : List Char) (n : Nat),
      cs.foldl (fun v c => v * 10#64 + BitVec.ofNat 64 (c.toNat - '0'.toNat))
        (BitVec.ofNat 64 n) = BitVec.ofNat 64 (Nat.ofDigitChars 10 cs n) := by
    intro cs
    induction cs with
    | nil => intro n; simp
    | cons c cs ih =>
      intro n
      rw [List.foldl_cons, Nat.ofDigitChars_cons, ← ih]
      congr 1
      apply BitVec.eq_of_toNat_eq
      simp [BitVec.toNat_add, BitVec.toNat_mul, Nat.mul_comm]
  have hall : digits.all Char.isDigit = true := by simpa using hdigits
  refine ⟨BitVec.ofNat 64 value, ?_, ?_⟩
  · rw [hvalue, ← hfold digits 0]
    simp [constant, hall, hne]
  · have hmod : value % 2 ^ 64 = value := Nat.mod_eq_of_lt (by omega)
    rw [BitVec.toInt_eq_toNat_of_lt (by rw [BitVec.toNat_ofNat, hmod]; omega),
      BitVec.toNat_ofNat, hmod]

end Cirrusync.Shell
