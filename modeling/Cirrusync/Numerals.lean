import Mathlib.Algebra.Group.Nat.Defs
import Mathlib.Data.List.Basic
import Mathlib.Tactic.Common

/-!
Numbers in digits. What is true of the digits of a base is true of every character that a
number is printed with, and decimal digits without a leading zero are read and printed as they
are.
-/

namespace Numerals

/-! ## What a number is printed with -/

/-- A property of the digits of a base is one of all the characters of a printed number. -/
theorem forall_mem_toDigits {b : Nat} (hb : 1 < b) {p : Char → Prop}
    (hdigits : ∀ d < b, p (Nat.digitChar d)) (n : Nat) : ∀ c ∈ Nat.toDigits b n, p c := by
  induction n using Nat.strongRecOn with
  | _ n ih =>
      intro c hc
      rw [Nat.toDigits_eq_if hb] at hc
      split at hc
      · next hlt =>
          obtain rfl := List.mem_singleton.mp hc
          exact hdigits n hlt
      · next hge =>
          rcases List.mem_append.mp hc with hrest | hlast
          · exact ih (n / b) (Nat.div_lt_self (by omega) hb) c hrest
          · obtain rfl := List.mem_singleton.mp hlast
            exact hdigits (n % b) (Nat.mod_lt n (by omega))

/-- A character that is no digit of the base is in no printed number. -/
theorem notMem_toDigits {b : Nat} (hb : 1 < b) {c : Char} (hc : ∀ d < b, Nat.digitChar d ≠ c)
    (n : Nat) : c ∉ Nat.toDigits b n := by
  intro member
  have hothers : ∀ other ∈ Nat.toDigits b n, other ≠ c := forall_mem_toDigits hb hc n
  exact hothers c member rfl

theorem toDigits_isDigit {n : Nat} : ∀ c ∈ Nat.toDigits 10 n, c.isDigit = true :=
  fun _ hc => Nat.isDigit_of_mem_toDigits (by decide) (by decide) hc

theorem toDigits_head {n : Nat} (hn : 0 < n) :
    ∃ d rest, Nat.toDigits 10 n = d :: rest ∧ d ≠ '0' := by
  induction n using Nat.strongRecOn with
  | _ n ih =>
    by_cases hlt : n < 10
    · refine ⟨n.digitChar, [], Nat.toDigits_of_lt_base hlt, ?_⟩
      rw [Ne, Nat.digitChar_eq_zero]
      omega
    · obtain ⟨d, rest, hd, hne⟩ := ih (n / 10) (by omega) (by omega)
      rw [Nat.toDigits_of_base_le (by decide) (by omega), hd]
      exact ⟨d, rest ++ _, List.cons_append, hne⟩

/-! ## What is read -/

theorem digitChar_of_isDigit {c : Char} (h : c.isDigit = true) :
    c.toNat - '0'.toNat < 10 ∧ Nat.digitChar (c.toNat - '0'.toNat) = c := by
  have hrange : 48 ≤ c.toNat ∧ c.toNat ≤ 57 := by
    simpa [Char.isDigit, UInt32.le_iff_toNat_le] using h
  have hlt : c.toNat - '0'.toNat < 10 := by
    have : '0'.toNat = 48 := rfl
    omega
  refine ⟨hlt, Char.toNat_inj.mp ?_⟩
  rw [Nat.toNat_digitChar_of_lt_ten hlt]
  have : '0'.toNat = 48 := rfl
  omega

/-- Reading further digits onto a positive number and printing it puts them
behind the number's own. -/
theorem toDigits_ofDigitChars {digits : List Char} (h : ∀ c ∈ digits, c.isDigit = true)
    {n : Nat} (hn : 0 < n) :
    Nat.toDigits 10 (Nat.ofDigitChars 10 digits n) = Nat.toDigits 10 n ++ digits := by
  induction digits generalizing n with
  | nil => simp
  | cons c digits ih =>
    obtain ⟨hlt, hc⟩ := digitChar_of_isDigit (h c List.mem_cons_self)
    have happ := Nat.toDigits_append_toDigits (by decide) hn hlt
    rw [Nat.toDigits_of_lt_base hlt, hc] at happ
    rw [Nat.ofDigitChars_cons, ih (fun d hd => h d (List.mem_cons_of_mem c hd)) (by omega),
      ← happ, List.append_assoc, List.singleton_append]

theorem toDigits_ofDigitChars_self {text : List Char} (hne : text ≠ [])
    (hdigits : ∀ c ∈ text, c.isDigit = true) (hhead : text.head? ≠ some '0') :
    Nat.toDigits 10 (Nat.ofDigitChars 10 text 0) = text := by
  obtain ⟨c, rest, rfl⟩ := List.exists_cons_of_ne_nil hne
  obtain ⟨hlt, hchar⟩ := digitChar_of_isDigit (hdigits c List.mem_cons_self)
  have hpos : 0 < c.toNat - '0'.toNat := by
    rcases Nat.eq_zero_or_pos (c.toNat - '0'.toNat) with hzero | hpos
    · rw [hzero] at hchar
      refine absurd ?_ hhead
      rw [← hchar]
      rfl
    · exact hpos
  have htext := toDigits_ofDigitChars (fun d hd => hdigits d (List.mem_cons_of_mem c hd)) hpos
  rw [Nat.toDigits_of_lt_base hlt, hchar] at htext
  rw [Nat.ofDigitChars_cons, Nat.mul_zero, Nat.zero_add]
  exact htext

/-- Digits that are read onto a number bring it below the next power. -/
theorem ofDigitChars_lt {digits : List Char} (h : ∀ c ∈ digits, c.isDigit = true) (n : Nat) :
    Nat.ofDigitChars 10 digits n < (n + 1) * 10 ^ digits.length := by
  induction digits generalizing n with
  | nil => simp
  | cons c digits ih =>
    have hrest := ih (fun d hd => h d (List.mem_cons_of_mem c hd)) (10 * n + (c.toNat - '0'.toNat))
    have hdigit : c.toNat ≤ 57 := by
      have hc := h c List.mem_cons_self
      simp only [Char.isDigit, Bool.and_eq_true, decide_eq_true_eq] at hc
      exact UInt32.le_iff_toNat_le.mp hc.2
    have hzero : '0'.toNat = 48 := rfl
    rw [Nat.ofDigitChars_cons, List.length_cons, Nat.pow_succ]
    calc
      _ < (10 * n + (c.toNat - '0'.toNat) + 1) * 10 ^ digits.length := hrest
      _ ≤ ((n + 1) * 10) * 10 ^ digits.length := Nat.mul_le_mul_right _ (by omega)
      _ = (n + 1) * (10 ^ digits.length * 10) := by rw [Nat.mul_assoc, Nat.mul_comm 10]

end Numerals
