import Cirrusync.Daemon
import Mathlib.Order.Monotone.Defs

/-!
The arithmetic of the backoff against its formula over the natural numbers. The
exponent is clamped where the power is far beyond the cap, so that neither the
clamp nor the word size shows in a delay.
-/

namespace Cirrusync

/-- `value << exponent` of a `u64` that loses no bit. -/
def checkedShl (value exponent : Nat) : Option Nat :=
  if exponent < 64 ∧ value * 2 ^ exponent < 2 ^ 64 then some (value * 2 ^ exponent) else none

/-- A product that fits in a `u64`. -/
def checkedMul (a b : Nat) : Option Nat := if a * b < 2 ^ 64 then some (a * b) else none

/-- `calculate_backoff` with every shift and multiplication checked. -/
def checkedBackoff (consecutiveFailures initial maximum jitterPercent : Nat) : Option Nat := do
  let exponent := min (consecutiveFailures - 1) 31
  let multiplier ← checkedShl 1 exponent
  let uncappedSeconds ← checkedMul (initial / seconds 1) multiplier
  let cappedSeconds := min uncappedSeconds (maximum / seconds 1)
  let jitter := max 50 (min jitterPercent 100)
  let product ← checkedMul cappedSeconds jitter
  let jitteredSeconds := product / 100
  return seconds (min (max jitteredSeconds 1) (maximum / seconds 1))

/-- The delay in seconds, over the natural numbers. -/
def backoffSeconds (consecutiveFailures jitterPercent : Nat) : Nat :=
  min (5 * 2 ^ (max consecutiveFailures 1 - 1)) 300 * min (max jitterPercent 50) 100 / 100

/-- From an exponent of six on, the cap hides the power, and the clamp with it. -/
theorem capped_clamped (consecutiveFailures : Nat) :
    min (5 * 2 ^ min (consecutiveFailures - 1) 31) 300 =
      min (5 * 2 ^ (max consecutiveFailures 1 - 1)) 300 := by
  have hexponent : max consecutiveFailures 1 - 1 = consecutiveFailures - 1 := by omega
  rw [hexponent]
  by_cases hsmall : consecutiveFailures - 1 ≤ 31
  · rw [Nat.min_eq_left hsmall]
  · have hclamp : min (consecutiveFailures - 1) 31 = 31 := by omega
    have hpower : 2 ^ 31 ≤ 2 ^ (consecutiveFailures - 1) :=
      Nat.pow_le_pow_right (by omega) (by omega)
    rw [hclamp]
    omega

theorem capped_bounds (consecutiveFailures : Nat) :
    5 ≤ min (5 * 2 ^ (max consecutiveFailures 1 - 1)) 300 ∧
      min (5 * 2 ^ (max consecutiveFailures 1 - 1)) 300 ≤ 300 := by
  have hpositive : 1 ≤ 2 ^ (max consecutiveFailures 1 - 1) := Nat.one_le_two_pow
  omega

/-- No operation leaves the range of a `u64`. -/
theorem checkedBackoff_eq (consecutiveFailures jitterPercent : Nat) :
    checkedBackoff consecutiveFailures initialBackoff maxBackoff jitterPercent =
      some (seconds (backoffSeconds consecutiveFailures jitterPercent)) := by
  have hpower : 2 ^ min (consecutiveFailures - 1) 31 ≤ 2 ^ 31 :=
    Nat.pow_le_pow_right (by omega) (by omega)
  have hexponent : min (consecutiveFailures - 1) 31 < 64 := by omega
  have hshift : checkedShl 1 (min (consecutiveFailures - 1) 31) =
      some (2 ^ min (consecutiveFailures - 1) 31) := by
    rw [checkedShl, if_pos ⟨hexponent, by omega⟩, Nat.one_mul]
  have hinitial : initialBackoff / seconds 1 = 5 := rfl
  have hmaximum : maxBackoff / seconds 1 = 300 := rfl
  have hproduct : checkedMul 5 (2 ^ min (consecutiveFailures - 1) 31) =
      some (5 * 2 ^ min (consecutiveFailures - 1) 31) := by
    rw [checkedMul, if_pos (by omega)]
  obtain ⟨hlow, hhigh⟩ := capped_bounds consecutiveFailures
  have hjitter : max 50 (min jitterPercent 100) = min (max jitterPercent 50) 100 := by omega
  have hjitterBounds : 50 ≤ min (max jitterPercent 50) 100 ∧
      min (max jitterPercent 50) 100 ≤ 100 := by omega
  simp only [checkedBackoff, hshift, hinitial, hmaximum, Option.bind_eq_bind, Option.bind_some,
    hproduct, capped_clamped, hjitter, backoffSeconds]
  generalize min (5 * 2 ^ (max consecutiveFailures 1 - 1)) 300 = capped at *
  generalize min (max jitterPercent 50) 100 = jitter at *
  have hlower : 5 * 50 ≤ capped * jitter := Nat.mul_le_mul hlow hjitterBounds.1
  have hupper : capped * jitter ≤ 300 * 100 := Nat.mul_le_mul hhigh hjitterBounds.2
  have hclamped : min (max (capped * jitter / 100) 1) 300 = capped * jitter / 100 := by omega
  rw [checkedMul, if_pos (by omega), Option.bind_some, hclamped]
  rfl

/-- Where the checked operations give a value, the code's operations give it. -/
theorem calculateBackoff_of_checked {consecutiveFailures initial maximum jitterPercent : Nat}
    {delay : Nat}
    (h : checkedBackoff consecutiveFailures initial maximum jitterPercent = some delay) :
    calculateBackoff consecutiveFailures initial maximum jitterPercent = delay := by
  simp only [checkedBackoff, checkedShl, checkedMul, Option.bind_eq_bind,
    Option.bind_eq_some_iff, Option.ite_none_right_eq_some, Option.some.injEq, Nat.one_mul] at h
  obtain ⟨_, ⟨⟨-, hshift⟩, rfl⟩, _, ⟨hproduct, rfl⟩, _, ⟨hjittered, rfl⟩, hdelay⟩ := h
  have hmax : ∀ value : Nat, value < 2 ^ 64 → min value (2 ^ 64 - 1) = value := by omega
  simp only [calculateBackoff, Nat.mod_eq_of_lt hshift, hmax _ hproduct, hmax _ hjittered]
  exact Option.some.inj hdelay

theorem backoffDelay_eq (consecutiveFailures jitterPercent : Nat) :
    backoffDelay consecutiveFailures jitterPercent =
      seconds (backoffSeconds consecutiveFailures jitterPercent) :=
  calculateBackoff_of_checked (checkedBackoff_eq consecutiveFailures jitterPercent)

theorem seconds_mono {m n : Nat} (h : m ≤ n) : seconds m ≤ seconds n := Nat.mul_le_mul_right _ h

/-- The delay of the backoff is between two seconds and the maximum. -/
theorem backoffDelay_bounds (consecutiveFailures jitterPercent : Nat) :
    seconds 2 ≤ backoffDelay consecutiveFailures jitterPercent ∧
      backoffDelay consecutiveFailures jitterPercent ≤ maxBackoff := by
  obtain ⟨hlow, hhigh⟩ := capped_bounds consecutiveFailures
  have hjitter : 50 ≤ min (max jitterPercent 50) 100 ∧
      min (max jitterPercent 50) 100 ≤ 100 := by omega
  have hlower := Nat.mul_le_mul hlow hjitter.1
  have hupper := Nat.mul_le_mul hhigh hjitter.2
  have hseconds : 2 ≤ backoffSeconds consecutiveFailures jitterPercent ∧
      backoffSeconds consecutiveFailures jitterPercent ≤ 300 := by
    unfold backoffSeconds
    omega
  rw [backoffDelay_eq]
  exact ⟨seconds_mono hseconds.1, seconds_mono hseconds.2⟩

/-- More failures and more jitter never shorten the delay: flooring keeps the order. -/
theorem backoffSeconds_mono {failures failures' jitter jitter' : Nat} (hn : failures ≤ failures')
    (hj : jitter ≤ jitter') :
    backoffSeconds failures jitter ≤ backoffSeconds failures' jitter' := by
  have hpower : 2 ^ (max failures 1 - 1) ≤ 2 ^ (max failures' 1 - 1) :=
    Nat.pow_le_pow_right (by omega) (by omega)
  have hcapped : min (5 * 2 ^ (max failures 1 - 1)) 300 ≤
      min (5 * 2 ^ (max failures' 1 - 1)) 300 := by omega
  have hclamped : min (max jitter 50) 100 ≤ min (max jitter' 50) 100 := by omega
  exact Nat.div_le_div_right (Nat.mul_le_mul hcapped hclamped)

/-- The delay is exact: nothing overflows or saturates, the value is that of the
formula, it lies between two and 300 seconds and grows with both arguments. -/
theorem backoffDelay_exact (consecutiveFailures jitterPercent : Nat) :
    checkedBackoff consecutiveFailures initialBackoff maxBackoff jitterPercent =
        some (backoffDelay consecutiveFailures jitterPercent) ∧
      backoffDelay consecutiveFailures jitterPercent =
        seconds (min (5 * 2 ^ (max consecutiveFailures 1 - 1)) 300 *
          min (max jitterPercent 50) 100 / 100) ∧
      seconds 2 ≤ backoffDelay consecutiveFailures jitterPercent ∧
      backoffDelay consecutiveFailures jitterPercent ≤ seconds 300 ∧
      Monotone (fun failures => backoffDelay failures jitterPercent) ∧
      Monotone (fun jitter => backoffDelay consecutiveFailures jitter) := by
  have hchecked := checkedBackoff_eq consecutiveFailures jitterPercent
  have hexact := backoffDelay_eq consecutiveFailures jitterPercent
  obtain ⟨hlow, hhigh⟩ := backoffDelay_bounds consecutiveFailures jitterPercent
  rw [← hexact] at hchecked
  refine ⟨hchecked, hexact, hlow, hhigh, ?_, ?_⟩
  · intro failures failures' h
    simp only [backoffDelay_eq]
    exact seconds_mono (backoffSeconds_mono h (Nat.le_refl _))
  · intro jitter jitter' h
    simp only [backoffDelay_eq]
    exact seconds_mono (backoffSeconds_mono (Nat.le_refl _) h)

end Cirrusync
