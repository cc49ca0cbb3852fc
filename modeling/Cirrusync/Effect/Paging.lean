import Mathlib.Data.List.Basic
import Mathlib.Data.List.Range

/-!
A list served in pages of a fixed size, counted from one.
-/

namespace Paging

variable {α : Type}

def page (entries : List α) (size number : Nat) : List α :=
  (entries.drop ((number - 1) * size)).take size

/-- How many pages a list fills. -/
def pageCount (length size : Nat) : Nat := (length + size - 1) / size

theorem length_page (entries : List α) (size number : Nat) :
    (page entries size number).length =
      min size (entries.length - (number - 1) * size) := by
  simp [page]

/-- The pages up to one number are a prefix of the list. -/
theorem take_append_page (entries : List α) (size number : Nat) (hpos : 0 < number) :
    entries.take ((number - 1) * size) ++ page entries size number =
      entries.take (number * size) := by
  have hsplit : number * size = (number - 1) * size + size := by
    obtain ⟨n, rfl⟩ : ∃ n, number = n + 1 := ⟨number - 1, by omega⟩
    rw [Nat.add_sub_cancel, Nat.add_mul, Nat.one_mul]
  rw [hsplit, List.take_add]
  rfl

theorem lt_pageCount_iff (length size number : Nat) (hsize : 0 < size) :
    number < pageCount length size ↔ number * size < length := by
  unfold pageCount
  rw [Nat.lt_div_iff_mul_lt hsize]
  omega

theorem page_full_iff (entries : List α) (size number : Nat) (hsize : 0 < size)
    (hpos : 0 < number) :
    (page entries size number).length = size ↔ number * size ≤ entries.length := by
  have hsplit : number * size = (number - 1) * size + size := by
    obtain ⟨n, rfl⟩ : ∃ n, number = n + 1 := ⟨number - 1, by omega⟩
    rw [Nat.add_sub_cancel, Nat.add_mul, Nat.one_mul]
  rw [length_page, hsplit]
  omega

end Paging
