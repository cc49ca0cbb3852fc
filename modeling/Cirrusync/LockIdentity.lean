import Cirrusync.RuntimeLock

/-!
The lock files of a configuration. `for_config` sorts the hashes of the records
and removes repetitions, so that the lock files come in strictly increasing
order of hash and none twice; records of one zone, type and name share one.
-/

namespace Cirrusync

open Text

namespace Text

theorem hexDigit_injective {m n : Nat} (hm : m < 16) (hn : n < 16)
    (h : hexDigit m = hexDigit n) : m = n := by
  have hall : ∀ a < 16, ∀ b < 16, hexDigit a = hexDigit b → a = b := by decide
  exact hall m hm n hn h

/-- Numbers agree below `b ^ k` when their first `k` digits to the base `b` do. -/
theorem mod_pow_eq_of_digits {b : Nat} {m n : Nat} (k : Nat)
    (h : ∀ j < k, m / b ^ j % b = n / b ^ j % b) : m % b ^ k = n % b ^ k := by
  induction k with
  | zero => simp [Nat.mod_one]
  | succ k ih =>
      have hlast := h k (by omega)
      have hrest := ih (fun j hj => h j (by omega))
      rw [Nat.mod_pow_succ, Nat.mod_pow_succ, hlast, hrest]

theorem hex16_injective {m n : UInt64} (h : hex16 m = hex16 n) : m = n := by
  unfold hex16 at h
  rw [String.ofList_inj, List.map_inj_left] at h
  have hdigits : ∀ j < 16, m.toNat / 16 ^ j % 16 = n.toNat / 16 ^ j % 16 := by
    intro j hj
    have hdigit := h (15 - j) (List.mem_range.mpr (by omega))
    have hindex : 15 - (15 - j) = j := by omega
    rw [hindex] at hdigit
    exact hexDigit_injective (Nat.mod_lt _ (by omega)) (Nat.mod_lt _ (by omega)) hdigit
  have hmod := mod_pow_eq_of_digits 16 hdigits
  have hm := m.toNat_lt
  have hn := n.toNat_lt
  apply UInt64.toNat_inj.mp
  rwa [Nat.mod_eq_of_lt (by omega), Nat.mod_eq_of_lt (by omega)] at hmod

end Text

namespace RuntimeLockIdentity

theorem lockPath_injective {parent : String} {m n : UInt64}
    (h : lockPath parent m = lockPath parent n) : m = n := by
  apply hex16_injective
  rw [← String.toList_inj] at h ⊢
  unfold lockPath joinPath at h
  split at h <;> simpa [toString] using h

theorem mem_dedupFrom_iff (last hash : UInt64) (hashes : List UInt64) :
    hash ∈ last :: dedupFrom last hashes ↔ hash ∈ last :: hashes := by
  induction hashes generalizing last with
  | nil => rfl
  | cons first rest ih =>
      by_cases hsame : first = last
      · subst hsame
        simp [dedupFrom, ih]
      · simp only [dedupFrom, hsame, if_false]
        rw [List.mem_cons, ih first, ← List.mem_cons]

/-- From a sorted list, what `dedup` keeps is strictly increasing. -/
theorem sorted_dedupFrom (last : UInt64) (hashes : List UInt64)
    (hsorted : (last :: hashes).Pairwise (· ≤ ·)) :
    (last :: dedupFrom last hashes).Pairwise (· < ·) := by
  induction hashes generalizing last with
  | nil => exact List.pairwise_singleton _ _
  | cons first rest ih =>
      obtain ⟨hlast, hrest⟩ := List.pairwise_cons.mp hsorted
      by_cases hsame : first = last
      · subst hsame
        simpa [dedupFrom] using ih first hrest
      · simp only [dedupFrom, hsame, if_false]
        have htail := ih first hrest
        have hless : last < first :=
          UInt64.lt_of_le_of_ne (hlast first List.mem_cons_self) (Ne.symm hsame)
        refine List.pairwise_cons.mpr ⟨fun hash member => ?_, htail⟩
        rcases List.mem_cons.mp member with rfl | member
        · exact hless
        · exact UInt64.lt_trans hless ((List.pairwise_cons.mp htail).1 hash member)

theorem sorted_dedup (hashes : List UInt64) (hsorted : hashes.Pairwise (· ≤ ·)) :
    (dedup hashes).Pairwise (· < ·) := by
  cases hashes with
  | nil => exact List.Pairwise.nil
  | cons hash rest => exact sorted_dedupFrom hash rest hsorted

theorem mem_dedup_iff (hash : UInt64) (hashes : List UInt64) :
    hash ∈ dedup hashes ↔ hash ∈ hashes := by
  cases hashes with
  | nil => rfl
  | cons first rest => exact mem_dedupFrom_iff first hash rest

/-- The hashes of an identity come in strictly increasing order. -/
theorem sorted_forConfig (installed : Bool) (temporaryLockRoot : String)
    (config : Config) :
    (forConfig installed temporaryLockRoot config).resourceHashes.Pairwise (· < ·) :=
  sorted_dedup _ (List.pairwise_insertionSort (· ≤ ·) (config.records.map resourceLockHash))

theorem mem_forConfig_iff (installed : Bool) (temporaryLockRoot : String)
    (config : Config) (hash : UInt64) :
    hash ∈ (forConfig installed temporaryLockRoot config).resourceHashes ↔
      ∃ record ∈ config.records, resourceLockHash record = hash := by
  unfold forConfig
  rw [mem_dedup_iff, List.mem_insertionSort, List.mem_map]

theorem resourceHashes_ne_nil {installed : Bool} {temporaryLockRoot : String}
    {config : Config} (hrecords : config.records ≠ []) :
    (forConfig installed temporaryLockRoot config).resourceHashes ≠ [] := by
  obtain ⟨record, member⟩ := List.exists_mem_of_ne_nil _ hrecords
  exact List.ne_nil_of_mem
    ((mem_forConfig_iff installed temporaryLockRoot config _).mpr ⟨record, member, rfl⟩)

end RuntimeLockIdentity

/-- One resource in two configurations has one lock file. -/
theorem resourceLockHash_congr {record record' : RecordConfig}
    (hzone : canonicalLockName record.zone = canonicalLockName record'.zone)
    (htype : record.recordType = record'.recordType)
    (hname : canonicalLockName record.name = canonicalLockName record'.name) :
    resourceLockHash record = resourceLockHash record' := by
  unfold resourceLockHash resourceIdentity
  rw [hzone, htype, hname]

end Cirrusync
