import Cirrusync.LockFiles
import Cirrusync.Numerals

/-!
The paths that the runtime locks use, name by name. The directory for the lock files, the
lock files in it and the ownership probes have plain names, and no lock file has the name
of a probe.
-/

namespace Cirrusync.LockFiles

open Effect Files FileSystem Numerals RuntimeLockIdentity Text

theorem slash_notMem_padded (width n : Nat) : '/' ∉ (padded 16 width n).toList := by
  have hdigits : '/' ∉ Nat.toDigits 16 n := notMem_toDigits (by decide) (by decide) n
  simp [padded, List.leftpad, hdigits]

theorem slash_notMem_toString (n : Nat) : '/' ∉ (toString n).toList := by
  rw [Nat.toString_eq_ofList_toDigits, String.toList_ofList]
  exact notMem_toDigits (by decide) (by decide) n

theorem slash_notMem_hex16 (n : UInt64) : '/' ∉ (hex16 n).toList := by
  have hdigit : ∀ d < 16, '/' ≠ hexDigit d := by decide
  simp only [hex16, String.toList_ofList, List.mem_map, not_exists, not_and]
  intro j _
  exact (hdigit _ (Nat.mod_lt _ (by omega))).symm

/-! Names. -/

theorem slash_notMem_append {front rest : String} (hfront : '/' ∉ front.toList)
    (hrest : '/' ∉ rest.toList) : '/' ∉ (front ++ rest).toList := by
  rw [String.toList_append, List.mem_append]
  exact fun member => member.elim hfront hrest

theorem plain_append {front rest : String} (h : PlainName front) (hrest : '/' ∉ rest.toList) :
    PlainName (front ++ rest) where
  nonempty := by
    rw [String.toList_append]
    exact List.append_ne_nil_of_left_ne_nil h.nonempty _
  plain := slash_notMem_append h.plain hrest

theorem probeName_plain (processId timestamp sequence attempt : Nat) :
    PlainName (probeName processId timestamp sequence attempt) := by
  have hstart : PlainName ".cirrusync-owner-" := ⟨by decide, by decide⟩
  have hdash : '/' ∉ "-".toList := by decide
  have hpid := plain_append hstart (slash_notMem_toString processId)
  have htime := plain_append (plain_append hpid hdash)
    (slash_notMem_padded 32 timestamp)
  have hsequence := plain_append (plain_append htime hdash)
    (slash_notMem_padded 16 sequence)
  exact plain_append (plain_append hsequence hdash)
    (slash_notMem_padded 2 attempt)

/-- The name of the directory for the lock files of a user. -/
def runtimeDirectory (owner : Nat) : String := s!"cirrusync-runtime-{owner}"

theorem runtimeDirectory_plain (owner : Nat) : PlainName (runtimeDirectory owner) := by
  have hstart : PlainName "cirrusync-runtime-" := ⟨by decide, by decide⟩
  exact plain_append hstart (slash_notMem_toString owner)

def lockName (hash : UInt64) : String := s!"record-{hex16 hash}.lock"

theorem lockName_plain (hash : UInt64) : PlainName (lockName hash) := by
  have hstart : PlainName "record-" := ⟨by decide, by decide⟩
  exact plain_append (plain_append hstart (slash_notMem_hex16 hash)) (by decide)

/-- The names of the files that are removed again. -/
def IsProbeName (name : String) : Prop :=
  ∃ processId timestamp sequence attempt, name = probeName processId timestamp sequence attempt

theorem head?_append {front rest : String} {c : Char} (h : front.toList.head? = some c) :
    (front ++ rest).toList.head? = some c := by
  rw [String.toList_append, List.head?_append, h]
  rfl

theorem IsProbeName.head {name : String} (h : IsProbeName name) :
    name.toList.head? = some '.' := by
  obtain ⟨processId, timestamp, sequence, attempt, rfl⟩ := h
  have hstart : ".cirrusync-owner-".toList.head? = some '.' := by decide
  exact head?_append (head?_append (head?_append (head?_append (head?_append
    (head?_append (head?_append hstart))))))

theorem lockName_head (hash : UInt64) : (lockName hash).toList.head? = some 'r' := by
  have hstart : "record-".toList.head? = some 'r' := by decide
  exact head?_append (head?_append hstart)

theorem lockName_lasting (hash : UInt64) : ¬ IsProbeName (lockName hash) := by
  intro h
  have hhead := lockName_head hash
  rw [h.head] at hhead
  cases hhead

theorem runtimeDirectory_lasting (owner : Nat) : ¬ IsProbeName (runtimeDirectory owner) := by
  intro h
  have hstart : "cirrusync-runtime-".toList.head? = some 'c' := by decide
  have hhead : (runtimeDirectory owner).toList.head? = some 'c' := head?_append hstart
  rw [h.head] at hhead
  cases hhead

/-! Joined paths. -/

/-- A slash at the end of a path adds nothing to it. -/
theorem components_slash (path : String) : components (path ++ "/") = components path := by
  have hsplit : (path ++ "/").toList.splitOn '/' = path.toList.splitOn '/' ++ [[]] := by
    have hchars : (path ++ "/").toList = path.toList ++ '/' :: [] := by
      rw [String.toList_append]
      rfl
    rw [hchars, List.splitOn_append_cons_self]
    rfl
  unfold components
  rw [hsplit, List.filter_append]
  simp

theorem components_joinPath (parent : String) {name : String} (h : PlainName name) :
    components (joinPath parent name) = components parent ++ [name] := by
  unfold joinPath
  split
  · next hroot =>
      rw [Bool.or_eq_true, List.isEmpty_iff, beq_iff_eq] at hroot
      rcases hroot with hempty | hlast
      · rw [String.toList_eq_nil_iff.mp hempty, String.empty_append]
        unfold components
        rw [List.splitOn_eq_singleton h.plain]
        simp [h.nonempty]
      · obtain ⟨front, hfront⟩ := List.getLast?_eq_some_iff.mp hlast
        have hparent : parent = String.ofList front ++ "/" := by
          rw [← String.toList_inj, hfront, String.toList_append, String.toList_ofList]
          rfl
        rw [hparent, components_under _ h, components_slash]
  · exact components_under parent h

/-- A plain name ends in no slash, also behind a path. -/
theorem slashed_append (front : String) {name : String} (h : PlainName name) :
    (route (front ++ name)).slashed = false := by
  change ((front ++ name).toList.getLast? == some '/') = false
  rw [String.toList_append, List.getLast?_append, beq_eq_false_iff_ne]
  intro hlast
  obtain ⟨last, hname⟩ := Option.ne_none_iff_exists'.mp
    (fun hnone => h.nonempty (List.getLast?_eq_none_iff.mp hnone))
  rw [hname, Option.some_or, Option.some.injEq] at hlast
  rw [hlast] at hname
  exact h.plain (List.mem_of_getLast? hname)

/-- A joined path starts where its first part does. -/
theorem absolute_joinPath (parent : String) {name : String} (h : PlainName name) :
    (route (joinPath parent name)).absolute = (route parent).absolute := by
  change ((joinPath parent name).toList.head? == some '/') = (parent.toList.head? == some '/')
  have hplain : (name.toList.head? == some '/') = false := by
    rw [beq_eq_false_iff_ne]
    exact fun hhead => h.plain (List.mem_of_mem_head? hhead)
  unfold joinPath
  cases hparent : parent.toList with
  | nil => simp [String.toList_append, hparent, hplain]
  | cons first rest => split <;> simp [String.toList_append, hparent]

theorem route_joinPath (parent : String) {name : String} (h : PlainName name) :
    route (joinPath parent name) = (route parent).join name := by
  have hslashed : (route (joinPath parent name)).slashed = false := by
    unfold joinPath
    split <;> exact slashed_append _ h
  rw [show route (joinPath parent name) = ⟨(route (joinPath parent name)).absolute,
    components (joinPath parent name), (route (joinPath parent name)).slashed⟩ from rfl,
    hslashed, absolute_joinPath parent h, components_joinPath parent h]
  rfl

end Cirrusync.LockFiles
