import Cirrusync.ConfigFile
import Cirrusync.Configure.DnsNames
import Cirrusync.RuntimeLock
import Cirrusync.Trim

/-!
When the canonical form of a name is a fixed point: white space is trimmed before
the dots are taken off the end, so white space in front of those dots is left.
-/

namespace Cirrusync

open Text Sequence
open Configure (canonicalName baseName canonicalDnsName_ofList baseName_canonicalName)

/-- White space directly before the dots that end a name. -/
def SpaceBeforeDots (name : String) : Prop :=
  ∃ front space dots blanks, name.toList = front ++ space :: (dots ++ blanks) ∧
    (∃ c ∈ front, isWhitespace c = false) ∧ isWhitespace space = true ∧
    dots ≠ [] ∧ (∀ c ∈ dots, c = '.') ∧ ∀ c ∈ blanks, isWhitespace c = true

theorem toLower_whitespace (c : Char) : isWhitespace c.toLower = isWhitespace c := by
  rcases toLower_cases c with hc | ⟨hlow, hhigh, hc⟩
  · rw [hc]
  · simp only [isWhitespace, hc]
    have hletter : ∀ n, 65 ≤ n → n ≤ 122 → ((9 ≤ n && n ≤ 13) || n == 0x20 || n == 0x85 ||
        n == 0xa0 || n == 0x1680 || (0x2000 ≤ n && n ≤ 0x200a) || n == 0x2028 || n == 0x2029 ||
        n == 0x202f || n == 0x205f || n == 0x3000) = false := by
      intro n hlow hhigh
      simp only [Bool.or_eq_false_iff, Bool.and_eq_false_iff, decide_eq_false_iff_not,
        beq_eq_false_iff_ne]
      omega
    rw [hletter _ (by omega) (by omega), hletter _ hlow (by omega)]

theorem map_toLower_eq_self_iff (name : List Char) :
    name.map Char.toLower = name ↔ ∀ c ∈ name, c.toLower = c := by
  have hmap := @List.map_inj_left _ _ name Char.toLower id
  rw [List.map_id] at hmap
  exact hmap

/-- The names that the canonical form leaves as they are. -/
theorem canonicalName_eq_self_iff (name : List Char) :
    canonicalName (trimChars name) = name ↔
      (∀ c ∈ name.head?, isWhitespace c = false) ∧
        (∀ c ∈ name.getLast?, isWhitespace c = false ∧ c ≠ '.') ∧ ∀ c ∈ name, c.toLower = c := by
  constructor
  · intro h
    have hbase : baseName (trimChars name) <+: trimChars name := List.rdropWhile_prefix _ _
    have hshorter := hbase.length_le
    have hlength := congrArg List.length h
    rw [canonicalName, List.length_map] at hlength
    have htrim : trimChars name = name := trimChars_of_length (by omega)
    rw [htrim] at h hbase hlength
    have hdots : baseName name = name := hbase.eq_of_length hlength
    rw [canonicalName, hdots] at h
    refine ⟨fun c hc => ?_, fun c hc => ⟨?_, ?_⟩, fun c hc => ?_⟩
    · rw [← htrim] at hc
      exact head?_trimChars hc
    · rw [← htrim] at hc
      exact getLast?_trimChars hc
    · rw [← hdots] at hc
      simpa using getLast?_rdropWhile hc
    · exact (map_toLower_eq_self_iff name).mp h c hc
  · rintro ⟨hhead, hlast, hlower⟩
    have hdots : baseName name = name := by
      refine rdropWhile_of_getLast? (fun c hc => ?_)
      simpa using (hlast c hc).2
    rw [trimChars_of_ends hhead (fun c hc => (hlast c hc).1), canonicalName, hdots]
    exact (map_toLower_eq_self_iff name).mpr hlower

theorem canonicalDnsName_eq_self_iff (name : String) :
    canonicalDnsName name = name ↔ canonicalName (trimChars name.toList) = name.toList := by
  have hname : canonicalDnsName name = .ofList (canonicalName (trimChars name.toList)) := by
    rw [← canonicalDnsName_ofList, String.ofList_toList]
  rw [hname, ← String.toList_inj, String.toList_ofList]

/-- What is left of a name before its letters are folded. -/
def stripped (name : String) : List Char := baseName (trimChars name.toList)

theorem toList_canonicalDnsName (name : String) :
    (canonicalDnsName name).toList = (stripped name).map Char.toLower := by
  have hname := canonicalDnsName_ofList name.toList
  rw [String.ofList_toList] at hname
  rw [hname, String.toList_ofList, canonicalName, stripped]

/-- A name has white space before its dots if and only if it still ends in white space when the
white space around it and then the dots at its end are gone. -/
theorem spaceBeforeDots_iff (name : String) :
    SpaceBeforeDots name ↔ ∃ c ∈ (stripped name).getLast?, isWhitespace c = true := by
  constructor
  · rintro ⟨front, space, dots, blanks, hname, ⟨first, hfirst, hword⟩, hspace, hne, hdots, hblanks⟩
    have hspaceDot : (space == '.') = false := by
      rw [beq_eq_false_iff_ne]
      rintro rfl
      exact absurd hspace (by decide)
    have hdrop : (front ++ space :: dots).dropWhile isWhitespace =
        front.dropWhile isWhitespace ++ space :: dots := by
      rw [List.dropWhile_append, if_neg]
      intro hempty
      have hall := List.dropWhile_eq_nil_iff.mp (List.isEmpty_iff.mp hempty) first hfirst
      rw [hword] at hall
      cases hall
    have hdotsLast : ∀ c ∈ (front.dropWhile isWhitespace ++ space :: dots).getLast?,
        isWhitespace c = false := by
      intro c hc
      have hsplit : front.dropWhile isWhitespace ++ space :: dots =
          front.dropWhile isWhitespace ++ [space] ++ dots := by simp
      rw [hsplit, List.getLast?_append_of_ne_nil _ hne] at hc
      rw [hdots c (List.mem_of_getLast? hc)]
      decide
    have htrim : trimChars name.toList = front.dropWhile isWhitespace ++ space :: dots := by
      have hsplit : name.toList = front ++ space :: dots ++ blanks := by simp [hname]
      rw [hsplit, trimChars_append_blanks hblanks, trimChars, hdrop]
      exact rdropWhile_of_getLast? hdotsLast
    have hstripped : stripped name = front.dropWhile isWhitespace ++ [space] := by
      have hdot : ∀ c ∈ dots, (c == '.') = true := by
        intro c hc
        rw [hdots c hc]
        decide
      have hsplit : front.dropWhile isWhitespace ++ space :: dots =
          front.dropWhile isWhitespace ++ [space] ++ dots := by simp
      rw [stripped, htrim, baseName, hsplit, rdropWhile_append_of_pos hdot,
        List.rdropWhile_concat_neg _ _ _ (by simp [hspaceDot])]
    refine ⟨space, ?_, hspace⟩
    rw [hstripped]
    simp
  · rintro ⟨space, hlast, hspace⟩
    obtain ⟨before, blanks, hbefore, hblanks, hname⟩ := exists_trimChars name.toList
    obtain ⟨dots, hdots, htrim⟩ := exists_rdropWhile_append (· == '.') (trimChars name.toList)
    obtain ⟨word, hword⟩ := List.getLast?_eq_some_iff.mp hlast
    rw [stripped, baseName] at hword
    rw [hword] at htrim
    have hne : dots ≠ [] := by
      rintro rfl
      have hend := @getLast?_trimChars name.toList space (by simp [htrim])
      rw [hspace] at hend
      cases hend
    have hfirst : ∃ c ∈ word, isWhitespace c = false := by
      cases word with
      | nil =>
          have hhead := @head?_trimChars name.toList space (by simp [htrim])
          rw [hspace] at hhead
          cases hhead
      | cons c word =>
          exact ⟨c, List.mem_cons_self, @head?_trimChars name.toList c (by simp [htrim])⟩
    obtain ⟨first, hmem, hnot⟩ := hfirst
    refine ⟨before ++ word, space, dots, blanks, ?_, ⟨first, List.mem_append_right _ hmem, hnot⟩,
      hspace, hne, fun c hc => by simpa using hdots c hc, hblanks⟩
    rw [hname, htrim]
    simp

/-- Canonical names are fixed points but for those with white space before the dots. -/
theorem canonicalDnsName_idem_iff (name : String) :
    canonicalDnsName (canonicalDnsName name) = canonicalDnsName name ↔
      ¬SpaceBeforeDots name := by
  have hhead : ∀ c ∈ ((stripped name).map Char.toLower).head?, isWhitespace c = false := by
    intro c hc
    rw [List.head?_map] at hc
    obtain ⟨d, hd, rfl⟩ := Option.map_eq_some_iff.mp hc
    rw [toLower_whitespace]
    exact head?_trimChars (head?_of_isPrefix (List.rdropWhile_prefix _ _) hd)
  have hlower : ∀ c ∈ (stripped name).map Char.toLower, c.toLower = c :=
    fun _ member => toLower_of_mem_map member
  rw [canonicalDnsName_eq_self_iff, toList_canonicalDnsName, canonicalName_eq_self_iff,
    spaceBeforeDots_iff]
  constructor
  · rintro ⟨-, hlast, -⟩ ⟨c, hc, hspace⟩
    have hfolded := (hlast c.toLower (by simp [Option.mem_def.mp hc])).1
    rw [toLower_whitespace, hspace] at hfolded
    cases hfolded
  · intro hnot
    refine ⟨hhead, fun c hc => ?_, hlower⟩
    rw [List.getLast?_map] at hc
    obtain ⟨d, hd, rfl⟩ := Option.map_eq_some_iff.mp hc
    have hdot : d ≠ '.' := by simpa using getLast?_rdropWhile hd
    refine ⟨?_, fun hlow => hdot ((toLower_eq_iff (by decide) d).mp hlow)⟩
    rw [toLower_whitespace]
    by_contra hspace
    exact hnot ⟨d, hd, by simpa using hspace⟩

end Cirrusync
