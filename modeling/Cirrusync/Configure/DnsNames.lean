import Cirrusync.ConfigFile
import Cirrusync.Configure.Render
import Cirrusync.Trim
import Cirrusync.ValidConfig

/-!
The names the installer accepts on one line are names for the daemon: the two
checks look at the same labels, the daemon after its case folding and without
the dots at the end.
-/

namespace Cirrusync.Configure

open Text Sequence Shell Release

theorem isAlphanumeric_toLower {c : Char} (h : isAlphanumeric c = true) :
    isAlphanumeric c.toLower = true := by
  rcases toLower_cases c with hc | ⟨hlow, hhigh, hc⟩
  · rw [hc]
    exact h
  · have hlower : 97 ≤ c.toLower.toNat ∧ c.toLower.toNat ≤ 122 := by omega
    simp [isAlphanumeric, hlower]

def isLabelChar (c : Char) : Bool := isAlphanumeric c || c == '-'

theorem isLabelChar_toLower {c : Char} (h : isLabelChar c = true) :
    isLabelChar c.toLower = true := by
  rcases Bool.or_eq_true_iff.mp h with hc | hc
  · simp [isLabelChar, isAlphanumeric_toLower hc]
  · have hhyphen : c = '-' := by simpa using hc
    subst hhyphen
    decide

theorem isHostChar_range {c : Char} (h : isHostChar c = true) :
    45 ≤ c.toNat ∧ c.toNat ≤ 122 := by
  simp only [isHostChar, isAlphanumeric, Char.isDigit, Bool.or_eq_true, Bool.and_eq_true,
    decide_eq_true_eq, beq_iff_eq, Char.reduceToNat, Char.reduceVal, ge_iff_le,
    UInt32.le_iff_toNat_le, UInt32.reduceToNat] at h
  have hval : c.toNat = c.val.toNat := rfl
  rcases h with ((((h | h) | h) | rfl) | rfl)
  · omega
  · omega
  · omega
  · decide
  · decide

theorem isHostChar_ascii {c : Char} (h : isHostChar c = true) : c.toNat < 128 := by
  have hrange := isHostChar_range h
  omega

theorem byteLength_ascii {cs : List Char} (h : ∀ c ∈ cs, c.toNat < 128) :
    byteLength cs = cs.length := by
  induction cs with
  | nil => rfl
  | cons c cs ih =>
      have hc := h c List.mem_cons_self
      have hrest := ih (fun other member => h other (List.mem_cons_of_mem _ member))
      have hsize : c.utf8Size = 1 := by
        rw [Char.utf8Size_eq_one_iff]
        exact UInt32.le_iff_toNat_le.mpr
          (by simp only [UInt32.reduceToNat]; exact Nat.le_of_lt_succ hc)
      have hcons : byteLength (c :: cs) = c.utf8Size + byteLength cs := by simp [byteLength]
      rw [hcons, hsize, hrest, List.length_cons]
      omega

/-- A label as both programs accept it. -/
structure ValidLabel (label : List Char) : Prop where
  nonempty : label ≠ []
  short : byteLength label ≤ 63
  chars : ∀ c ∈ label, isLabelChar c = true
  head : label.head? ≠ some '-'
  last : label.getLast? ≠ some '-'

theorem alphanumeric_ne_hyphen {c : Char} (h : isAlphanumeric c = true) : c ≠ '-' := by
  rintro rfl
  exact absurd h (by decide)

theorem run_one {accepts : Char → Bool} {m : List Char}
    (h : (Pattern.run accepts 1 (some 1)).Matches m) : ∃ c, m = [c] ∧ accepts c = true := by
  obtain ⟨hall, hleast, hmost⟩ := h
  have hlength : m.length = 1 := by
    have := hmost 1 rfl
    omega
  obtain ⟨c, rfl⟩ := List.length_eq_one_iff.mp hlength
  exact ⟨c, rfl, hall c List.mem_cons_self⟩

/-- A label that the installer accepts is a valid label: it is not empty, not too long, made of
the characters of host names, and has no hyphen at its ends. -/
theorem validateLabel_valid {label : List Char} (h : validateLabel label = true) :
    ValidLabel label := by
  simp only [validateLabel, Bool.and_eq_true, decide_eq_true_eq] at h
  obtain ⟨⟨-, hshort⟩, hmatch⟩ := h
  obtain ⟨ms, hall, rfl⟩ := Pattern.fullmatch_iff.mp hmatch
  obtain ⟨start, tail, hstart, htail, rfl⟩ := List.forall₂_cons_left_iff.mp hall
  obtain ⟨rest, none_, hrest, hnone, rfl⟩ := List.forall₂_cons_left_iff.mp htail
  cases hnone
  obtain ⟨c, rfl, hc⟩ := run_one hstart
  have hfirst : isLabelChar c = true := by simp [isLabelChar, hc]
  rcases hrest with ⟨middle, last, rfl, hmiddle, hlast⟩ | hempty
  · obtain ⟨d, rfl, hd⟩ := run_one hlast
    have hend : isLabelChar d = true := by simp [isLabelChar, hd]
    refine ⟨by simp, hshort, ?_, ?_, ?_⟩
    · intro x hx
      simp only [List.flatten_cons, List.flatten_nil, List.append_nil, List.mem_append,
        List.mem_singleton] at hx
      rcases hx with rfl | hx | rfl
      · exact hfirst
      · exact hmiddle.1 x hx
      · exact hend
    · simpa using alphanumeric_ne_hyphen hc
    · have hlabel : ([c] :: [middle ++ [d]]).flatten = (c :: middle) ++ [d] := by simp
      rw [hlabel, List.getLast?_concat]
      simpa using alphanumeric_ne_hyphen hd
  · cases hempty
    refine ⟨by simp, hshort, ?_, ?_, ?_⟩
    · intro x hx
      simp only [List.flatten_cons, List.flatten_nil, List.append_nil, List.mem_singleton] at hx
      subst hx
      exact hfirst
    · simpa using alphanumeric_ne_hyphen hc
    · simpa using alphanumeric_ne_hyphen hc

theorem stripDot_cases (name : List Char) :
    stripDot name = name ∧ name.getLast? ≠ some '.' ∨ name = stripDot name ++ ['.'] := by
  unfold stripDot
  split
  · rename_i h
    right
    exact (List.dropLast_append_getLast? _ h).symm
  · rename_i h
    exact .inl ⟨rfl, h⟩

/-- A text that ends in no separator has a last piece that is not empty. -/
theorem getLast?_splitChars {separator : Char} {cs : List Char} (hne : cs ≠ [])
    (h : cs.getLast? ≠ some separator) : (splitChars separator cs).getLast? ≠ some [] := by
  induction cs with
  | nil => exact absurd rfl hne
  | cons c rest ih =>
      by_cases hrest : rest = []
      · subst hrest
        have hc : c ≠ separator := by
          rintro rfl
          exact h rfl
        simp [splitChars, hc]
      · have hlast : rest.getLast? ≠ some separator := by
          rw [List.getLast?_cons_of_ne_nil hrest] at h
          exact h
        have ih := ih hrest hlast
        obtain ⟨piece, pieces, hpieces⟩ :=
          List.exists_cons_of_ne_nil (splitChars_ne_nil separator rest)
        by_cases hc : c = separator
        · subst hc
          rw [splitChars_separator, List.getLast?_cons_of_ne_nil (splitChars_ne_nil _ _)]
          exact ih
        · rw [splitChars_cons hc hpieces]
          rw [hpieces] at ih
          cases pieces with
          | nil => simp
          | cons next pieces =>
              simp only [List.getLast?_cons_cons] at ih ⊢
              exact ih

/-- The array of `read` has the pieces of the text less one separator at its end. -/
theorem readArray_eq {name : List Char} (hne : name ≠ []) :
    readArray '.' name = splitChars '.' (stripDot name) := by
  unfold readArray
  rcases stripDot_cases name with ⟨hstrip, hlast⟩ | hname
  · rw [hstrip, if_neg (getLast?_splitChars hne hlast)]
  · have hsplit : splitChars '.' name = splitChars '.' (stripDot name) ++ [[]] := by
      conv_lhs => rw [hname]
      rw [splitChars_append]
      rfl
    simp [hsplit]

/-- The name less the dots at its end. -/
def baseName (name : List Char) : List Char := name.rdropWhile (· == '.')

theorem baseName_stripDot (name : List Char) : baseName (stripDot name) = baseName name := by
  rcases stripDot_cases name with ⟨hstrip, -⟩ | hname
  · rw [hstrip]
  · unfold baseName
    conv_rhs => rw [hname]
    rw [List.rdropWhile_concat_pos _ _ _ (by simp)]

theorem baseName_append (name : List Char) :
    ∃ dots, (∀ c ∈ dots, c = '.') ∧ name = baseName name ++ dots := by
  refine ⟨name.rtakeWhile (· == '.'), ?_, List.rdropWhile_append_rtakeWhile.symm⟩
  intro c hc
  simpa using List.mem_rtakeWhile_imp hc

theorem byteLength_append (front rest : List Char) :
    byteLength (front ++ rest) = byteLength front + byteLength rest := by
  simp [byteLength]

/-- A name that both programs accept, whatever dots end it. -/
structure ValidName (name : List Char) : Prop where
  labels : ∀ label ∈ splitChars '.' (baseName name), ValidLabel label
  short : byteLength (baseName name) ≤ 253

/-- The check of the installer, on a name of one line. -/
theorem validateDnsName_valid {name : List Char} (hline : '\n' ∉ name)
    (h : validateDnsName name = true) : ValidName name := by
  simp only [validateDnsName, Bool.and_eq_true, Bool.not_eq_true', List.isEmpty_eq_false_iff,
    decide_eq_true_eq, List.all_eq_true] at h
  obtain ⟨⟨⟨hne, hshort⟩, -⟩, hlabels⟩ := h
  have hstripped : '\n' ∉ stripDot name := by
    rcases stripDot_cases name with ⟨hstrip, -⟩ | hname
    · rwa [hstrip]
    · intro member
      rw [hname] at hline
      exact hline (List.mem_append_left _ member)
  rw [hereLine_eq hstripped, readArray_eq hne] at hlabels
  -- no label is empty, so that no dot is left at the end
  have hbase : baseName name = stripDot (stripDot name) := by
    rw [← baseName_stripDot name, ← baseName_stripDot (stripDot name)]
    unfold baseName
    rw [List.rdropWhile_eq_self_iff]
    intro hnonempty hdot
    have hdot : (stripDot (stripDot name)).getLast hnonempty = '.' := by simpa using hdot
    have hend := List.dropLast_append_getLast hnonempty
    rw [hdot] at hend
    have hempty : [] ∈ splitChars '.' (stripDot (stripDot name)) := by
      rw [← hend, splitChars_append]
      simp [splitChars]
    exact (validateLabel_valid (hlabels [] hempty)).nonempty rfl
  constructor
  · intro label member
    rw [hbase] at member
    exact validateLabel_valid (hlabels label member)
  · obtain ⟨dots, -, hdots⟩ := baseName_append (stripDot name)
    have hlength := byteLength_append (baseName (stripDot name)) dots
    rw [← hdots, baseName_stripDot] at hlength
    omega

theorem ValidName.base_chars {name : List Char} (h : ValidName name) :
    ∀ c ∈ baseName name, isHostChar c = true := by
  intro c hc
  rcases @mem_splitChars '.' c _ hc with rfl | ⟨label, hlabel, hc⟩
  · decide
  · have hchar := (h.labels label hlabel).chars c hc
    simpa [isHostChar, isLabelChar] using Or.inl hchar

theorem ValidName.chars {name : List Char} (h : ValidName name) :
    ∀ c ∈ name, isHostChar c = true := by
  obtain ⟨dots, hdots, hname⟩ := baseName_append name
  intro c hc
  rw [hname] at hc
  rcases List.mem_append.mp hc with hc | hc
  · exact h.base_chars c hc
  · rw [hdots c hc]
    decide

theorem ValidName.base_ne_nil {name : List Char} (h : ValidName name) : baseName name ≠ [] := by
  intro hnil
  have hempty : [] ∈ splitChars '.' (baseName name) := by
    rw [hnil]
    exact List.mem_singleton_self _
  exact (h.labels [] hempty).nonempty rfl

/-- The name as the daemon keeps it. -/
def canonicalName (name : List Char) : List Char := (baseName name).map Char.toLower

theorem canonicalDnsName_ofList (cs : List Char) :
    canonicalDnsName (.ofList cs) = .ofList (canonicalName (trimChars cs)) := by
  simp [canonicalDnsName, toAsciiLowercase, trimEndDots, trim, canonicalName, baseName]

theorem isHostChar_not_whitespace {c : Char} (h : isHostChar c = true) :
    isWhitespace c = false := by
  have hrange := isHostChar_range h
  by_contra hspace
  have hspace : isWhitespace c = true := by simpa using hspace
  simp only [isWhitespace, Bool.or_eq_true, Bool.and_eq_true, decide_eq_true_eq, beq_iff_eq]
    at hspace
  omega

theorem trimChars_append {cs rest : List Char}
    (hcs : ∀ c ∈ cs, isHostChar c = true) (hrest : ∀ c ∈ rest, isWhitespace c = true) :
    trimChars (cs ++ rest) = cs := by
  rw [trimChars_append_blanks hrest]
  exact trimChars_of_ends
    (fun c hc => isHostChar_not_whitespace (hcs c (List.mem_of_mem_head? hc)))
    (fun c hc => isHostChar_not_whitespace (hcs c (List.mem_of_mem_getLast? hc)))

theorem ValidName.canonical_ne_nil {name : List Char} (h : ValidName name) :
    canonicalName name ≠ [] := by
  simpa [canonicalName] using h.base_ne_nil

theorem isHostChar_toLower {c : Char} (h : isHostChar c = true) : isHostChar c.toLower = true := by
  rcases Bool.or_eq_true_iff.mp h with hc | hc
  · have hlabel := isLabelChar_toLower hc
    unfold isLabelChar at hlabel
    simp [isHostChar, hlabel]
  · have hdot : c = '.' := by simpa using hc
    subst hdot
    decide

theorem ValidName.canonical_chars {name : List Char} (h : ValidName name) :
    ∀ c ∈ canonicalName name, isHostChar c = true := by
  intro c hc
  obtain ⟨d, hd, rfl⟩ := List.mem_map.mp hc
  exact isHostChar_toLower (h.base_chars d hd)

theorem substituted_value {value : List Char} (hnul : '\x00' ∉ value) :
    substituted (value ++ ['\n']) = value.rdropWhile (· == '\n') := by
  have hfilter : (value ++ ['\n']).filter (· != '\x00') = value ++ ['\n'] := by
    rw [List.filter_eq_self]
    intro c hc
    rcases List.mem_append.mp hc with hc | hc
    · have hne : c ≠ '\x00' := by
        rintro rfl
        exact hnul hc
      simpa using hne
    · simp only [List.mem_singleton] at hc
      subst hc
      decide
  unfold substituted
  rw [hfilter, List.rdropWhile_concat_pos _ _ _ (by simp)]

/-- A name as the file has it: as entered, less the line feeds at its end and a dot. -/
def writtenName (entered : List Char) : List Char :=
  stripDot (entered.rdropWhile (· == '\n'))

/-- The line feeds at the end of what was entered are white space for the daemon. -/
theorem canonicalDnsName_entered {entered : List Char} (h : ValidName (writtenName entered)) :
    canonicalDnsName (.ofList entered) = .ofList (canonicalName (writtenName entered)) := by
  unfold writtenName at h
  have hchars : ∀ c ∈ entered.rdropWhile (· == '\n'), isHostChar c = true := by
    rcases stripDot_cases (entered.rdropWhile (· == '\n')) with ⟨hstrip, -⟩ | hname
    · rw [hstrip] at h
      exact h.chars
    · intro c hc
      rw [hname] at hc
      rcases List.mem_append.mp hc with hc | hc
      · exact h.chars c hc
      · simp only [List.mem_singleton] at hc
        subst hc
        decide
  have htrim : trimChars entered = entered.rdropWhile (· == '\n') := by
    conv_lhs => rw [← List.rdropWhile_append_rtakeWhile (p := (· == '\n')) (l := entered)]
    refine trimChars_append hchars ?_
    intro c hc
    have hlf : c = '\n' := by simpa using List.mem_rtakeWhile_imp hc
    subst hlf
    decide
  rw [canonicalDnsName_ofList, htrim]
  simp only [canonicalName, writtenName, baseName_stripDot]

theorem baseName_canonicalName (name : List Char) :
    baseName (canonicalName name) = canonicalName name := by
  unfold baseName
  rw [List.rdropWhile_eq_self_iff]
  intro hne hdot
  have hbase : baseName name ≠ [] := by
    intro hnil
    exact hne (by simp [canonicalName, hnil])
  have hlast : (canonicalName name).getLast hne = ((baseName name).getLast hbase).toLower := by
    simp [canonicalName, List.getLast_map]
  have hlower : ((baseName name).getLast hbase).toLower = '.' := by
    rw [← hlast]
    simpa using hdot
  have hkept : ¬((baseName name).getLast hbase == '.') = true :=
    List.rdropWhile_last_not (· == '.') name hbase
  rw [toLower_eq_iff (by decide)] at hlower
  exact hkept (beq_iff_eq.mpr hlower)

theorem ValidName.canonicalDnsName_canonical {name : List Char} (h : ValidName name) :
    canonicalDnsName (.ofList (canonicalName name)) = .ofList (canonicalName name) := by
  have htrim : trimChars (canonicalName name) = canonicalName name := by
    have hrest := @trimChars_append _ [] h.canonical_chars (by simp)
    simpa using hrest
  have htwice : canonicalName (canonicalName name) = canonicalName name := by
    conv_lhs => rw [canonicalName, baseName_canonicalName]
    exact map_toLower_idem _
  rw [canonicalDnsName_ofList, htrim, htwice]

theorem isLabelChar_ascii {c : Char} (h : isLabelChar c = true) : c.toNat < 128 := by
  have hhost : isHostChar c = true := by simpa [isHostChar, isLabelChar] using Or.inl h
  exact isHostChar_ascii hhost

theorem ValidLabel.toLower {label : List Char} (h : ValidLabel label) :
    ValidLabel (label.map Char.toLower) := by
  have hchars : ∀ c ∈ label.map Char.toLower, isLabelChar c = true := by
    intro c hc
    obtain ⟨d, hd, rfl⟩ := List.mem_map.mp hc
    exact isLabelChar_toLower (h.chars d hd)
  have hlength : byteLength (label.map Char.toLower) = byteLength label := by
    rw [byteLength_ascii (fun c hc => isLabelChar_ascii (hchars c hc)),
      byteLength_ascii (fun c hc => isLabelChar_ascii (h.chars c hc)), List.length_map]
  have hhyphen : ∀ found : Option Char, found ≠ some '-' → found.map Char.toLower ≠ some '-' := by
    intro found hfound hmap
    obtain ⟨c, hc, hlower⟩ := Option.map_eq_some_iff.mp hmap
    rw [toLower_eq_iff (by decide)] at hlower
    subst hlower
    exact hfound hc
  refine ⟨by simpa using h.nonempty, by rw [hlength]; exact h.short, hchars, ?_, ?_⟩
  · rw [List.head?_map]
    exact hhyphen _ h.head
  · rw [List.getLast?_map]
    exact hhyphen _ h.last

theorem ValidLabel.validateLabel_ok {label : List Char} (h : ValidLabel label)
    (allowWildcard : Bool) (index : Nat) :
    Cirrusync.validateLabel allowWildcard index label = .ok () := by
  have hempty : label.isEmpty = false := by simpa using h.nonempty
  have hhead : (label.head? == some '-') = false := by simpa using h.head
  have hlast : (label.getLast? == some '-') = false := by simpa using h.last
  have hchars : label.all (fun c => isAlphanumeric c || c == '-') = true := by
    rw [List.all_eq_true]
    exact h.chars
  unfold Cirrusync.validateLabel
  rw [hempty, hhead, hlast, hchars]
  simp only [h.short]
  split <;> rfl

theorem validateLabels_valid {labels : List (List Char)} (h : ∀ label ∈ labels, ValidLabel label)
    (allowWildcard : Bool) (index : Nat) :
    validateLabels allowWildcard index labels = .ok () := by
  induction labels generalizing index with
  | nil => rfl
  | cons label labels ih =>
      have hfirst := (h label List.mem_cons_self).validateLabel_ok allowWildcard index
      have hrest := ih (fun other member => h other (List.mem_cons_of_mem _ member)) (index + 1)
      rw [validateLabels, hfirst]
      exact hrest

/-- The check of the daemon passes on what the installer accepted. -/
theorem ValidName.validateDnsName_ok {name : List Char} (h : ValidName name)
    (allowWildcard : Bool) :
    Cirrusync.validateDnsName (.ofList (canonicalName name)) allowWildcard = .ok () := by
  have hempty : (canonicalName name).isEmpty = false := by simpa using h.canonical_ne_nil
  have hlength : byteLength (canonicalName name) = byteLength (baseName name) := by
    rw [byteLength_ascii (fun c hc => isHostChar_ascii (h.canonical_chars c hc)),
      byteLength_ascii (fun c hc => isHostChar_ascii (h.base_chars c hc)), canonicalName,
      List.length_map]
  have hshort : byteLength (canonicalName name) ≤ 253 := by
    have := h.short
    omega
  have hlabels : validateLabels allowWildcard 0 (splitChars '.' (canonicalName name)) = .ok () := by
    refine validateLabels_valid ?_ allowWildcard 0
    intro label member
    rw [canonicalName, splitChars_map (toLower_eq_iff (by decide))] at member
    obtain ⟨before, hbefore, rfl⟩ := List.mem_map.mp member
    exact (h.labels before hbefore).toLower
  unfold Cirrusync.validateDnsName
  simp only [len, String.toList_ofList, hempty, hshort, hlabels]
  rfl

theorem lower_baseName (name : List Char) :
    (name.map Char.toLower).rdropWhile (· == '.') = canonicalName name := by
  obtain ⟨dots, hdots, hname⟩ := baseName_append name
  have hlower : ∀ c ∈ dots.map Char.toLower, (c == '.') = true := by
    intro c hc
    obtain ⟨d, hd, rfl⟩ := List.mem_map.mp hc
    rw [hdots d hd]
    decide
  conv_lhs => rw [hname]
  rw [List.map_append, rdropWhile_append_of_pos hlower]
  exact baseName_canonicalName name

theorem rdropWhile_append_of_kept {p : Char → Bool} {front rest : List Char} (hne : rest ≠ [])
    (h : rest.rdropWhile p = rest) : (front ++ rest).rdropWhile p = front ++ rest := by
  rw [List.rdropWhile_eq_self_iff] at h ⊢
  intro hwhole
  rw [List.getLast_append_of_ne_nil hwhole hne]
  exact h hne

/-- The dots that end the zone end the record as well. -/
theorem canonicalName_suffix {zone record : List Char} (hzone : ValidName zone)
    (h : '.' :: zone.map Char.toLower <:+ record.map Char.toLower) :
    '.' :: canonicalName zone <:+ canonicalName record := by
  obtain ⟨front, hfront⟩ := h
  obtain ⟨dots, hdots, hname⟩ := baseName_append zone
  have hlower : ∀ c ∈ dots.map Char.toLower, (c == '.') = true := by
    intro c hc
    obtain ⟨d, hd, rfl⟩ := List.mem_map.mp hc
    rw [hdots d hd]
    decide
  have hsplit : record.map Char.toLower =
      (front ++ '.' :: canonicalName zone) ++ dots.map Char.toLower := by
    rw [← hfront]
    conv_lhs => rw [hname]
    simp [canonicalName]
  refine ⟨front, ?_⟩
  have hend : front ++ '.' :: canonicalName zone = (front ++ ['.']) ++ canonicalName zone := by
    simp
  rw [← lower_baseName record, hsplit, rdropWhile_append_of_pos hlower, hend,
    rdropWhile_append_of_kept hzone.canonical_ne_nil (baseName_canonicalName zone)]

end Cirrusync.Configure
