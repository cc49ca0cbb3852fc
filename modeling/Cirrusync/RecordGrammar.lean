import Cirrusync.Canonical

/-!
The records that `validate_record` accepts, as a grammar on lists of labels.
-/

namespace Cirrusync

open Text
open Configure (isLabelChar isLabelChar_ascii isHostChar_ascii byteLength_ascii
  ValidLabel canonicalName)

/-- A lowercase label. -/
structure DnsLabel (label : List Char) : Prop where
  length : 1 ≤ label.length ∧ label.length ≤ 63
  chars : ∀ c ∈ label, c.isLower = true ∨ c.isDigit = true ∨ c = '-'
  head : label.head? ≠ some '-'
  last : label.getLast? ≠ some '-'

/-- Labels joined by dots to a name of at most 253 bytes. -/
structure DnsName (wildcard : Bool) (labels : List (List Char)) (name : String) : Prop where
  nonempty : labels ≠ []
  joined : name.toList = ['.'].intercalate labels
  short : len name ≤ 253
  first : ∀ label ∈ labels.head?, DnsLabel label ∨ wildcard = true ∧ label = ['*']
  others : ∀ label ∈ labels.tail, DnsLabel label

/-- A record in the intended grammar. -/
structure RecordGrammar (record : RecordConfig) (zone name : List (List Char)) : Prop where
  zone_form : DnsName false zone record.zone
  name_form : DnsName true name record.name
  belongs : zone <:+ name
  wildcard : name.head? = some ['*'] → zone.length < name.length
  zone_id : ∀ id ∈ record.zoneId, id.toList.length = 32 ∧
    ∀ c ∈ id.toList, c.isDigit = true ∨ 'a' ≤ c ∧ c ≤ 'f'
  ttl : record.ttl = 1 ∨ 60 ≤ record.ttl ∧ record.ttl ≤ 86400
  proxied : record.proxied = true → record.ttl = 1

/-! ## Labels -/

theorem toLower_eq_self_iff (c : Char) : c.toLower = c ↔ ¬(65 ≤ c.toNat ∧ c.toNat ≤ 90) := by
  constructor
  · rintro hself ⟨hlow, hhigh⟩
    have hupper : c.val ≥ 'A'.val ∧ c.val ≤ 'Z'.val := by
      simp only [ge_iff_le, Char.reduceVal, UInt32.le_iff_toNat_le, UInt32.reduceToNat,
        Char.toNat_val]
      omega
    unfold Char.toLower at hself
    rw [dif_pos hupper] at hself
    have hvalue := congrArg (fun d => d.val.toNat) hself
    simp only [Char.reduceVal, UInt32.reduceSub, UInt32.toNat_add, UInt32.reduceToNat,
      Char.toNat_val] at hvalue
    omega
  · intro hnot
    rcases toLower_cases c with hc | ⟨hlow, hhigh, -⟩
    · exact hc
    · omega

theorem lowerLabelChar_iff (c : Char) :
    (c.isLower = true ∨ c.isDigit = true ∨ c = '-') ↔ isLabelChar c = true ∧ c.toLower = c := by
  have hlower : c.isLower = true ↔ 97 ≤ c.toNat ∧ c.toNat ≤ 122 := by
    unfold Char.isLower
    simp [UInt32.le_iff_toNat_le, ← Char.toNat_val]
  have hdigit : c.isDigit = true ↔ 48 ≤ c.toNat ∧ c.toNat ≤ 57 := by
    simp [Char.isDigit, UInt32.le_iff_toNat_le, ← Char.toNat_val]
  have hlabel : isLabelChar c = true ↔ ((48 ≤ c.toNat ∧ c.toNat ≤ 57 ∨
      97 ≤ c.toNat ∧ c.toNat ≤ 122) ∨ 65 ≤ c.toNat ∧ c.toNat ≤ 90) ∨ c = '-' := by
    simp [isLabelChar, isAlphanumeric, hdigit]
  rw [hlower, hdigit, hlabel, toLower_eq_self_iff]
  constructor
  · rintro (h | h | rfl)
    · omega
    · omega
    · exact ⟨.inr rfl, by decide⟩
  · rintro ⟨h | rfl, hself⟩
    · omega
    · exact .inr (.inr rfl)

theorem dnsLabel_iff (label : List Char) :
    DnsLabel label ↔ ValidLabel label ∧ ∀ c ∈ label, c.toLower = c := by
  have hchars : (∀ c ∈ label, c.isLower = true ∨ c.isDigit = true ∨ c = '-') ↔
      (∀ c ∈ label, isLabelChar c = true) ∧ ∀ c ∈ label, c.toLower = c := by
    simp only [lowerLabelChar_iff]
    exact forall₂_and
  constructor
  · intro h
    obtain ⟨hlabel, hlower⟩ := hchars.mp h.chars
    have hlength := byteLength_ascii (fun c hc => isLabelChar_ascii (hlabel c hc))
    refine ⟨⟨?_, ?_, hlabel, h.head, h.last⟩, hlower⟩
    · exact List.ne_nil_of_length_pos h.length.1
    · have hshort := h.length.2
      omega
  · rintro ⟨h, hlower⟩
    have hlength := byteLength_ascii (fun c hc => isLabelChar_ascii (h.chars c hc))
    have hshort := h.short
    have hpos := List.length_pos_of_ne_nil h.nonempty
    exact ⟨⟨by omega, by omega⟩, hchars.mpr ⟨h.chars, hlower⟩, h.head, h.last⟩

theorem validateLabel_iff (allowWildcard : Bool) (index : Nat) (label : List Char) :
    validateLabel allowWildcard index label = .ok () ↔
      ValidLabel label ∨ allowWildcard = true ∧ index = 0 ∧ label = ['*'] := by
  constructor
  · intro h
    unfold validateLabel at h
    rw [ensure_bind_ok] at h
    obtain ⟨hne, h⟩ := h
    split at h
    · rename_i hwild
      simp only [Bool.and_eq_true, beq_iff_eq, and_assoc] at hwild
      exact .inr hwild
    · simp only [ensure_bind_ok, ensure_ok, decide_eq_true_eq, Bool.not_eq_true',
        Bool.or_eq_false_iff, beq_eq_false_iff_ne, List.all_eq_true] at h
      obtain ⟨hshort, ⟨hhead, hlast⟩, hchars⟩ := h
      exact .inl ⟨by simpa using hne, hshort, hchars, hhead, hlast⟩
  · rintro (h | ⟨rfl, rfl, rfl⟩)
    · exact h.validateLabel_ok allowWildcard index
    · rfl

theorem validateLabels_iff (allowWildcard : Bool) (index : Nat) (labels : List (List Char)) :
    validateLabels allowWildcard index labels = .ok () ↔
      (∀ label ∈ labels.head?, ValidLabel label ∨
        allowWildcard = true ∧ index = 0 ∧ label = ['*']) ∧
      ∀ label ∈ labels.tail, ValidLabel label := by
  induction labels generalizing index with
  | nil => simp [validateLabels, pure, Except.pure]
  | cons first rest ih =>
      have hstep : validateLabels allowWildcard index (first :: rest) = .ok () ↔
          validateLabel allowWildcard index first = .ok () ∧
            validateLabels allowWildcard (index + 1) rest = .ok () := by
        rw [validateLabels, except_bind_ok]
        constructor
        · rintro ⟨_, h⟩
          exact h
        · exact fun h => ⟨(), h⟩
      rw [hstep, ih, validateLabel_iff]
      cases rest with
      | nil => simp
      | cons second rest => simp

/-! ## Names -/

theorem mem_of_mem_splitChars {separator c : Char} {cs piece : List Char}
    (hpiece : piece ∈ splitChars separator cs) (hc : c ∈ piece) : c ∈ cs := by
  induction cs generalizing piece with
  | nil =>
      rw [splitChars, List.mem_singleton] at hpiece
      rwa [hpiece] at hc
  | cons first rest ih =>
      by_cases hfirst : first = separator
      · subst hfirst
        rw [splitChars_separator] at hpiece
        rcases List.mem_cons.mp hpiece with rfl | hpiece
        · cases hc
        · exact List.mem_cons_of_mem _ (ih hpiece hc)
      · obtain ⟨head, pieces, hpieces⟩ :=
          List.exists_cons_of_ne_nil (splitChars_ne_nil separator rest)
        rw [splitChars_cons hfirst hpieces] at hpiece
        rw [hpieces] at ih
        rcases List.mem_cons.mp hpiece with rfl | hpiece
        · rcases List.mem_cons.mp hc with rfl | hc
          · exact List.mem_cons_self
          · exact List.mem_cons_of_mem _ (ih List.mem_cons_self hc)
        · exact List.mem_cons_of_mem _ (ih (List.mem_cons_of_mem _ hpiece) hc)

theorem validateDnsName_iff (name : String) (allowWildcard : Bool) :
    validateDnsName name allowWildcard = .ok () ↔ name.toList ≠ [] ∧ len name ≤ 253 ∧
      validateLabels allowWildcard 0 (splitChars '.' name.toList) = .ok () := by
  unfold validateDnsName
  simp

/-- A label of a name that is checked is not empty. -/
theorem DnsLabel.nonempty {label : List Char} (h : DnsLabel label) : label ≠ [] :=
  List.ne_nil_of_length_pos h.length.1

namespace DnsName

variable {wildcard : Bool} {labels : List (List Char)} {name : String}

theorem label (h : DnsName wildcard labels name) {label : List Char} (hlabel : label ∈ labels) :
    DnsLabel label ∨ label = ['*'] := by
  cases labels with
  | nil => cases hlabel
  | cons first rest =>
      rcases List.mem_cons.mp hlabel with rfl | hrest
      · exact (h.first _ rfl).imp_right And.right
      · exact .inl (h.others label hrest)

/-- The labels are the pieces between the dots. -/
theorem labels_eq (h : DnsName wildcard labels name) : labels = splitChars '.' name.toList := by
  rw [h.joined, splitChars_intercalate ?_ h.nonempty]
  intro label hlabel hdot
  rcases h.label hlabel with hdns | rfl
  · have hchar := ((lowerLabelChar_iff '.').mp (hdns.chars _ hdot)).1
    exact absurd hchar (by decide)
  · exact absurd hdot (by decide)

theorem chars (h : DnsName wildcard labels name) {c : Char} (hc : c ∈ name.toList) :
    isWhitespace c = false ∧ c.toLower = c := by
  rcases @mem_splitChars '.' c _ hc with rfl | ⟨label, hlabel, hmem⟩
  · exact ⟨by decide, by decide⟩
  · rw [← h.labels_eq] at hlabel
    rcases h.label hlabel with hdns | rfl
    · obtain ⟨hchar, hlower⟩ := (lowerLabelChar_iff c).mp (hdns.chars c hmem)
      have hhost : isHostChar c = true := by
        rw [isHostChar, ← isLabelChar, hchar, Bool.true_or]
      exact ⟨Configure.isHostChar_not_whitespace hhost, hlower⟩
    · rw [List.mem_singleton.mp hmem]
      exact ⟨by decide, by decide⟩

theorem nil_notMem (h : DnsName wildcard labels name) : [] ∉ splitChars '.' name.toList := by
  rw [← h.labels_eq]
  intro hnil
  rcases h.label hnil with hdns | hstar
  · exact hdns.nonempty rfl
  · cases hstar

theorem name_ne_nil (h : DnsName wildcard labels name) : name.toList ≠ [] := by
  intro hnil
  refine h.nil_notMem ?_
  rw [hnil, splitChars]
  exact List.mem_singleton.mpr rfl

theorem canonical (h : DnsName wildcard labels name) : canonicalDnsName name = name := by
  rw [canonicalDnsName_eq_self_iff, canonicalName_eq_self_iff]
  refine ⟨fun c hc => (h.chars (List.mem_of_mem_head? hc)).1, fun c hc => ⟨?_, ?_⟩,
    fun c hc => (h.chars hc).2⟩
  · exact (h.chars (List.mem_of_getLast? hc)).1
  · rintro rfl
    obtain ⟨front, hfront⟩ := List.getLast?_eq_some_iff.mp hc
    refine h.nil_notMem ?_
    rw [hfront, splitChars_append]
    exact List.mem_append_right _ (List.mem_singleton.mpr rfl)

end DnsName

/-- A name is canonical and passes the check just when its labels make a name. -/
theorem dnsName_iff (name : String) (wildcard : Bool) :
    name = canonicalDnsName name ∧ validateDnsName name wildcard = .ok () ↔
      DnsName wildcard (splitChars '.' name.toList) name := by
  constructor
  · rintro ⟨hcanonical, hvalid⟩
    obtain ⟨hne, hshort, hlabels⟩ := (validateDnsName_iff name wildcard).mp hvalid
    obtain ⟨hfirst, hothers⟩ := (validateLabels_iff _ _ _).mp hlabels
    obtain ⟨-, -, hlower⟩ := (canonicalName_eq_self_iff _).mp
      ((canonicalDnsName_eq_self_iff name).mp hcanonical.symm)
    have hlabel : ∀ label ∈ splitChars '.' name.toList, ValidLabel label → DnsLabel label :=
      fun label hlabel hvalid => (dnsLabel_iff label).mpr
        ⟨hvalid, fun c hc => hlower c (mem_of_mem_splitChars hlabel hc)⟩
    refine ⟨splitChars_ne_nil _ _, (intercalate_splitChars _ _).symm, hshort, ?_, ?_⟩
    · intro label hhead
      rcases hfirst label hhead with hvalid | ⟨hwild, -, hstar⟩
      · exact .inl (hlabel label (List.mem_of_mem_head? hhead) hvalid)
      · exact .inr ⟨hwild, hstar⟩
    · intro label htail
      exact hlabel label (List.mem_of_mem_tail htail) (hothers label htail)
  · intro h
    refine ⟨h.canonical.symm, (validateDnsName_iff name wildcard).mpr
      ⟨h.name_ne_nil, h.short, (validateLabels_iff _ _ _).mpr ⟨?_, ?_⟩⟩⟩
    · intro label hhead
      rcases h.first label hhead with hdns | ⟨hwild, hstar⟩
      · exact .inl ((dnsLabel_iff label).mp hdns).1
      · exact .inr ⟨hwild, rfl, hstar⟩
    · exact fun label htail => ((dnsLabel_iff label).mp (h.others label htail)).1

/-! ## Records -/

theorem lowerHex_iff (c : Char) :
    (c.isDigit = true ∨ 'a' ≤ c ∧ c ≤ 'f') ↔ isHexDigit c = true ∧ c.toLower = c := by
  have hdigit : c.isDigit = true ↔ 48 ≤ c.toNat ∧ c.toNat ≤ 57 := by
    simp [Char.isDigit, UInt32.le_iff_toNat_le, ← Char.toNat_val]
  have hletter : 'a' ≤ c ∧ c ≤ 'f' ↔ 97 ≤ c.toNat ∧ c.toNat ≤ 102 := by
    simp [Char.le_def, UInt32.le_iff_toNat_le, ← Char.toNat_val]
  have hhex : isHexDigit c = true ↔ (48 ≤ c.toNat ∧ c.toNat ≤ 57 ∨
      97 ≤ c.toNat ∧ c.toNat ≤ 102) ∨ 65 ≤ c.toNat ∧ c.toNat ≤ 70 := by
    simp [isHexDigit, hdigit]
  rw [hdigit, hletter, hhex, toLower_eq_self_iff]
  omega

theorem isHostChar_of_hex {c : Char} (h : isHexDigit c = true) : isHostChar c = true := by
  simp only [isHexDigit, Bool.or_eq_true, Bool.and_eq_true, decide_eq_true_eq,
    Char.reduceToNat] at h
  simp only [isHostChar, isAlphanumeric, Bool.or_eq_true, Bool.and_eq_true, decide_eq_true_eq,
    Char.reduceToNat]
  rcases h with (h | h) | h
  · exact .inl (.inl (.inl (.inl h)))
  · exact .inl (.inl (.inl (.inr (by omega))))
  · exact .inl (.inl (.inr (by omega)))

/-- An identifier passes its two checks just when it is 32 lowercase hexadecimal digits. -/
theorem hexId_iff (id : String) :
    id = toAsciiLowercase (trim id) ∧ isHexId id = true ↔ id.toList.length = 32 ∧
      ∀ c ∈ id.toList, c.isDigit = true ∨ 'a' ≤ c ∧ c ≤ 'f' := by
  have hchecks : isHexId id = true ↔ len id = 32 ∧ ∀ c ∈ id.toList, isHexDigit c = true := by
    simp [isHexId]
  have hself : (∀ c ∈ id.toList, isHexDigit c = true) →
      (id = toAsciiLowercase (trim id) ↔ ∀ c ∈ id.toList, c.toLower = c) := by
    intro hhex
    have hword : ∀ c ∈ id.toList, isWhitespace c = false :=
      fun c hc => Configure.isHostChar_not_whitespace (isHostChar_of_hex (hhex c hc))
    have htrim : trimChars id.toList = id.toList :=
      trimChars_of_ends (fun c hc => hword c (List.mem_of_mem_head? hc))
        (fun c hc => hword c (List.mem_of_getLast? hc))
    rw [← map_toLower_eq_self_iff, ← String.toList_inj, toList_toAsciiLowercase, trim,
      String.toList_ofList, htrim]
    exact eq_comm
  have hlength : (∀ c ∈ id.toList, isHexDigit c = true) → len id = id.toList.length :=
    fun hhex => byteLength_ascii (fun c hc => isHostChar_ascii (isHostChar_of_hex (hhex c hc)))
  simp only [lowerHex_iff]
  rw [hchecks]
  constructor
  · rintro ⟨hcanonical, hlen, hhex⟩
    refine ⟨(hlength hhex).symm.trans hlen, fun c hc => ⟨hhex c hc, ?_⟩⟩
    exact (hself hhex).mp hcanonical c hc
  · rintro ⟨hlen, hboth⟩
    have hhex : ∀ c ∈ id.toList, isHexDigit c = true := fun c hc => (hboth c hc).1
    exact ⟨(hself hhex).mpr (fun c hc => (hboth c hc).2), (hlength hhex).trans hlen, hhex⟩

/-- `validate_record` accepts a record if and only if each of its six checks is passed. The labels
of the errors do not matter for that, nor does the order of the checks. -/
theorem validateRecord_checks (record : RecordConfig) (field : String) :
    validateRecord record field = .ok () ↔
      (record.zone = canonicalDnsName record.zone ∧
        validateDnsName record.zone false = .ok ()) ∧
      (record.name = canonicalDnsName record.name ∧
        validateDnsName record.name true = .ok ()) ∧
      (record.name = record.zone ∨ '.' :: record.zone.toList <:+ record.name.toList) ∧
      (∀ id ∈ record.zoneId, id = toAsciiLowercase (trim id) ∧ isHexId id = true) ∧
      (record.ttl = 1 ∨ 60 ≤ record.ttl ∧ record.ttl ≤ 86400) ∧
      (record.proxied = true → record.ttl = 1) := by
  have hbelongs : endsWith record.name s!".{record.zone}" = true ↔
      '.' :: record.zone.toList <:+ record.name.toList := by
    have htext : s!".{record.zone}" = "." ++ record.zone := rfl
    rw [endsWith, List.isSuffixOf_iff_suffix, htext, String.toList_append]
    exact Iff.rfl
  have hunit : ∀ p : Unit → Prop, (∃ a, p a) ↔ p () := fun p => Unique.exists_iff
  have hproxied : (record.proxied = false ∨ record.ttl = 1) ↔
      (record.proxied = true → record.ttl = 1) := by
    cases record.proxied <;> simp
  unfold validateRecord
  simp only [except_bind_ok, ensure_ok, beq_iff_eq, hunit, mapError_eq_ok_iff]
  by_cases hzone : record.zone = canonicalDnsName record.zone
  · by_cases hname : record.name = canonicalDnsName record.name
    · rw [← hzone, ← hname]
      simp only [true_and, Bool.or_eq_true, beq_iff_eq, hbelongs]
      cases record.zoneId with
      | none => simp [hproxied]
      | some id => simp [validateZoneId, hproxied, and_assoc]
    · simp [hname]
  · simp [hzone]

/-- `validate_record` accepts exactly the grammar. -/
theorem validateRecord_iff_grammar (record : RecordConfig) (field : String) :
    validateRecord record field = .ok () ↔ ∃ zone name, RecordGrammar record zone name := by
  rw [validateRecord_checks, dnsName_iff, dnsName_iff]
  constructor
  · rintro ⟨hzone, hname, hbelongs, hid, httl, hproxied⟩
    have hsuffix : splitChars '.' record.zone.toList <:+ splitChars '.' record.name.toList := by
      rw [splitChars_suffix_iff, String.toList_inj]
      exact hbelongs
    refine ⟨_, _, hzone, hname, hsuffix, fun hstar => ?_, fun id h => (hexId_iff id).mp (hid id h),
      httl, hproxied⟩
    have hlength := hsuffix.length_le
    by_contra hnot
    have hsame := hsuffix.eq_of_length (by omega)
    rw [← hsame] at hstar
    rcases hzone.first _ hstar with hdns | ⟨hwild, -⟩
    · have hchar := ((lowerLabelChar_iff '*').mp (hdns.chars '*' List.mem_cons_self)).1
      exact absurd hchar (by decide)
    · cases hwild
  · rintro ⟨zone, name, h⟩
    have hzone := h.zone_form
    have hname := h.name_form
    have hsuffix := h.belongs
    rw [hzone.labels_eq, hname.labels_eq, splitChars_suffix_iff, String.toList_inj] at hsuffix
    rw [hzone.labels_eq] at hzone
    rw [hname.labels_eq] at hname
    exact ⟨hzone, hname, hsuffix, fun id hid => (hexId_iff id).mpr (h.zone_id id hid), h.ttl,
      h.proxied⟩

end Cirrusync
