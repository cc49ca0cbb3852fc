import Cirrusync.Config

/-!
What `validate` promises of the records of a configuration.
-/

namespace Cirrusync

open Text

namespace Text

/-- A character of a text is a separator or in one of the pieces between the separators. -/
theorem mem_splitChars {separator c : Char} {cs : List Char} (h : c ∈ cs) :
    c = separator ∨ ∃ piece ∈ splitChars separator cs, c ∈ piece := by
  induction cs with
  | nil => cases h
  | cons first rest ih =>
      unfold splitChars
      by_cases hfirst : first = separator
      · rcases List.mem_cons.mp h with rfl | h
        · exact .inl hfirst
        · rw [if_pos hfirst]
          rcases ih h with heq | ⟨piece, member, hc⟩
          · exact .inl heq
          · exact .inr ⟨piece, List.mem_cons_of_mem _ member, hc⟩
      · rw [if_neg hfirst]
        cases hrest : splitChars separator rest with
        | nil =>
            rw [hrest] at ih
            rcases List.mem_cons.mp h with rfl | h
            · exact .inr ⟨[c], List.mem_cons_self, List.mem_cons_self⟩
            · rcases ih h with heq | ⟨piece, member, -⟩
              · exact .inl heq
              · cases member
        | cons piece pieces =>
            rw [hrest] at ih
            rcases List.mem_cons.mp h with rfl | h
            · exact .inr ⟨c :: piece, List.mem_cons_self, List.mem_cons_self⟩
            · rcases ih h with heq | ⟨other, member, hc⟩
              · exact .inl heq
              · rcases List.mem_cons.mp member with rfl | member
                · exact .inr ⟨first :: other, List.mem_cons_self, List.mem_cons_of_mem _ hc⟩
                · exact .inr ⟨other, List.mem_cons_of_mem _ member, hc⟩

end Text

/-- A character of a host name. -/
def isHostChar (c : Char) : Bool := isAlphanumeric c || c == '-' || c == '.'

theorem validateLabel_ok {index : Nat} {label : List Char} {value : Unit}
    (h : validateLabel false index label = .ok value) :
    label.all (fun c => isAlphanumeric c || c == '-') = true := by
  unfold validateLabel at h
  simp only [Bool.false_and, Bool.false_eq_true, if_false, ensure_bind_ok, ensure_ok] at h
  exact h.2.2.2

theorem validateLabels_ok {index : Nat} {labels : List (List Char)} {value : Unit}
    (h : validateLabels false index labels = .ok value) :
    ∀ label ∈ labels, label.all (fun c => isAlphanumeric c || c == '-') = true := by
  induction labels generalizing index with
  | nil => exact fun _ member => absurd member List.not_mem_nil
  | cons first rest ih =>
      unfold validateLabels at h
      obtain ⟨_, hfirst, hrest⟩ := (except_bind_ok _ _ _).mp h
      intro label member
      rcases List.mem_cons.mp member with rfl | member
      · exact validateLabel_ok hfirst
      · exact ih hrest label member

theorem validateDnsName_ok {name : String} {value : Unit}
    (h : validateDnsName name false = .ok value) : ∀ c ∈ name.toList, isHostChar c = true := by
  unfold validateDnsName at h
  simp only [ensure_bind_ok] at h
  have hlabels := validateLabels_ok h.2.2
  intro c member
  unfold isHostChar
  rcases @mem_splitChars '.' c _ member with rfl | ⟨label, hlabel, hc⟩
  · rfl
  · have hall := List.all_eq_true.mp (hlabels label hlabel) c hc
    rw [hall, Bool.true_or]

theorem mapError_eq_ok_iff {ε ε' α : Type} {f : ε → ε'} {result : Except ε α} {value : α} :
    result.mapError f = .ok value ↔ result = .ok value := by
  cases result with
  | error error => simp [Except.mapError]
  | ok found => simp [Except.mapError]

/-- A record as `validate` accepts it. -/
structure ValidRecord (record : RecordConfig) : Prop where
  zone_eq : record.zone = canonicalDnsName record.zone
  name_eq : record.name = canonicalDnsName record.name
  zone_chars : ∀ c ∈ record.zone.toList, isHostChar c = true

theorem validateRecord_ok {record : RecordConfig} {field : String} {value : Unit}
    (h : validateRecord record field = .ok value) : ValidRecord record := by
  unfold validateRecord at h
  simp only [except_bind_ok, ensure_ok, beq_iff_eq] at h
  obtain ⟨_, hzone, _, hname, _, hchars, -⟩ := h
  refine ⟨hzone, hname, ?_⟩
  rw [hzone]
  exact validateDnsName_ok (mapError_eq_ok_iff.mp hchars)

theorem canonicalDnsName_lower (name : String) :
    toAsciiLowercase (canonicalDnsName name) = canonicalDnsName name :=
  toAsciiLowercase_idem _

theorem ValidRecord.zone_lower {record : RecordConfig} (h : ValidRecord record) :
    toAsciiLowercase record.zone = record.zone := by
  rw [h.zone_eq]
  exact canonicalDnsName_lower record.zone

theorem ValidRecord.name_lower {record : RecordConfig} (h : ValidRecord record) :
    toAsciiLowercase record.name = record.name := by
  rw [h.name_eq]
  exact canonicalDnsName_lower record.name

theorem validateRecords_ok {config : Config} {index : Nat}
    {unique : List (String × String × RecordType)} {records : List RecordConfig} {value : Unit}
    (h : config.validateRecords index unique records = .ok value) :
    (∀ record ∈ records, ValidRecord record ∧
      (config.discoveryFor record.recordType.family).enabled = true ∧ record.key ∉ unique) ∧
      records.Pairwise (fun first second => first.key ≠ second.key) := by
  induction records generalizing index unique with
  | nil => exact ⟨fun _ member => absurd member List.not_mem_nil, List.Pairwise.nil⟩
  | cons first rest ih =>
      unfold Config.validateRecords at h
      simp only [except_bind_ok, ensure_ok, Bool.not_eq_true'] at h
      obtain ⟨_, hvalid, _, henabled, _, hunique, hrest⟩ := h
      obtain ⟨hall, hdistinct⟩ := ih hrest
      refine ⟨fun record member => ?_, List.pairwise_cons.mpr ⟨fun second member => ?_,
        hdistinct⟩⟩
      · rcases List.mem_cons.mp member with rfl | member
        · exact ⟨validateRecord_ok hvalid, henabled, by simpa using hunique⟩
        · obtain ⟨hrecord, hfamily, hkey⟩ := hall record member
          exact ⟨hrecord, hfamily, fun hmem => hkey (List.mem_cons_of_mem _ hmem)⟩
      · intro hsame
        obtain ⟨-, -, hkey⟩ := hall second member
        rw [← hsame] at hkey
        exact hkey List.mem_cons_self

section

variable [Externals]

/-- What an accepted configuration promises of its records. -/
theorem Config.validate_ok {config : Config} {value : Unit}
    (h : config.validate = .ok value) :
    (∀ record ∈ config.records, ValidRecord record) ∧
      config.records.Pairwise (fun first second => first.key ≠ second.key) ∧
      config.records ≠ [] := by
  unfold Config.validate at h
  simp only [except_bind_ok, ensure_ok] at h
  obtain ⟨_, -, _, -, _, -, h⟩ := h
  have htail : (!config.records.isEmpty) = true ∧
      config.validateRecords 0 [] config.records = .ok value := by
    cases haccount : config.cloudflare.accountId with
    | none =>
        simp only [haccount, except_bind_ok, ensure_ok] at h
        obtain ⟨_, hnonempty, _, -, _, -, _, -, hrecords⟩ := h
        exact ⟨hnonempty, hrecords⟩
    | some accountId =>
        simp only [haccount, except_bind_ok, ensure_ok] at h
        obtain ⟨_, -, _, hnonempty, _, -, _, -, _, -, hrecords⟩ := h
        exact ⟨hnonempty, hrecords⟩
  obtain ⟨hnonempty, hrecords⟩ := htail
  obtain ⟨hall, hdistinct⟩ := validateRecords_ok hrecords
  refine ⟨fun record member => (hall record member).1, hdistinct, ?_⟩
  simpa using hnonempty

end

end Cirrusync
