import Cirrusync.RecordGrammar
import Cirrusync.Scenario
import Cirrusync.Toml.Reader

/-!
The checks of `validate` for canonical values after `Config::canonicalize`, and the
identities of the locks of two records that are no duplicates.
-/

namespace Cirrusync

open Text

/-- A complaint that a value is not canonical. -/
def AsksCanonical : ConfigError → Prop
  | .validation _ message => "must already be lowercase".toList <+: message.toList

theorem toString_string (text : String) : toString text = text := rfl

theorem AsksCanonical.head {field message : String}
    (h : AsksCanonical (.validation field message)) : message.toList.head? = some 'm' :=
  head?_of_isPrefix h rfl

/-- The names and identifiers are all as the checks of `validate` want them. -/
structure AlreadyCanonical (config : Config) : Prop where
  account : ∀ id ∈ config.cloudflare.accountId, id = toAsciiLowercase (trim id)
  zones : ∀ record ∈ config.records, record.zone = canonicalDnsName record.zone
  names : ∀ record ∈ config.records, record.name = canonicalDnsName record.name
  zoneIds : ∀ record ∈ config.records, ∀ id ∈ record.zoneId, id = toAsciiLowercase (trim id)

theorem canonicalId_fixed (value : Option String) :
    ∀ id ∈ canonicalId value, id = toAsciiLowercase (trim id) := by
  intro id hid
  obtain ⟨hmap, -⟩ := Option.mem_filter_iff.mp hid
  obtain ⟨text, -, rfl⟩ := Option.map_eq_some_iff.mp hmap
  have hends : ∀ c ∈ ((trimChars text.toList).map Char.toLower).head?, isWhitespace c = false := by
    intro c hc
    rw [List.head?_map] at hc
    obtain ⟨d, hd, rfl⟩ := Option.map_eq_some_iff.mp hc
    rw [toLower_whitespace]
    exact head?_trimChars hd
  have hlast : ∀ c ∈ ((trimChars text.toList).map Char.toLower).getLast?,
      isWhitespace c = false := by
    intro c hc
    rw [List.getLast?_map] at hc
    obtain ⟨d, hd, rfl⟩ := Option.map_eq_some_iff.mp hc
    rw [toLower_whitespace]
    exact getLast?_trimChars hd
  rw [← String.toList_inj]
  simp only [toList_toAsciiLowercase, trim, String.toList_ofList, trimChars_of_ends hends hlast,
    map_toLower_idem]

theorem canonicalize_alreadyCanonical_iff (config : Config) :
    AlreadyCanonical config.canonicalize ↔
      ∀ record ∈ config.records, ¬SpaceBeforeDots record.zone ∧ ¬SpaceBeforeDots record.name := by
  constructor
  · intro h record hrecord
    have hmem : record.canonicalize ∈ config.canonicalize.records := List.mem_map_of_mem hrecord
    exact ⟨(canonicalDnsName_idem_iff _).mp (h.zones _ hmem).symm,
      (canonicalDnsName_idem_iff _).mp (h.names _ hmem).symm⟩
  · intro h
    have hrecords : ∀ record ∈ config.canonicalize.records,
        ∃ written ∈ config.records, record = written.canonicalize := by
      intro record hrecord
      obtain ⟨written, hwritten, heq⟩ := List.mem_map.mp hrecord
      exact ⟨written, hwritten, heq.symm⟩
    constructor
    · exact canonicalId_fixed config.cloudflare.accountId
    · intro record hrecord
      obtain ⟨written, hwritten, rfl⟩ := hrecords record hrecord
      exact ((canonicalDnsName_idem_iff _).mpr (h written hwritten).1).symm
    · intro record hrecord
      obtain ⟨written, hwritten, rfl⟩ := hrecords record hrecord
      exact ((canonicalDnsName_idem_iff _).mpr (h written hwritten).2).symm
    · intro record hrecord
      obtain ⟨written, -, rfl⟩ := hrecords record hrecord
      exact canonicalId_fixed written.zoneId

/-- Every error of a result has a property. -/
def FailsWith {ε α : Type} (property : ε → Prop) (result : Except ε α) : Prop :=
  ∀ error, result = .error error → property error

section

variable {ε ε' α β : Type} {property : ε → Prop}

theorem FailsWith.ok (value : α) : FailsWith property (.ok value) := by
  intro error h
  cases h

theorem FailsWith.ensure {condition : Bool} {error : ε} (h : condition = false → property error) :
    FailsWith property (ensure condition error) := by
  intro raised hraised
  obtain ⟨hfalse, rfl⟩ := (ensure_error condition error raised).mp hraised
  exact h hfalse

theorem FailsWith.bind {first : Except ε α} {rest : α → Except ε β}
    (hfirst : FailsWith property first)
    (hrest : ∀ value, first = .ok value → FailsWith property (rest value)) :
    FailsWith property (first >>= rest) := by
  cases first with
  | error error =>
      intro raised hraised
      cases hraised
      exact hfirst error rfl
  | ok value => exact hrest value rfl

theorem FailsWith.mapError {f : ε' → ε} {result : Except ε' α}
    (h : FailsWith (fun error => property (f error)) result) :
    FailsWith property (result.mapError f) := by
  cases result with
  | error error =>
      intro raised hraised
      cases hraised
      exact h error rfl
  | ok value => exact FailsWith.ok value

end

theorem validateLabel_complaint (allowWildcard : Bool) (index : Nat) (label : List Char) :
    FailsWith (fun message => ¬"must already be lowercase".toList <+: message.toList)
      (validateLabel allowWildcard index label) := by
  unfold validateLabel
  refine .bind (.ensure fun _ => by decide) (fun _ _ => ?_)
  split
  · exact .ok ()
  · refine .bind (.ensure fun _ => by decide) (fun _ _ => ?_)
    refine .bind (.ensure fun _ => by decide) (fun _ _ => ?_)
    exact .ensure fun _ => by decide

theorem validateLabels_complaint (allowWildcard : Bool) (index : Nat) (labels : List (List Char)) :
    FailsWith (fun message => ¬"must already be lowercase".toList <+: message.toList)
      (validateLabels allowWildcard index labels) := by
  induction labels generalizing index with
  | nil => exact .ok ()
  | cons label labels ih =>
      exact .bind (validateLabel_complaint allowWildcard index label) (fun _ _ => ih (index + 1))

theorem validateDnsName_complaint (field name : String) (allowWildcard : Bool) :
    FailsWith (fun error => ¬AsksCanonical error)
      ((validateDnsName name allowWildcard).mapError (.validation field)) := by
  refine .mapError ?_
  unfold validateDnsName
  refine .bind (.ensure fun _ => by simp only [AsksCanonical]; decide) (fun _ _ => ?_)
  refine .bind (.ensure fun _ => by simp only [AsksCanonical]; decide) (fun _ _ => ?_)
  exact validateLabels_complaint allowWildcard 0 _

/-- A name that passed its check has no space, and so does not start the complaint. -/
theorem foreignName_complaint {name : String} (hvalid : validateDnsName name true = .ok ())
    (hself : name = canonicalDnsName name) (field zone : String) :
    ¬AsksCanonical (.validation field s!"{name} does not belong to zone {zone}") := by
  have hform := (dnsName_iff name true).mp ⟨hself, hvalid⟩
  have hword : ∀ c ∈ name.toList, (c != ' ') = true := by
    intro c hc
    rw [bne_iff_ne]
    rintro rfl
    exact absurd (hform.chars hc).1 (by decide)
  have htext : s!"{name} does not belong to zone {zone}" =
      name ++ (" does not belong to zone " ++ zone) := String.append_assoc
  rw [AsksCanonical, htext, String.toList_append, String.toList_append]
  rintro ⟨more, hmore⟩
  have hleft : ("must".toList ++ (" already be lowercase".toList ++ more)).dropWhile (· != ' ') =
      " already be lowercase".toList ++ more :=
    (takeWhile_append_class (List.all_eq_true.mp (by decide)) (fun c hc => by cases hc; decide)).2
  have hright : (name.toList ++ (" does not belong to zone ".toList ++ zone.toList)).dropWhile
      (· != ' ') = " does not belong to zone ".toList ++ zone.toList :=
    (takeWhile_append_class hword (fun c hc => by cases hc; decide)).2
  have hsame : " already be lowercase".toList ++ more =
      " does not belong to zone ".toList ++ zone.toList := by
    rw [← hleft, ← hright, ← hmore]
    rfl
  cases hsame

theorem hexId_complaint {id : String} (hid : id = toAsciiLowercase (trim id))
    (error : ConfigError) (field : String) :
    FailsWith (fun error => ¬AsksCanonical error) (do
      ensure (id == toAsciiLowercase (trim id)) error
      ensure (isHexId id) (.validation field "must be exactly 32 hexadecimal characters")) := by
  refine .bind (.ensure fun h => ?_) (fun _ _ => .ensure fun _ => ?_)
  · rw [← hid] at h
    simp at h
  · simp only [AsksCanonical]
    decide

theorem validateRecord_complaint {record : RecordConfig}
    (hzone : record.zone = canonicalDnsName record.zone)
    (hname : record.name = canonicalDnsName record.name)
    (hid : ∀ id ∈ record.zoneId, id = toAsciiLowercase (trim id)) (field : String) :
    FailsWith (fun error => ¬AsksCanonical error) (validateRecord record field) := by
  have htail : FailsWith (fun error => ¬AsksCanonical error) (do
      ensure (record.ttl == 1 || (60 ≤ record.ttl && record.ttl ≤ 86400))
        (.validation s!"{field}.ttl" "must be 1 (automatic) or between 60 and 86400 seconds")
      ensure (!(record.proxied && record.ttl != 1))
        (.validation s!"{field}.ttl" "must be 1 (automatic) when proxied is true")) := by
    refine .bind (.ensure fun _ => ?_) (fun _ _ => .ensure fun _ => ?_)
    · simp only [AsksCanonical]
      decide
    · simp only [AsksCanonical]
      decide
  unfold validateRecord
  rw [← hzone, ← hname]
  refine .bind (.ensure fun h => by simp at h) (fun _ _ => ?_)
  refine .bind (.ensure fun h => by simp at h) (fun _ _ => ?_)
  refine .bind (validateDnsName_complaint _ _ _) (fun _ _ => ?_)
  refine .bind (validateDnsName_complaint _ _ _) (fun _ hvalid => ?_)
  refine .bind (.ensure fun _ => foreignName_complaint (mapError_eq_ok_iff.mp hvalid) hname _ _)
    (fun _ _ => ?_)
  cases hzoneId : record.zoneId with
  | none => exact htail
  | some id =>
      exact .bind (hexId_complaint (hid id (by simp [hzoneId])) _ _) (fun _ _ => htail)

theorem validateRecords_complaint {config : Config}
    (h : AlreadyCanonical config) {records : List RecordConfig}
    (hrecords : ∀ record ∈ records, record ∈ config.records) (index : Nat)
    (unique : List (String × String × RecordType)) :
    FailsWith (fun error => ¬AsksCanonical error)
      (config.validateRecords index unique records) := by
  induction records generalizing index unique with
  | nil => exact .ok ()
  | cons record rest ih =>
      have hrecord := hrecords record List.mem_cons_self
      unfold Config.validateRecords
      refine .bind (validateRecord_complaint (h.zones record hrecord) (h.names record hrecord)
        (h.zoneIds record hrecord) _) (fun _ _ => ?_)
      refine .bind (.ensure fun _ => ?_) (fun _ _ => ?_)
      · intro h
        cases htype : record.recordType with
        | a => simpa [htype, toString_string, RecordType.asStr] using h.head
        | aaaa => simpa [htype, toString_string, RecordType.asStr] using h.head
      · refine .bind (.ensure fun _ h => ?_) (fun _ _ => ?_)
        · simpa [toString_string] using h.head
        · exact ih (fun other hother => hrecords other (List.mem_cons_of_mem _ hother)) _ _

theorem validateRange_complaint (field : String) (value min max : Nat) :
    FailsWith (fun error => ¬AsksCanonical error) (validateRange field value min max) := by
  refine .ensure fun _ h => ?_
  rw [AsksCanonical] at h
  simp only [String.toList_append, toString_string, List.append_assoc] at h
  rcases List.prefix_or_prefix_of_prefix (List.prefix_append _ _) h with hother | hother
  · exact absurd hother (by decide)
  · exact absurd hother (by decide)

section

variable [Externals]

theorem validateProviders_complaint (field : String) (index : Nat) (seen providers : List String) :
    FailsWith (fun error => ¬AsksCanonical error)
      (validateProviders field index seen providers) := by
  induction providers generalizing index seen with
  | nil => exact .ok ()
  | cons provider rest ih =>
      refine .bind ?_ (fun url _ => ih _ _)
      unfold validateProvider
      refine .bind (.ensure fun _ h => by simpa using h.head) (fun _ _ => ?_)
      refine .bind (.mapError fun error _ h => ?_) (fun url _ => ?_)
      · simpa [toString_string] using h.head
      · refine .bind (.ensure fun _ h => by simpa using h.head) (fun _ _ => ?_)
        refine .bind (.ensure fun _ h => by simpa using h.head) (fun _ _ => ?_)
        refine .bind (.ensure fun _ h => by simpa using h.head) (fun _ _ => ?_)
        refine .bind (.ensure fun _ h => by simpa using h.head) (fun _ _ => ?_)
        exact .bind (.ensure fun _ h => by simpa using h.head) (fun _ _ => .ok _)

theorem validateDiscovery_complaint (field : String) (discovery : IpDiscoveryConfig) :
    FailsWith (fun error => ¬AsksCanonical error) (validateDiscovery field discovery) := by
  unfold validateDiscovery
  refine .bind (.ensure fun _ => ?_) (fun _ _ => ?_)
  · simp only [AsksCanonical]
    decide
  · refine .bind (.ensure fun _ h => ?_) (fun _ _ => validateProviders_complaint _ _ _ _)
    simpa [toString_string] using h.head

/-- A configuration whose values are canonical never meets the complaint. -/
theorem validate_complaint {config : Config} (h : AlreadyCanonical config) :
    FailsWith (fun error => ¬AsksCanonical error) config.validate := by
  have htail : FailsWith (fun error => ¬AsksCanonical error) (do
      ensure (!config.records.isEmpty)
        (.validation "records" "at least one record is required")
      ensure (config.records.length ≤ maxRecords)
        (.validation "records" s!"at most {maxRecords} records are allowed")
      validateDiscovery "ipv4" config.ipv4
      validateDiscovery "ipv6" config.ipv6
      config.validateRecords 0 [] config.records) := by
    refine .bind (.ensure fun _ h => by simpa using h.head) (fun _ _ => ?_)
    refine .bind (.ensure fun _ h => by simpa [toString_string] using h.head) (fun _ _ => ?_)
    refine .bind (validateDiscovery_complaint _ _) (fun _ _ => ?_)
    refine .bind (validateDiscovery_complaint _ _) (fun _ _ => ?_)
    exact validateRecords_complaint h (fun _ hrecord => hrecord) _ _
  unfold Config.validate
  refine .bind (validateRange_complaint _ _ _ _) (fun _ _ => ?_)
  refine .bind (validateRange_complaint _ _ _ _) (fun _ _ => ?_)
  refine .bind (.ensure fun _ => ?_) (fun _ _ => ?_)
  · simp only [AsksCanonical]
    decide
  · cases haccount : config.cloudflare.accountId with
    | none => exact htail
    | some id =>
        exact .bind (hexId_complaint (h.account id (by simp [haccount])) _ _) (fun _ _ => htail)

end

/-! ## Lock identities -/

theorem nul_notMem_of_host {text : List Char} (h : ∀ c ∈ text, isHostChar c = true) :
    '\x00' ∉ text := by
  intro hmem
  exact absurd (h _ hmem) (by decide)

theorem canonicalLockName_eq (name : String) : canonicalLockName name = canonicalDnsName name := rfl

theorem toList_resourceIdentity (record : RecordConfig) :
    (resourceIdentity record).toList = (canonicalDnsName record.zone).toList ++
      '\x00' :: (record.recordType.asStr.toList ++
        '\x00' :: (canonicalDnsName record.name).toList) := by
  unfold resourceIdentity
  simp only [canonicalLockName_eq, String.toList_append, List.append_assoc]
  rfl

theorem asStr_injective {first second : RecordType} (h : first.asStr = second.asStr) :
    first = second := by
  cases first <;> cases second <;> first | rfl | exact absurd h (by decide)

/-- Records that are no duplicates have different lock identities. -/
theorem resourceIdentity_ne {record other : RecordConfig} (hrecord : ValidRecord record)
    (hother : ValidRecord other) (hkey : record.key ≠ other.key) :
    resourceIdentity record ≠ resourceIdentity other := by
  have hpieces : ∀ {valid : RecordConfig}, ValidRecord valid →
      splitChars '\x00' (resourceIdentity valid).toList =
        (canonicalDnsName valid.zone).toList :: valid.recordType.asStr.toList ::
          splitChars '\x00' (canonicalDnsName valid.name).toList := by
    intro valid hvalid
    have hzone : '\x00' ∉ (canonicalDnsName valid.zone).toList := by
      rw [← hvalid.zone_eq]
      exact nul_notMem_of_host hvalid.zone_chars
    have htype : '\x00' ∉ valid.recordType.asStr.toList := by
      cases valid.recordType <;> decide
    rw [toList_resourceIdentity, splitChars_append, splitChars_append, splitChars_of_not_mem hzone,
      splitChars_of_not_mem htype, List.singleton_append, List.singleton_append]
  intro hsame
  have hsplit := congrArg (fun identity => splitChars '\x00' identity.toList) hsame
  simp only [hpieces hrecord, hpieces hother, List.cons.injEq] at hsplit
  obtain ⟨hzone, htype, hname⟩ := hsplit
  have hjoined := congrArg ([Char.ofNat 0].intercalate ·) hname
  simp only [intercalate_splitChars] at hjoined
  refine hkey (Prod.ext (String.toList_inj.mp hzone) (Prod.ext (String.toList_inj.mp hjoined) ?_))
  exact asStr_injective (String.toList_inj.mp htype)

/-- Canonical names are fixed points and pass the checks for them, but for names with
white space before the dots at their end; records that are no duplicates have
different locks. -/
theorem canonicalization_exact [Externals] :
    (∀ name : String, canonicalLockName name = canonicalDnsName name ∧
      (canonicalDnsName (canonicalDnsName name) = canonicalDnsName name ↔
        ¬SpaceBeforeDots name) ∧
      (canonicalLockName (canonicalLockName name) = canonicalLockName name ↔
        ¬SpaceBeforeDots name)) ∧
    (∀ config : Config,
      (AlreadyCanonical config.canonicalize ↔ ∀ record ∈ config.records,
        ¬SpaceBeforeDots record.zone ∧ ¬SpaceBeforeDots record.name) ∧
      (AlreadyCanonical config.canonicalize →
        FailsWith (fun error => ¬AsksCanonical error) config.canonicalize.validate) ∧
      (¬AlreadyCanonical config.canonicalize → config.canonicalize.validate ≠ .ok ())) ∧
    ∀ (record other : RecordConfig) (field field' : String),
      validateRecord record field = .ok () → validateRecord other field' = .ok () →
        record.key ≠ other.key → resourceIdentity record ≠ resourceIdentity other := by
  refine ⟨fun name => ⟨canonicalLockName_eq name, canonicalDnsName_idem_iff name,
    canonicalDnsName_idem_iff name⟩, fun config => ⟨canonicalize_alreadyCanonical_iff config,
    validate_complaint, fun hnot haccepted => hnot ?_⟩, fun record other field field' hrecord
    hother hkey => resourceIdentity_ne (validateRecord_ok hrecord) (validateRecord_ok hother) hkey⟩
  obtain ⟨hvalid, -, -⟩ := Config.validate_ok haccepted
  refine ⟨canonicalId_fixed config.cloudflare.accountId, fun record hrecord =>
    (hvalid record hrecord).zone_eq, fun record hrecord => (hvalid record hrecord).name_eq, ?_⟩
  intro record hrecord
  obtain ⟨written, -, rfl⟩ := List.mem_map.mp hrecord
  exact canonicalId_fixed written.zoneId

def spacedText : List Char :=
  "[[records]]\nzone = \"example.com .\"\nname = \"home.example.com\"\ntype = \"A\"\n".toList

theorem spaced_zone_refused :
    canonicalDnsName (canonicalDnsName "example.com .") ≠ canonicalDnsName "example.com ." ∧
      @Config.fromToml exampleExternals TomlDoc.readTable spacedText =
        .error (.validation (.validation "records[0].zone"
          "must already be lowercase, trimmed, and without a trailing dot")) := by
  constructor
  · decide
  · decide +kernel

end Cirrusync
