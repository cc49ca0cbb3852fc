import Cirrusync.Configure.Settings

/-!
`from_toml` on the text of the installer: the settings it decodes to, and that
they pass the validation of the daemon.
-/

namespace Cirrusync.Configure

open Text Shell Release TomlDoc

/-- The record types of the enabled families. -/
def familyTypes (answers : Answers) : List RecordType :=
  (if answers.ipv4 then [.a] else []) ++ (if answers.ipv6 then [.aaaa] else [])

/-- The settings of a token path, an interval, the entered flags and the names. -/
def settingsOf (tokenPath : List Char) (interval : Nat) (answers : Answers)
    (zone record : String) : Config where
  intervalSeconds := interval
  requestTimeoutSeconds := 15
  cloudflare := ⟨.ofList tokenPath, none⟩
  ipv4 := ⟨answers.ipv4, [tracePage, ipifyPage]⟩
  ipv6 := ⟨answers.ipv6, [ipify6Page]⟩
  records := (familyTypes answers).map (fun recordType =>
    ⟨zone, none, record, recordType, ttlOf answers.proxied, answers.proxied,
      answers.createMissing⟩)

theorem decodeUnsigned_ofNat {bound number : Nat} (h : number < bound) :
    decodeUnsigned bound (.integer number) = some number := by
  have hrange : (0 : Int) ≤ number ∧ (number : Int) < bound := by omega
  simp only [decodeUnsigned, hrange, and_self, if_true, Int.toNat_natCast]

theorem readField_bind {α β : Type} {fields : String → Option Value} {name : String}
    {decode : Value → Option α} {default : Option α} {value : Value} {result : α}
    {next : α → Option β} (hfield : fields name = some value)
    (hvalue : decode value = some result) :
    (readField fields name decode default >>= next) = next result := by
  have hread : readField fields name decode default = some result := by
    rw [readField, hfield]
    exact hvalue
  rw [hread]
  rfl

theorem readField_bind_default {α β : Type} {fields : String → Option Value} {name : String}
    {decode : Value → Option α} {result : α} {next : α → Option β} (hfield : fields name = none) :
    (readField fields name decode (some result) >>= next) = next result := by
  rw [readField, hfield]
  rfl

theorem decodeRecord_entries (recordType : RecordType) (answers : Answers) :
    decodeRecord (.table (entriesTable (recordEntries recordType.asStr answers))) =
      some ⟨.ofList answers.zone, none, .ofList answers.record, recordType,
        ttlOf answers.proxied, answers.proxied, answers.createMissing⟩ := by
  have hbound : ttlOf answers.proxied < 2 ^ 32 := by
    unfold ttlOf
    split <;> omega
  have hknown : knownFields (entriesTable (recordEntries recordType.asStr answers))
      ["zone", "zone_id", "name", "type", "ttl", "proxied", "create_if_missing"] = true := by
    simp [knownFields, entriesTable, recordEntries]
  have htype : decodeRecordType (.string (.ofList recordType.asStr.toList)) = some recordType := by
    cases recordType <;> rfl
  unfold decodeRecord
  rw [fieldsOf_table hknown, Option.bind_eq_bind, Option.bind_some]
  generalize 2 ^ 32 = bound at hbound ⊢
  -- Field by field, in the order in which they are read.
  refine Eq.trans (readField_bind (by rfl) (by rfl)) ?_
  refine Eq.trans (readField_bind_default (by rfl)) ?_
  refine Eq.trans (readField_bind (by rfl) (by rfl)) ?_
  refine Eq.trans (readField_bind (by rfl) htype) ?_
  refine Eq.trans (readField_bind (by rfl) (decodeUnsigned_ofNat hbound)) ?_
  refine Eq.trans (readField_bind (by rfl) (by rfl)) ?_
  exact readField_bind (by rfl) (by rfl)

theorem mapM_map_some {α β γ : Type} {decode : β → Option γ} {encode : α → β} {result : α → γ}
    {items : List α} (h : ∀ item ∈ items, decode (encode item) = some (result item)) :
    (items.map encode).mapM decode = some (items.map result) := by
  induction items with
  | nil => rfl
  | cons item items ih =>
      have hrest := ih (fun other member => h other (List.mem_cons_of_mem _ member))
      rw [List.map_cons, List.mapM_cons, h item List.mem_cons_self, hrest]
      rfl

theorem decodeDiscovery_block (enabled : Bool) (providers : List String) :
    decodeDiscovery (.table (entriesTable [⟨"enabled", .boolean enabled⟩,
      ⟨"providers", .strings (providers.map String.toList)⟩])) = some ⟨enabled, providers⟩ := by
  have hitems : decodeVec decodeString (Literal.strings (providers.map String.toList)).value =
      some providers := by
    have hmapped := @mapM_map_some _ _ _ decodeString
      (fun provider : String => Value.string (.ofList provider.toList)) id providers
      (by simp [decodeString])
    rw [List.map_id] at hmapped
    rw [Literal.value, decodeVec, List.map_map]
    exact hmapped
  have hknown : knownFields (entriesTable [⟨"enabled", .boolean enabled⟩,
      ⟨"providers", .strings (providers.map String.toList)⟩]) ["enabled", "providers"] = true := by
    simp [knownFields, entriesTable]
  have hproviders : readField (fun name => (entriesTable [⟨"enabled", .boolean enabled⟩,
      ⟨"providers", .strings (providers.map String.toList)⟩]).lookup name) "providers"
      (decodeVec decodeString) (some []) = some providers := by
    simpa [readField, entriesTable, List.lookup_cons] using hitems
  simp only [decodeDiscovery, fieldsOf_table hknown, Option.bind_eq_bind, Option.bind_some,
    hproviders]
  rfl

/-- The entries of the document's table. -/
theorem settingsDocument_value (tokenPath : List Char) (interval : Nat) {answers : Answers}
    (hfamily : answers.ipv4 || answers.ipv6) :
    (settingsDocument tokenPath interval answers).value =
      [("interval_seconds", .integer interval), ("request_timeout_seconds", .integer 15),
        ("cloudflare", .table (entriesTable (cloudflareBlock tokenPath).entries)),
        ("ipv4", .table (entriesTable (ipv4Block answers).entries)),
        ("ipv6", .table (entriesTable (ipv6Block answers).entries)),
        ("records", .array ((familyTypes answers).map (fun recordType =>
          .table (entriesTable (recordEntries recordType.asStr answers)))))] := by
  have hnames : (settingsDocument tokenPath interval answers).elementNames.eraseDups =
      ["records"] := by
    cases h4 : answers.ipv4 <;> cases h6 : answers.ipv6 <;> simp [h4, h6] at hfamily <;>
      simp [Document.elementNames, settingsDocument, settingsBlocks, recordTypes, h4, h6,
        cloudflareBlock, ipv4Block, ipv6Block] <;> rfl
  have hrecords : (settingsDocument tokenPath interval answers).blocks.filterMap
      (Block.asElement "records") = (familyTypes answers).map (fun recordType =>
        .table (entriesTable (recordEntries recordType.asStr answers))) := by
    cases h4 : answers.ipv4 <;> cases h6 : answers.ipv6 <;>
      simp [settingsDocument, settingsBlocks, recordTypes, familyTypes, h4, h6, cloudflareBlock,
        ipv4Block, ipv6Block, Block.asElement, RecordType.asStr]
  have htables : (settingsDocument tokenPath interval answers).blocks.filterMap Block.asTable =
      [("cloudflare", .table (entriesTable (cloudflareBlock tokenPath).entries)),
        ("ipv4", .table (entriesTable (ipv4Block answers).entries)),
        ("ipv6", .table (entriesTable (ipv6Block answers).entries))] := by
    simp [settingsDocument, settingsBlocks, List.filterMap_map, Block.asTable, cloudflareBlock,
      ipv4Block, ipv6Block]
  rw [Document.value, hnames, htables]
  simp only [List.map_cons, List.map_nil, hrecords]
  rfl

/-- A table with every setting is decoded entry by entry. -/
theorem decodeConfig_complete {interval timeout cloudflare ipv4 ipv6 records : Value}
    {config : Config}
    (hinterval : decodeUnsigned (2 ^ 64) interval = some config.intervalSeconds)
    (htimeout : decodeUnsigned (2 ^ 64) timeout = some config.requestTimeoutSeconds)
    (hcloudflare : decodeCloudflare cloudflare = some config.cloudflare)
    (hipv4 : decodeDiscovery ipv4 = some config.ipv4)
    (hipv6 : decodeDiscovery ipv6 = some config.ipv6)
    (hrecords : decodeVec decodeRecord records = some config.records) :
    decodeConfig [("interval_seconds", interval), ("request_timeout_seconds", timeout),
      ("cloudflare", cloudflare), ("ipv4", ipv4), ("ipv6", ipv6), ("records", records)] =
      some config := by
  have hknown : knownFields [("interval_seconds", interval), ("request_timeout_seconds", timeout),
      ("cloudflare", cloudflare), ("ipv4", ipv4), ("ipv6", ipv6), ("records", records)]
      ["interval_seconds", "request_timeout_seconds", "cloudflare", "ipv4", "ipv6",
        "records"] = true := by simp [knownFields]
  unfold decodeConfig
  rw [fieldsOf_table hknown, Option.bind_eq_bind, Option.bind_some]
  generalize 2 ^ 64 = bound at hinterval htimeout ⊢
  refine Eq.trans (readField_bind (by rfl) hinterval) ?_
  refine Eq.trans (readField_bind (by rfl) htimeout) ?_
  refine Eq.trans (readField_bind (by rfl) hcloudflare) ?_
  refine Eq.trans (readField_bind (by rfl) hipv4) ?_
  refine Eq.trans (readField_bind (by rfl) hipv6) ?_
  exact readField_bind (by rfl) hrecords

theorem decodeConfig_settings (tokenPath : List Char) {interval : Nat} {answers : Answers}
    (hinterval : interval < 2 ^ 64) (hfamily : answers.ipv4 || answers.ipv6) :
    decodeConfig (settingsDocument tokenPath interval answers).value =
      some (settingsOf tokenPath interval answers (.ofList answers.zone)
        (.ofList answers.record)) := by
  have hrecords := @mapM_map_some _ _ _ decodeRecord
    (fun recordType : RecordType =>
      Value.table (entriesTable (recordEntries recordType.asStr answers)))
    (fun recordType => ⟨.ofList answers.zone, none, .ofList answers.record, recordType,
      ttlOf answers.proxied, answers.proxied, answers.createMissing⟩) (familyTypes answers)
    (fun recordType _ => decodeRecord_entries recordType answers)
  have hipv4 := decodeDiscovery_block answers.ipv4 [tracePage, ipifyPage]
  have hipv6 := decodeDiscovery_block answers.ipv6 [ipify6Page]
  have hseconds := decodeUnsigned_ofNat hinterval
  rw [settingsDocument_value tokenPath interval hfamily]
  exact decodeConfig_complete hseconds rfl rfl hipv4 hipv6 hrecords

theorem ValidName.canonicalDnsName_written {name : List Char} (h : ValidName name) :
    canonicalDnsName (.ofList name) = .ofList (canonicalName name) := by
  have htrim : trimChars name = name := by
    have hrest := @trimChars_append _ [] h.chars (by simp)
    simpa using hrest
  rw [canonicalDnsName_ofList, htrim]

theorem canonicalize_settings (tokenPath : List Char) (interval : Nat) (answers : Answers)
    (zone record : String) :
    (settingsOf tokenPath interval answers zone record).canonicalize =
      settingsOf tokenPath interval answers (canonicalDnsName zone) (canonicalDnsName record) := by
  have hpages : [tracePage, ipifyPage].map trim = [tracePage, ipifyPage] ∧
      [ipify6Page].map trim = [ipify6Page] := by decide +kernel
  simp only [Config.canonicalize, settingsOf, IpDiscoveryConfig.canonicalize, hpages.1, hpages.2,
    canonicalId, Option.map_none, Option.filter_none, List.map_map]
  congr 1

/-- The records pass the checks of the daemon. -/
theorem validateRecord_settings {zone record : List Char} (hzone : ValidName zone)
    (hrecord : ValidName record)
    (hsuffix : record.map Char.toLower = zone.map Char.toLower ∨
      '.' :: zone.map Char.toLower <:+ record.map Char.toLower)
    (recordType : RecordType) (proxied createIfMissing : Bool) (field : String) :
    validateRecord ⟨.ofList (canonicalName zone), none, .ofList (canonicalName record),
      recordType, ttlOf proxied, proxied, createIfMissing⟩ field = .ok () := by
  have hbelongs : (String.ofList (canonicalName record) == String.ofList (canonicalName zone) ||
      endsWith (.ofList (canonicalName record)) s!".{String.ofList (canonicalName zone)}") =
      true := by
    rcases hsuffix with hsame | hsuffix
    · have heq : canonicalName record = canonicalName zone := by
        rw [← lower_baseName record, ← lower_baseName zone, hsame]
      simp [heq]
    · have hend := canonicalName_suffix hzone hsuffix
      have htext : (s!".{String.ofList (canonicalName zone)}").toList =
          '.' :: canonicalName zone := by
        rw [String.toList_append]
        simp [ToString.toString]
      have hends : endsWith (.ofList (canonicalName record))
          s!".{String.ofList (canonicalName zone)}" = true := by
        rw [endsWith, htext]
        simpa using hend
      rw [hends, Bool.or_true]
  have httl : (ttlOf proxied == 1 || 60 ≤ ttlOf proxied && ttlOf proxied ≤ 86400) = true ∧
      (!(proxied && ttlOf proxied != 1)) = true := by
    cases proxied <;> decide
  unfold validateRecord
  simp only [hzone.canonicalDnsName_canonical, hrecord.canonicalDnsName_canonical,
    hzone.validateDnsName_ok, hrecord.validateDnsName_ok]
  simp only [hbelongs, httl.1, httl.2, beq_self_eq_true]
  rfl

section

variable [Externals]

/-- The three provider pages of the template as a URL parser reads them. -/
structure ParsesPages : Prop where
  trace : parseUrl tracePage = .ok ⟨"https", some "api.cloudflare.com", "", none, none,
    "https://api.cloudflare.com", "https://api.cloudflare.com/cdn-cgi/trace"⟩
  ipify : parseUrl ipifyPage = .ok ⟨"https", some "api.ipify.org", "", none, none,
    "https://api.ipify.org", "https://api.ipify.org/"⟩
  ipify6 : parseUrl ipify6Page = .ok ⟨"https", some "api6.ipify.org", "", none, none,
    "https://api6.ipify.org", "https://api6.ipify.org/"⟩

theorem validateProvider_ok {provider host origin serialization : String} {seen : List String}
    (field : String) (hlength : len provider ≤ 2048)
    (hurl : parseUrl provider = .ok ⟨"https", some host, "", none, none, origin, serialization⟩)
    (hnew : serialization ∉ seen) :
    validateProvider field provider seen = .ok serialization := by
  unfold validateProvider
  rw [hurl]
  simp [Except.mapError, hlength, hnew, pure, Except.pure]

theorem validateDiscovery_ipv4 (hpages : ParsesPages) (enabled : Bool) (field : String) :
    validateDiscovery field ⟨enabled, [tracePage, ipifyPage]⟩ = .ok () := by
  have hlengths : len tracePage ≤ 2048 ∧ len ipifyPage ≤ 2048 := by decide +kernel
  have htrace := fun name : String =>
    @validateProvider_ok _ _ _ _ _ [] name hlengths.1 hpages.trace (by simp)
  have hipify := fun name : String =>
    @validateProvider_ok _ _ _ _ _ ["https://api.cloudflare.com/cdn-cgi/trace"] name hlengths.2
      hpages.ipify (by simp)
  have hproviders : validateProviders field 0 [] [tracePage, ipifyPage] = .ok () := by
    simp [validateProviders, htrace, hipify, pure, Except.pure]
  unfold validateDiscovery
  simp [hproviders, maxProvidersPerFamily]

theorem validateDiscovery_ipv6 (hpages : ParsesPages) (enabled : Bool) (field : String) :
    validateDiscovery field ⟨enabled, [ipify6Page]⟩ = .ok () := by
  have hlength : len ipify6Page ≤ 2048 := by decide +kernel
  have hipify6 := fun name : String =>
    @validateProvider_ok _ _ _ _ _ [] name hlength hpages.ipify6 (by simp)
  have hproviders : validateProviders field 0 [] [ipify6Page] = .ok () := by
    simp [validateProviders, hipify6, pure, Except.pure]
  unfold validateDiscovery
  simp [hproviders, maxProvidersPerFamily]

/-- The daemon accepts the settings that the installer writes if the token path, the interval,
the chosen families and the records pass its checks. Every other value is one of the installer's
own and passes by evaluation. -/
theorem validate_settings (hpages : ParsesPages) {tokenPath : List Char} {interval : Nat}
    {answers : Answers} {zone record : String} (htoken : tokenPath.head? = some '/')
    (hinterval : 60 ≤ interval ∧ interval ≤ 86400) (hfamily : answers.ipv4 || answers.ipv6)
    (hrecords : ∀ recordType field, validateRecord ⟨zone, none, record, recordType,
      ttlOf answers.proxied, answers.proxied, answers.createMissing⟩ field = .ok ()) :
    (settingsOf tokenPath interval answers zone record).validate = .ok () := by
  have habsolute : startsWith (.ofList tokenPath) "/" = true := by
    cases tokenPath with
    | nil => cases htoken
    | cons c rest =>
        cases htoken
        simp [startsWith]
  have hall : (settingsOf tokenPath interval answers zone record).validateRecords 0 []
      (settingsOf tokenPath interval answers zone record).records = .ok () := by
    cases h4 : answers.ipv4 <;> cases h6 : answers.ipv6 <;> simp [h4, h6] at hfamily
    all_goals simp [settingsOf, familyTypes, h4, h6, Config.validateRecords, hrecords,
      RecordType.family, Config.discoveryFor, RecordConfig.key, pure, Except.pure]
  have hcount : (settingsOf tokenPath interval answers zone record).records ≠ [] ∧
      (settingsOf tokenPath interval answers zone record).records.length ≤ maxRecords := by
    cases h4 : answers.ipv4 <;> cases h6 : answers.ipv6 <;> simp [h4, h6] at hfamily
    all_goals simp [settingsOf, familyTypes, h4, h6, maxRecords]
  have hinterval : validateRange "interval_seconds"
      (settingsOf tokenPath interval answers zone record).intervalSeconds minIntervalSeconds
      maxIntervalSeconds = .ok () := by
    simp [validateRange, settingsOf, minIntervalSeconds, maxIntervalSeconds, hinterval]
  have htimeout : validateRange "request_timeout_seconds"
      (settingsOf tokenPath interval answers zone record).requestTimeoutSeconds
      minRequestTimeoutSeconds maxRequestTimeoutSeconds = .ok () := by
    simp [validateRange, settingsOf, minRequestTimeoutSeconds, maxRequestTimeoutSeconds]
  have hipv4 : validateDiscovery "ipv4" (settingsOf tokenPath interval answers zone record).ipv4 =
      .ok () := validateDiscovery_ipv4 hpages answers.ipv4 "ipv4"
  have hipv6 : validateDiscovery "ipv6" (settingsOf tokenPath interval answers zone record).ipv6 =
      .ok () := validateDiscovery_ipv6 hpages answers.ipv6 "ipv6"
  have hpath : startsWith
      (settingsOf tokenPath interval answers zone record).cloudflare.apiTokenFile "/" =
        true := habsolute
  have haccount : (settingsOf tokenPath interval answers zone record).cloudflare.accountId =
      none := rfl
  have hempty : (settingsOf tokenPath interval answers zone record).records.isEmpty = false := by
    simpa using hcount.1
  unfold Config.validate
  simp only [hinterval, htimeout, hpath, haccount, hempty, hcount.2, hipv4, hipv6, hall]
  rfl

end

end Cirrusync.Configure
