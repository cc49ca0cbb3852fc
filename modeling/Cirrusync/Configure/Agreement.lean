import Cirrusync.Configure.Acceptance
import Cirrusync.Toml.Reader
import Cirrusync.Scenario

/-!
Which inputs that pass the checks of the installer give a configuration that
the daemon takes: all but those with a line feed inside of a name, and those
with a token path that no string of the file can hold.
-/

namespace Cirrusync.Configure

open Text Shell Release TomlDoc

theorem answeredValue_eq {nonInteractive : Bool} {defaultValue value : List Char}
    {setting : Setting} (h : promptValue nonInteractive defaultValue setting = .ok value) :
    answeredValue nonInteractive defaultValue setting = .ok (substituted (value ++ ['\n'])) := by
  rw [answeredValue, h]
  rfl

/-- What is kept of the two names. -/
theorem askConfiguration_names {input : ConfigurationInput} {zone record : List Char}
    {answers : Answers} (hzone : promptValue input.nonInteractive [] input.zone = .ok zone)
    (hrecord : promptValue input.nonInteractive [] input.record = .ok record)
    (h : askConfiguration input = .ok answers) :
    answers.zone = substituted (zone ++ ['\n']) ∧
      answers.record = substituted (record ++ ['\n']) := by
  unfold askConfiguration at h
  rw [answeredValue_eq hzone, answeredValue_eq hrecord] at h
  simp only [except_bind_ok] at h
  obtain ⟨_, hz, _, -, _, hr, _, -, _, -, _, -, _, -, _, -, heq⟩ := h
  cases hz
  cases hr
  cases heq
  exact ⟨rfl, rfl⟩

/-- What the checks make sure of. -/
structure Checked (answers checked : Answers) : Prop where
  written : checked = { answers with
    zone := stripDot answers.zone, record := stripDot answers.record,
    accountId := answers.accountId.map Char.toLower }
  zone : validateDnsName checked.zone = true
  record : validateDnsName checked.record = true
  suffix : checked.record.map Char.toLower = checked.zone.map Char.toLower ∨
    '.' :: checked.zone.map Char.toLower <:+ checked.record.map Char.toLower
  family : (checked.ipv4 || checked.ipv6) = true

theorem checkConfiguration_ok {answers checked : Answers}
    (h : checkConfiguration answers = .ok checked) : Checked answers checked := by
  unfold checkConfiguration at h
  simp only [ensure_bind_ok, Bool.or_eq_true, beq_iff_eq, List.isSuffixOf_iff_suffix] at h
  obtain ⟨-, hzone, hrecord, hsuffix, -, hfamily, heq⟩ := h
  cases heq
  exact ⟨rfl, hzone, hrecord, hsuffix, by simpa using hfamily⟩

def booleanBytes (value : Bool) : Nat := if value then 4 else 5

def recordBytes (recordType : String) (answers : Answers) : Nat :=
  82 + len recordType + byteLength answers.zone + byteLength answers.record +
    (if answers.proxied then 1 else 3) + booleanBytes answers.proxied +
    booleanBytes answers.createMissing

/-- The bytes of a configuration without an account id. -/
def settingsBytes (tokenPath : List Char) (answers : Answers) : Nat :=
  260 + byteLength answers.interval + byteLength tokenPath + booleanBytes answers.ipv4 +
    booleanBytes answers.ipv6 + ((recordTypes answers).map (recordBytes · answers)).sum

theorem byteLength_hereDocument (lines : List (List Char)) :
    byteLength (hereDocument lines) = (lines.map (fun line => byteLength line + 1)).sum := by
  induction lines with
  | nil => rfl
  | cons line lines ih =>
      have hcons : hereDocument (line :: lines) = line ++ ['\n'] ++ hereDocument lines := rfl
      have hfeed : byteLength ['\n'] = 1 := by decide
      rw [hcons, byteLength_append, byteLength_append, ih, hfeed, List.map_cons, List.sum_cons]

theorem byteLength_booleanText (value : Bool) :
    byteLength (booleanText value) = booleanBytes value := by
  cases value <;> decide

theorem byteLength_recordTtl (answers : Answers) :
    byteLength answers.recordTtl = if answers.proxied then 1 else 3 := by
  unfold Answers.recordTtl
  cases answers.proxied <;> decide

theorem byteLength_recordLines (recordType : String) (answers : Answers) :
    byteLength (hereDocument (recordLines recordType answers)) =
      recordBytes recordType answers := by
  have hnil : byteLength [] = 0 := rfl
  have hheader : byteLength "[[records]]".toList = 11 := by decide
  have hzone : byteLength "zone = \"".toList = 8 := by decide
  have hname : byteLength "name = \"".toList = 8 := by decide
  have htype : byteLength "type = \"".toList = 8 := by decide
  have hquote : byteLength "\"".toList = 1 := by decide
  have httl : byteLength "ttl = ".toList = 6 := by decide
  have hproxied : byteLength "proxied = ".toList = 10 := by decide
  have hcreate : byteLength "create_if_missing = ".toList = 20 := by decide
  rw [byteLength_hereDocument]
  simp only [recordLines, List.map_cons, List.map_nil, List.sum_cons, List.sum_nil,
    byteLength_append, byteLength_booleanText, byteLength_recordTtl, hnil, hheader, hzone, hname,
    htype, hquote, httl, hproxied, hcreate, recordBytes, len]
  omega

theorem byteLength_settingsLines (tokenPath : List Char) (answers : Answers) :
    byteLength (hereDocument (settingsLines tokenPath answers)) =
      83 + byteLength answers.interval + byteLength tokenPath := by
  have hnil : byteLength [] = 0 := rfl
  have hinterval : byteLength "interval_seconds = ".toList = 19 := by decide
  have htimeout : byteLength "request_timeout_seconds = 15".toList = 28 := by decide
  have hheader : byteLength "[cloudflare]".toList = 12 := by decide
  have hpath : byteLength "api_token_file = \"".toList = 18 := by decide
  have hquote : byteLength "\"".toList = 1 := by decide
  rw [byteLength_hereDocument]
  simp only [settingsLines, List.map_cons, List.map_nil, List.sum_cons, List.sum_nil,
    byteLength_append, hnil, hinterval, htimeout, hheader, hpath, hquote]
  omega

theorem byteLength_discoveryLines (answers : Answers) :
    byteLength (hereDocument (discoveryLines answers)) =
      177 + booleanBytes answers.ipv4 + booleanBytes answers.ipv6 := by
  have hnil : byteLength [] = 0 := rfl
  have hipv4 : byteLength "[ipv4]".toList = 6 := by decide
  have hipv6 : byteLength "[ipv6]".toList = 6 := by decide
  have henabled : byteLength "enabled = ".toList = 10 := by decide
  have hopen : byteLength "providers = [".toList = 13 := by decide
  have htrace : byteLength "    \"https://api.cloudflare.com/cdn-cgi/trace\",".toList = 47 := by
    decide
  have hipify : byteLength "    \"https://api.ipify.org\",".toList = 28 := by decide
  have hipify6 : byteLength "    \"https://api6.ipify.org\",".toList = 29 := by decide
  have hclose : byteLength "]".toList = 1 := by decide
  rw [byteLength_hereDocument]
  simp only [discoveryLines, List.map_cons, List.map_nil, List.sum_cons, List.sum_nil,
    byteLength_append, byteLength_booleanText, hnil, hipv4, hipv6, henabled, hopen, htrace,
    hipify, hipify6, hclose]
  omega

theorem byteLength_renderConfiguration (tokenPath : List Char) {answers : Answers}
    (haccount : answers.accountId = []) :
    byteLength (renderConfiguration tokenPath answers) = settingsBytes tokenPath answers := by
  have happend : ∀ first second : List (List Char),
      hereDocument (first ++ second) = hereDocument first ++ hereDocument second := by
    intro first second
    simp [hereDocument]
  have hempty : byteLength (hereDocument []) = 0 := rfl
  have hrecords : byteLength (hereDocument (if answers.ipv4 then recordLines "A" answers else [])) +
      byteLength (hereDocument (if answers.ipv6 then recordLines "AAAA" answers else [])) =
      ((recordTypes answers).map (recordBytes · answers)).sum := by
    unfold recordTypes
    cases answers.ipv4 <;> cases answers.ipv6 <;> simp [byteLength_recordLines, hempty]
  have hlines : accountLines answers = [] := by simp [accountLines, haccount]
  unfold renderConfiguration settingsBytes
  rw [hlines]
  simp only [happend, byteLength_append, byteLength_settingsLines, byteLength_discoveryLines,
    hempty]
  omega

/-- Only the first line of a name is looked at. -/
theorem validateDnsName_firstLine {name : List Char} (h : validateDnsName name = true) :
    ∀ c ∈ hereLine (stripDot name), isHostChar c = true := by
  simp only [validateDnsName, Bool.and_eq_true, Bool.not_eq_true', List.isEmpty_eq_false_iff,
    decide_eq_true_eq, List.all_eq_true] at h
  obtain ⟨⟨-, hcount⟩, hlabels⟩ := h
  have hne : hereLine (stripDot name) ≠ [] := by
    intro hnil
    rw [hnil] at hcount
    exact absurd hcount (by decide)
  rw [readArray_eq hne] at hlabels
  have hstripped : ∀ c ∈ stripDot (hereLine (stripDot name)), isHostChar c = true := by
    intro c hc
    rcases @mem_splitChars '.' c _ hc with rfl | ⟨label, hlabel, hc⟩
    · decide
    · have hchar := (validateLabel_valid (hlabels label hlabel)).chars c hc
      simpa [isHostChar, isLabelChar] using Or.inl hchar
  intro c hc
  rcases stripDot_cases (hereLine (stripDot name)) with ⟨hstrip, -⟩ | hline
  · rw [← hstrip] at hc
    exact hstripped c hc
  · rw [hline] at hc
    rcases List.mem_append.mp hc with hc | hc
    · exact hstripped c hc
    · simp only [List.mem_singleton] at hc
      subst hc
      decide

/-- A text that a string of the file breaks off at. -/
def Broken (text : List Char) : Prop :=
  ∃ body c rest, text = body ++ c :: rest ∧ (∀ c ∈ body, isBasicChar c = true) ∧
    isControlChar c = true

/-- A checked name with a line feed breaks off at the end of its first line. -/
theorem broken_name {name : List Char} (h : validateDnsName name = true) (hfeed : '\n' ∈ name) :
    Broken name := by
  have hline := validateDnsName_firstLine h
  have hinside : '\n' ∈ stripDot name := by
    rcases stripDot_cases name with ⟨hstrip, -⟩ | hname
    · rwa [hstrip]
    · rw [hname] at hfeed
      rcases List.mem_append.mp hfeed with hfeed | hfeed
      · exact hfeed
      · exact absurd hfeed (by decide)
  have hrest : ∃ rest, stripDot name = hereLine (stripDot name) ++ '\n' :: rest := by
    have hsplit := List.takeWhile_append_dropWhile (p := (· != '\n')) (l := stripDot name)
    cases hdrop : (stripDot name).dropWhile (· != '\n') with
    | nil =>
        rw [List.dropWhile_eq_nil_iff] at hdrop
        exact absurd (hdrop _ hinside) (by decide)
    | cons c rest =>
        have hc := @List.head_dropWhile_not _ (· != '\n') (stripDot name) (by simp [hdrop])
        simp only [hdrop, List.head_cons, bne_eq_false_iff_eq] at hc
        subst hc
        rw [hdrop] at hsplit
        exact ⟨rest, hsplit.symm⟩
  obtain ⟨rest, hrest⟩ := hrest
  rcases stripDot_cases name with ⟨hstrip, -⟩ | hname
  · rw [hstrip] at hrest hline
    exact ⟨_, '\n', rest, hrest, fun c hc => isHostChar_basic (hline c hc), by decide⟩
  · refine ⟨hereLine (stripDot name), '\n', rest ++ ['.'], ?_,
      fun c hc => isHostChar_basic (hline c hc), by decide⟩
    calc name = stripDot name ++ ['.'] := hname
      _ = (hereLine (stripDot name) ++ '\n' :: rest) ++ ['.'] := congrArg (· ++ ['.']) hrest
      _ = hereLine (stripDot name) ++ '\n' :: (rest ++ ['.']) := by simp

/-- A token path that a control character is left in. -/
theorem broken_path {path : List Char} (hquote : '"' ∉ path) (hslash : '\\' ∉ path)
    (h : ¬∀ c ∈ path, isControlChar c = false) : Broken path := by
  have hsplit := List.takeWhile_append_dropWhile (p := isBasicChar) (l := path)
  cases hdrop : path.dropWhile isBasicChar with
  | nil =>
      rw [List.dropWhile_eq_nil_iff] at hdrop
      refine absurd ?_ h
      intro c hc
      have hbasic := hdrop c hc
      simp only [isBasicChar, Bool.and_eq_true, Bool.not_eq_true'] at hbasic
      exact hbasic.2
  | cons c rest =>
      have hc := @List.head_dropWhile_not _ isBasicChar path (by simp [hdrop])
      simp only [hdrop, List.head_cons] at hc
      rw [hdrop] at hsplit
      have hmem : c ∈ path := by
        rw [← hsplit]
        simp
      have hneQuote : c ≠ '"' := by
        rintro rfl
        exact hquote hmem
      have hneSlash : c ≠ '\\' := by
        rintro rfl
        exact hslash hmem
      refine ⟨path.takeWhile isBasicChar, c, rest, hsplit.symm,
        fun d hd => List.mem_takeWhile_imp hd, ?_⟩
      simpa [isBasicChar, hneQuote, hneSlash] using hc

section

variable {loads : List Char → Option TomlDoc.Table} {tokenPath : List Char} {interval : Nat}
  {answers : Answers}

theorem refuses_tokenPath (htoml : Implements loads) (hinterval : interval < 2 ^ 63)
    (h : Broken tokenPath) : loads (settingsDocument tokenPath interval answers).text = none := by
  obtain ⟨body, c, rest, rfl, hbody, hc⟩ := h
  have hfront : Document.WellFormed
      ⟨generalEntries interval, [] ++ [⟨.table "cloudflare", []⟩]⟩ := by
    refine ⟨generalEntries_wellFormed hinterval, ?_, ?_, ?_, ?_⟩
    · intro block member
      have hblock : block = ⟨.table "cloudflare", []⟩ := by simpa using member
      subst hblock
      decide
    · intro block member
      have hblock : block = ⟨.table "cloudflare", []⟩ := by simpa using member
      subst hblock
      exact ⟨by simp, by simp, by simp⟩
    · simp [generalEntries, Document.tableNames, Block.asTable]
    · simp [Document.elementNames]
  exact htoml.refuses_string hfront (by decide) hbody hc

/-- The document up to the start of its first record. -/
theorem settingsDocument_first (tokenPath : List Char) (interval : Nat)
    (hfamily : answers.ipv4 || answers.ipv6) :
    ∃ recordType more, settingsDocument tokenPath interval answers =
      ⟨generalEntries interval, settingsBlocks tokenPath answers ++
        ⟨.element "records", recordEntries recordType answers⟩ :: more⟩ := by
  have htypes : ∃ recordType types, recordTypes answers = recordType :: types := by
    unfold recordTypes
    cases h4 : answers.ipv4
    · cases h6 : answers.ipv6
      · simp [h4, h6] at hfamily
      · exact ⟨"AAAA", [], rfl⟩
    · exact ⟨"A", _, rfl⟩
  obtain ⟨recordType, types, htypes⟩ := htypes
  refine ⟨recordType, types.map (fun recordType =>
    ⟨.element "records", recordEntries recordType answers⟩), ?_⟩
  simp [settingsDocument, htypes]

theorem refuses_zone (htoml : Implements loads) (hinterval : interval < 2 ^ 63)
    (htoken : ∀ c ∈ tokenPath, isBasicChar c = true) (hfamily : answers.ipv4 || answers.ipv6)
    (h : Broken answers.zone) :
    loads (settingsDocument tokenPath interval answers).text = none := by
  obtain ⟨body, c, rest, hzone, hbody, hc⟩ := h
  obtain ⟨recordType, more, hdoc⟩ := settingsDocument_first tokenPath interval hfamily
  have hfront : Document.WellFormed ⟨generalEntries interval, settingsBlocks tokenPath answers ++
      [⟨.element "records", []⟩]⟩ :=
    @settings_wellFormed tokenPath interval answers htoken hinterval [[]]
      (by simpa using ⟨by simp, by simp, by simp⟩)
  have hkey : BareKey "zone" := by decide
  have hrefused := @Implements.refuses_string loads htoml _ _ more _ _
    (recordEntries recordType answers).tail "zone" body rest c hfront hkey hbody hc
  rw [← hzone] at hrefused
  rw [hdoc]
  exact hrefused

theorem refuses_record (htoml : Implements loads) (hinterval : interval < 2 ^ 63)
    (htoken : ∀ c ∈ tokenPath, isBasicChar c = true)
    (hzone : ∀ c ∈ answers.zone, isBasicChar c = true)
    (hfamily : answers.ipv4 || answers.ipv6) (h : Broken answers.record) :
    loads (settingsDocument tokenPath interval answers).text = none := by
  obtain ⟨body, c, rest, hrecord, hbody, hc⟩ := h
  obtain ⟨recordType, more, hdoc⟩ := settingsDocument_first tokenPath interval hfamily
  have hentry : EntriesWellFormed [⟨"zone", .string answers.zone⟩] := by
    have hkey : BareKey "zone" := by decide
    exact ⟨by simpa using hkey, by simpa [Literal.WellFormed] using hzone, by simp⟩
  have hfront : Document.WellFormed ⟨generalEntries interval, settingsBlocks tokenPath answers ++
      [⟨.element "records", [⟨"zone", .string answers.zone⟩]⟩]⟩ :=
    @settings_wellFormed tokenPath interval answers htoken hinterval
      [[⟨"zone", .string answers.zone⟩]] (by simpa using hentry)
  have hkey : BareKey "name" := by decide
  have hrefused := @Implements.refuses_string loads htoml _ _ more _ _
    (recordEntries recordType answers).tail.tail "name" body rest c hfront hkey hbody hc
  rw [← hrecord] at hrefused
  rw [hdoc]
  exact hrefused

variable [Externals]

theorem fromToml_refused {text : List Char} (h : loads text = none) (config : Config) :
    Config.fromToml loads text ≠ .ok config := by
  intro hok
  unfold Config.fromToml at hok
  simp only [ensure_bind_ok, h, Option.bind_none] at hok
  exact absurd hok.2 (by simp)

/-- The whole way of accepted names of one line: the file is read back as the
settings that were entered. -/
theorem fromToml_settings (htoml : Implements loads) (hpages : ParsesPages)
    (hinterval : 60 ≤ interval ∧ interval ≤ 86400) (hpath : tokenPath.head? = some '/')
    (htoken : ∀ c ∈ tokenPath, isBasicChar c = true) (hzone : ValidName answers.zone)
    (hrecord : ValidName answers.record)
    (hsuffix : answers.record.map Char.toLower = answers.zone.map Char.toLower ∨
      '.' :: answers.zone.map Char.toLower <:+ answers.record.map Char.toLower)
    (hfamily : answers.ipv4 || answers.ipv6)
    (hsize : byteLength (settingsDocument tokenPath interval answers).text ≤ maxConfigBytes) :
    Config.fromToml loads (settingsDocument tokenPath interval answers).text =
      .ok (settingsOf tokenPath interval answers (.ofList (canonicalName answers.zone))
        (.ofList (canonicalName answers.record))) := by
  have hwell := @settingsDocument_wellFormed tokenPath interval answers htoken
    (fun c hc => isHostChar_basic (hzone.chars c hc))
    (fun c hc => isHostChar_basic (hrecord.chars c hc)) (by omega)
  have hread := htoml.reads _ hwell
  have hdecoded := @decodeConfig_settings tokenPath interval answers (by omega) hfamily
  have hvalid := @validate_settings _ hpages tokenPath interval answers
    (.ofList (canonicalName answers.zone)) (.ofList (canonicalName answers.record)) hpath
    hinterval hfamily
    (fun recordType field => validateRecord_settings hzone hrecord hsuffix recordType _ _ field)
  unfold Config.fromToml
  rw [hread, Option.bind_some, hdecoded]
  simp only [hsize, canonicalize_settings, hzone.canonicalDnsName_written,
    hrecord.canonicalDnsName_written, hvalid]
  rfl

/-- The daemon takes the file that the installer writes, with the settings that
were entered, just when no name holds a line feed and the token path fits. -/
theorem written_configuration_accepted_iff (htoml : Implements loads) (hpages : ParsesPages)
    {input : ConfigurationInput} {zone record : List Char} {text : List Char}
    (hzone : promptValue input.nonInteractive [] input.zone = .ok zone)
    (hrecord : promptValue input.nonInteractive [] input.record = .ok record)
    (hzoneNul : '\x00' ∉ zone) (hrecordNul : '\x00' ∉ record)
    (hasked : askConfiguration input = .ok answers) (haccount : answers.accountId = [])
    (hinterval : answers.interval = Nat.toDigits 10 interval)
    (hrange : 60 ≤ interval ∧ interval ≤ 86400)
    (habsolute : input.tokenPath.head? = some '/') (hquote : '"' ∉ input.tokenPath)
    (hslash : '\\' ∉ input.tokenPath) (hwritten : writeConfiguration input = .ok text) :
    Config.fromToml loads text = .ok (settingsOf input.tokenPath interval answers
        (canonicalDnsName (.ofList zone)) (canonicalDnsName (.ofList record))) ↔
      '\n' ∉ writtenName zone ∧ '\n' ∉ writtenName record ∧
        (∀ c ∈ input.tokenPath, isControlChar c = false) ∧
        settingsBytes input.tokenPath
          { answers with zone := writtenName zone, record := writtenName record } ≤
          maxConfigBytes := by
  obtain ⟨hkeptZone, hkeptRecord⟩ := askConfiguration_names hzone hrecord hasked
  rw [substituted_value hzoneNul] at hkeptZone
  rw [substituted_value hrecordNul] at hkeptRecord
  unfold writeConfiguration at hwritten
  simp only [hasked, except_bind_ok] at hwritten
  obtain ⟨_, hsame, checked, hok, heq⟩ := hwritten
  cases hsame
  cases heq
  have hchecked := checkConfiguration_ok hok
  have hwritten : { answers with zone := writtenName zone, record := writtenName record } =
      checked := by
    rw [hchecked.written, hkeptZone, hkeptRecord, haccount]
    rfl
  have hzoneWritten : writtenName zone = checked.zone := by rw [← hwritten]
  have hrecordWritten : writtenName record = checked.record := by rw [← hwritten]
  have hnoAccount : checked.accountId = [] := by rw [← hwritten, haccount]
  have hdigits : checked.interval = Nat.toDigits 10 interval := by rw [← hwritten, hinterval]
  have hflags : ∀ zone record : String, settingsOf input.tokenPath interval answers zone record =
      settingsOf input.tokenPath interval checked zone record := by
    intro zone record
    rw [← hwritten]
    rfl
  have htext := renderConfiguration_eq input.tokenPath hnoAccount hdigits
  have hbytes := byteLength_renderConfiguration input.tokenPath hnoAccount
  rw [hwritten, hzoneWritten, hrecordWritten, ← hbytes, hflags, htext]
  have hbasicPath : (∀ c ∈ input.tokenPath, isControlChar c = false) →
      ∀ c ∈ input.tokenPath, isBasicChar c = true := by
    intro hplain c hc
    have hneQuote : c ≠ '"' := by
      rintro rfl
      exact hquote hc
    have hneSlash : c ≠ '\\' := by
      rintro rfl
      exact hslash hc
    simp [isBasicChar, hneQuote, hneSlash, hplain c hc]
  constructor
  · intro hread
    have hloaded : loads (settingsDocument input.tokenPath interval checked).text ≠ none :=
      fun hnone => fromToml_refused hnone _ hread
    have hplain : ∀ c ∈ input.tokenPath, isControlChar c = false := by
      by_contra hcontrol
      exact hloaded (refuses_tokenPath htoml (by omega) (broken_path hquote hslash hcontrol))
    have htoken := hbasicPath hplain
    have hzoneLine : '\n' ∉ checked.zone := by
      intro hfeed
      exact hloaded (refuses_zone htoml (by omega) htoken hchecked.family
        (broken_name hchecked.zone hfeed))
    have hvalidZone := validateDnsName_valid hzoneLine hchecked.zone
    have hrecordLine : '\n' ∉ checked.record := by
      intro hfeed
      exact hloaded (refuses_record htoml (by omega) htoken
        (fun c hc => isHostChar_basic (hvalidZone.chars c hc)) hchecked.family
        (broken_name hchecked.record hfeed))
    refine ⟨hzoneLine, hrecordLine, hplain, ?_⟩
    unfold Config.fromToml at hread
    simp only [ensure_bind_ok, decide_eq_true_eq] at hread
    exact hread.1
  · rintro ⟨hzoneLine, hrecordLine, hplain, hsize⟩
    have hvalidZone := validateDnsName_valid hzoneLine hchecked.zone
    have hvalidRecord := validateDnsName_valid hrecordLine hchecked.record
    have hread := fromToml_settings htoml hpages hrange habsolute (hbasicPath hplain) hvalidZone
      hvalidRecord hchecked.suffix hchecked.family hsize
    rw [← hzoneWritten] at hvalidZone hread
    rw [← hrecordWritten] at hvalidRecord hread
    rw [canonicalDnsName_entered hvalidZone, canonicalDnsName_entered hvalidRecord]
    exact hread

end

def exampleInput : ConfigurationInput where
  nonInteractive := true
  zone := ⟨"Example.com.\n".toList, .missing⟩
  accountId := ⟨[], .missing⟩
  record := ⟨"home.example.com".toList, .missing⟩
  ipv4 := ⟨"yes".toList, .missing⟩
  ipv6 := ⟨[], .missing⟩
  interval := ⟨[], .missing⟩
  create := ⟨"on".toList, .missing⟩
  proxied := ⟨[], .missing⟩
  tokenPath := "/etc/cirrusync/token".toList

def exampleAnswers : Answers :=
  ⟨"Example.com.".toList, [], "home.example.com".toList, true, false, "300".toList, true, false⟩

def exampleText : List Char :=
  renderConfiguration exampleInput.tokenPath { exampleAnswers with zone := "Example.com".toList }

theorem exampleExternals_parsesPages : @ParsesPages exampleExternals :=
  @ParsesPages.mk exampleExternals rfl rfl rfl

theorem written_configuration_accepted_iff_example :
    writeConfiguration exampleInput = .ok exampleText ∧
      @Config.fromToml exampleExternals readTable exampleText = .ok
        (settingsOf exampleInput.tokenPath 300 exampleAnswers
          (canonicalDnsName (.ofList "Example.com.\n".toList))
          (canonicalDnsName (.ofList "home.example.com".toList))) :=
  ⟨by decide +kernel,
    (@written_configuration_accepted_iff readTable 300 exampleAnswers exampleExternals
      readTable_implements exampleExternals_parsesPages exampleInput "Example.com.\n".toList
      "home.example.com".toList exampleText rfl rfl (by decide) (by decide) (by decide +kernel) rfl
      (by decide) (by decide) rfl (by decide) (by decide) (by decide +kernel)).mpr
      ⟨by decide +kernel, by decide +kernel, List.all_iff_forall_prop.mp (by decide +kernel),
        by decide +kernel⟩⟩

def brokenInput : ConfigurationInput :=
  { exampleInput with
    zone := ⟨"example.com\nx".toList, .missing⟩, record := ⟨"example.com\nx".toList, .missing⟩ }

def brokenAnswers : Answers :=
  { exampleAnswers with zone := "example.com\nx".toList, record := "example.com\nx".toList }

theorem broken_configuration_refused :
    '\x00' ∉ "example.com\nx".toList ∧
      askConfiguration brokenInput = .ok brokenAnswers ∧
      brokenAnswers.accountId = [] ∧ brokenAnswers.interval = Nat.toDigits 10 300 ∧
      writeConfiguration brokenInput =
        .ok (renderConfiguration brokenInput.tokenPath brokenAnswers) ∧
      ∀ config, @Config.fromToml exampleExternals readTable
        (renderConfiguration brokenInput.tokenPath brokenAnswers) ≠ .ok config := by
  have hread : readTable (renderConfiguration brokenInput.tokenPath brokenAnswers) = none := by
    decide +kernel
  exact ⟨by decide, by decide +kernel, rfl, by decide, by decide +kernel,
    @fromToml_refused readTable exampleExternals _ hread⟩

end Cirrusync.Configure
