import Cirrusync.Configure.DnsNames
import Cirrusync.Toml.Document

/-!
The text of the new configuration as a document, and where it stops being one:
a string of the answers or the token path that runs into a control character.
-/

namespace Cirrusync.Configure

open Text Shell Release TomlDoc

def tracePage : String := "https://api.cloudflare.com/cdn-cgi/trace"
def ipifyPage : String := "https://api.ipify.org"
def ipify6Page : String := "https://api6.ipify.org"

def ttlOf (proxied : Bool) : Nat := if proxied then 1 else 120

def generalEntries (interval : Nat) : List Entry :=
  [⟨"interval_seconds", .integer interval⟩, ⟨"request_timeout_seconds", .integer 15⟩]

def cloudflareBlock (tokenPath : List Char) : Block :=
  ⟨.table "cloudflare", [⟨"api_token_file", .string tokenPath⟩]⟩

def ipv4Block (answers : Answers) : Block :=
  ⟨.table "ipv4", [⟨"enabled", .boolean answers.ipv4⟩,
    ⟨"providers", .strings [tracePage.toList, ipifyPage.toList]⟩]⟩

def ipv6Block (answers : Answers) : Block :=
  ⟨.table "ipv6", [⟨"enabled", .boolean answers.ipv6⟩,
    ⟨"providers", .strings [ipify6Page.toList]⟩]⟩

def recordEntries (recordType : String) (answers : Answers) : List Entry :=
  [⟨"zone", .string answers.zone⟩, ⟨"name", .string answers.record⟩,
    ⟨"type", .string recordType.toList⟩, ⟨"ttl", .integer (ttlOf answers.proxied)⟩,
    ⟨"proxied", .boolean answers.proxied⟩,
    ⟨"create_if_missing", .boolean answers.createMissing⟩]

/-- The types of the records, one for each enabled family. -/
def recordTypes (answers : Answers) : List String :=
  (if answers.ipv4 then ["A"] else []) ++ (if answers.ipv6 then ["AAAA"] else [])

def settingsBlocks (tokenPath : List Char) (answers : Answers) : List Block :=
  [cloudflareBlock tokenPath, ipv4Block answers, ipv6Block answers]

def settingsDocument (tokenPath : List Char) (interval : Nat) (answers : Answers) : Document :=
  ⟨generalEntries interval, settingsBlocks tokenPath answers ++
    (recordTypes answers).map (fun recordType =>
      ⟨.element "records", recordEntries recordType answers⟩)⟩

theorem booleanText_eq (value : Bool) : booleanText value = (Literal.boolean value).text := by
  cases value <;> rfl

theorem recordTtl_eq (answers : Answers) :
    answers.recordTtl = (Literal.integer (ttlOf answers.proxied)).text := by
  cases h : answers.proxied <;> simp [Answers.recordTtl, ttlOf, h, Literal.text] <;> rfl

theorem recordLines_eq (recordType : String) (answers : Answers) :
    recordLines recordType answers =
      Block.lines ⟨.element "records", recordEntries recordType answers⟩ := by
  simp only [recordLines, booleanText_eq, recordTtl_eq, recordEntries, Block.lines, Entry.lines,
    Header.line, List.flatMap_cons, List.flatMap_nil, Literal.moreLines]
  simp [Literal.text, quoted]

theorem settingsLines_eq (tokenPath : List Char) (answers : Answers) {interval : Nat}
    (hinterval : answers.interval = Nat.toDigits 10 interval) :
    settingsLines tokenPath answers = (generalEntries interval).flatMap Entry.lines ++
      (cloudflareBlock tokenPath).lines := by
  have htimeout : Nat.toDigits 10 15 = ['1', '5'] := by decide
  simp [settingsLines, generalEntries, cloudflareBlock, Block.lines, Entry.lines, Header.line,
    Literal.text, Literal.moreLines, quoted, hinterval, htimeout]

theorem discoveryLines_eq (answers : Answers) :
    discoveryLines answers = (ipv4Block answers).lines ++ (ipv6Block answers).lines := by
  simp [discoveryLines, ipv4Block, ipv6Block, Block.lines, Entry.lines, Header.line,
    Literal.moreLines, booleanText_eq, quoted, tracePage, ipifyPage, ipify6Page]
  simp [Literal.text]

/-- The text of the installer is the document's, when there is no account id. -/
theorem renderConfiguration_eq (tokenPath : List Char) {answers : Answers} {interval : Nat}
    (haccount : answers.accountId = []) (hinterval : answers.interval = Nat.toDigits 10 interval) :
    renderConfiguration tokenPath answers =
      (settingsDocument tokenPath interval answers).text := by
  have hrecords : (if answers.ipv4 then recordLines "A" answers else []) ++
      (if answers.ipv6 then recordLines "AAAA" answers else []) =
      ((recordTypes answers).map (fun recordType =>
        (⟨.element "records", recordEntries recordType answers⟩ : Block))).flatMap Block.lines := by
    unfold recordTypes
    cases answers.ipv4 <;> cases answers.ipv6 <;> simp [recordLines_eq]
  have hlines : settingsLines tokenPath answers ++ accountLines answers ++
      discoveryLines answers ++ (if answers.ipv4 then recordLines "A" answers else []) ++
      (if answers.ipv6 then recordLines "AAAA" answers else []) =
      (settingsDocument tokenPath interval answers).lines := by
    rw [List.append_assoc _ (if answers.ipv4 then _ else _), hrecords,
      settingsLines_eq tokenPath answers hinterval, discoveryLines_eq]
    simp [accountLines, haccount, settingsDocument, Document.lines, settingsBlocks]
  unfold renderConfiguration hereDocument Document.text unlines
  rw [hlines]

theorem isHostChar_basic {c : Char} (h : isHostChar c = true) : isBasicChar c = true := by
  have hrange := isHostChar_range h
  have hquote : c ≠ '"' := by
    rintro rfl
    exact absurd h (by decide)
  have hslash : c ≠ '\\' := by
    rintro rfl
    exact absurd h (by decide)
  have hcontrol : isControlChar c = false := by
    simp only [isControlChar, Bool.and_eq_false_iff, Bool.or_eq_false_iff, decide_eq_false_iff_not,
      beq_eq_false_iff_ne]
    right
    omega
  simp [isBasicChar, hquote, hslash, hcontrol]

theorem recordEntries_wellFormed (recordType : String) {answers : Answers}
    (htype : ∀ c ∈ recordType.toList, isBasicChar c = true)
    (hzone : ∀ c ∈ answers.zone, isBasicChar c = true)
    (hrecord : ∀ c ∈ answers.record, isBasicChar c = true) :
    EntriesWellFormed (recordEntries recordType answers) := by
  refine ⟨?_, ?_, by simp [recordEntries]⟩
  · simp only [recordEntries, List.forall_mem_cons]
    decide
  · simp only [recordEntries, List.forall_mem_cons, Literal.WellFormed]
    have httl : ttlOf answers.proxied < 2 ^ 63 := by
      unfold ttlOf
      split <;> omega
    exact ⟨hzone, hrecord, htype, httl, trivial, trivial, by simp⟩

theorem generalEntries_wellFormed {interval : Nat} (hinterval : interval < 2 ^ 63) :
    EntriesWellFormed (generalEntries interval) := by
  refine ⟨?_, ?_, by simp [generalEntries]⟩
  · simp only [generalEntries, List.forall_mem_cons]
    decide
  · simp only [generalEntries, List.forall_mem_cons, Literal.WellFormed]
    exact ⟨hinterval, by omega, by simp⟩

theorem settingsBlocks_wellFormed {tokenPath : List Char}
    (htoken : ∀ c ∈ tokenPath, isBasicChar c = true) (answers : Answers) :
    ∀ block ∈ settingsBlocks tokenPath answers,
      BareKey block.header.name ∧ EntriesWellFormed block.entries := by
  have hproviders : ∀ item ∈ [tracePage.toList, ipifyPage.toList, ipify6Page.toList],
      ∀ c ∈ item, isBasicChar c = true := by
    simp only [← List.all_eq_true]
    decide +kernel
  simp only [settingsBlocks, List.forall_mem_cons]
  have hcloudflare : BareKey "cloudflare" := by decide
  have hipv4 : BareKey "ipv4" := by decide
  have hipv6 : BareKey "ipv6" := by decide
  refine ⟨⟨hcloudflare, ?_, ?_, by simp [cloudflareBlock]⟩,
    ⟨hipv4, ?_, ?_, by simp [ipv4Block]⟩, ⟨hipv6, ?_, ?_, by simp [ipv6Block]⟩, by simp⟩
  · simp only [cloudflareBlock, List.forall_mem_cons]
    decide
  · simp only [cloudflareBlock, List.forall_mem_cons, Literal.WellFormed]
    exact ⟨htoken, by simp⟩
  · simp only [ipv4Block, List.forall_mem_cons]
    decide
  · simp only [ipv4Block, List.forall_mem_cons, Literal.WellFormed]
    simp only [List.forall_mem_cons] at hproviders
    exact ⟨trivial, ⟨hproviders.1, hproviders.2.1, by simp⟩, by simp⟩
  · simp only [ipv6Block, List.forall_mem_cons]
    decide
  · simp only [ipv6Block, List.forall_mem_cons, Literal.WellFormed]
    simp only [List.forall_mem_cons] at hproviders
    exact ⟨trivial, ⟨hproviders.2.2.1, by simp⟩, by simp⟩

/-- The settings with any elements of the array of records. -/
theorem settings_wellFormed {tokenPath : List Char} {interval : Nat} {answers : Answers}
    (htoken : ∀ c ∈ tokenPath, isBasicChar c = true) (hinterval : interval < 2 ^ 63)
    {elements : List (List Entry)} (helements : ∀ entries ∈ elements, EntriesWellFormed entries) :
    Document.WellFormed ⟨generalEntries interval, settingsBlocks tokenPath answers ++
      elements.map (fun entries => ⟨.element "records", entries⟩)⟩ := by
  have hall : ∀ block ∈ settingsBlocks tokenPath answers ++
      elements.map (fun entries => ⟨.element "records", entries⟩),
      BareKey block.header.name ∧ EntriesWellFormed block.entries := by
    intro block member
    rcases List.mem_append.mp member with member | member
    · exact settingsBlocks_wellFormed htoken answers block member
    · obtain ⟨entries, hentries, rfl⟩ := List.mem_map.mp member
      have hrecords : BareKey "records" := by decide
      exact ⟨hrecords, helements entries hentries⟩
  have htables : Document.tableNames ⟨generalEntries interval, settingsBlocks tokenPath answers ++
      elements.map (fun entries => ⟨.element "records", entries⟩)⟩ =
      ["cloudflare", "ipv4", "ipv6"] := by
    simp [Document.tableNames, settingsBlocks, cloudflareBlock, ipv4Block, ipv6Block,
      Block.asTable, List.filterMap_map]
  have hnames : ∀ name ∈ Document.elementNames ⟨generalEntries interval,
      settingsBlocks tokenPath answers ++
        elements.map (fun entries => ⟨.element "records", entries⟩)⟩, name = "records" := by
    simp [Document.elementNames, settingsBlocks, cloudflareBlock, ipv4Block, ipv6Block,
      List.filterMap_map]
  refine ⟨generalEntries_wellFormed hinterval, fun block member => (hall block member).1,
    fun block member => (hall block member).2, ?_, ?_⟩
  · rw [htables]
    simp [generalEntries]
  · intro name member
    rw [htables, hnames name member]
    simp [generalEntries]

theorem settingsDocument_wellFormed {tokenPath : List Char} {interval : Nat} {answers : Answers}
    (htoken : ∀ c ∈ tokenPath, isBasicChar c = true)
    (hzone : ∀ c ∈ answers.zone, isBasicChar c = true)
    (hrecord : ∀ c ∈ answers.record, isBasicChar c = true) (hinterval : interval < 2 ^ 63) :
    (settingsDocument tokenPath interval answers).WellFormed := by
  have helements : ∀ entries ∈ (recordTypes answers).map (recordEntries · answers),
      EntriesWellFormed entries := by
    intro entries member
    obtain ⟨recordType, htype, rfl⟩ := List.mem_map.mp member
    refine recordEntries_wellFormed recordType ?_ hzone hrecord
    simp only [recordTypes, List.mem_append, List.mem_ite_nil_right, List.mem_singleton] at htype
    rcases htype with ⟨-, rfl⟩ | ⟨-, rfl⟩ <;> exact List.all_eq_true.mp (by decide)
  have hwhole := @settings_wellFormed tokenPath interval answers htoken hinterval _ helements
  rw [List.map_map] at hwhole
  exact hwhole

end Cirrusync.Configure
