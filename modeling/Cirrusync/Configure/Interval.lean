import Cirrusync.Configure.Agreement
import Cirrusync.Release.Version

/-!
The interval the installer writes and what the daemon makes of it: the check is in
the arithmetic of the shell, where a leading zero means octal and values wrap
around at 64 bits, and the file is read in base ten.
-/

namespace Cirrusync.Configure

open Numerals Text Shell Release TomlDoc

/-- A TOML decimal integer of digits alone, and its value. -/
structure DecimalInteger (text : List Char) (value : Nat) : Prop where
  nonempty : text ≠ []
  digits : ∀ c ∈ text, c.isDigit = true
  canonical : text.head? = some '0' → text = ['0']
  value_eq : value = Nat.ofDigitChars 10 text 0

def intervalLine (interval : List Char) : List Char := "interval_seconds = ".toList ++ interval

/-- The daemon takes the line of an interval: it is a decimal integer in the range, and
the settings read from the line have its value, which passes the range check. -/
def DaemonTakes (interval : List Char) : Prop :=
  ∃ value, DecimalInteger interval value ∧ 60 ≤ value ∧ value ≤ 86400 ∧
    ∀ loads, Implements loads → ∃ config,
      (loads (intervalLine interval ++ ['\n'])).bind decodeConfig = some config ∧
        config.intervalSeconds = value ∧
        validateRange "interval_seconds" config.intervalSeconds minIntervalSeconds
          maxIntervalSeconds = .ok ()

/-- Without a leading zero, a value has five digits just when it is below 100000. -/
theorem length_le_five_iff {text : List Char} (hne : text ≠ [])
    (hdigits : ∀ c ∈ text, c.isDigit = true) (hhead : text.head? ≠ some '0') :
    text.length ≤ 5 ↔ Nat.ofDigitChars 10 text 0 < 100000 := by
  have hself := toDigits_ofDigitChars_self hne hdigits hhead
  conv_lhs => rw [← hself]
  rw [Nat.length_toDigits_le_iff (by decide) (by decide)]

theorem intervalInRange_digits {interval : List Char} (h : intervalInRange interval = true) :
    interval ≠ [] ∧ ∀ c ∈ interval, c.isDigit = true := by
  simp only [intervalInRange, Bool.and_eq_true] at h
  obtain ⟨ms, hall, rfl⟩ := Pattern.fullmatch_iff.mp h.1.1
  obtain ⟨digits, rest, hdigits, hrest, rfl⟩ := List.forall₂_cons_left_iff.mp hall
  cases hrest
  obtain ⟨hchars, hleast, -⟩ := hdigits
  rw [List.flatten_cons, List.flatten_nil, List.append_nil]
  exact ⟨List.ne_nil_of_length_pos hleast, hchars⟩

/-- The check of the installer goes by the value where nothing is octal or wraps. -/
theorem intervalInRange_range {interval : List Char} (h : intervalInRange interval = true)
    (hhead : interval.head? ≠ some '0') (hlength : interval.length ≤ 5) :
    60 ≤ Nat.ofDigitChars 10 interval 0 ∧ Nat.ofDigitChars 10 interval 0 ≤ 86400 := by
  obtain ⟨hne, hdigits⟩ := intervalInRange_digits h
  have hsmall := (length_le_five_iff hne hdigits hhead).mp hlength
  obtain ⟨x, hconstant, hx⟩ := constant_value hne hdigits rfl (by omega)
  simp only [intervalInRange, integerOperand, hhead, if_false, hconstant, arithmetic,
    Bool.and_eq_true, BitVec.sle_iff_toInt_le] at h
  obtain ⟨⟨-, hlow⟩, hhigh⟩ := h
  have hsixty : (60#64).toInt = 60 := by decide
  have hmost : (86400#64).toInt = 86400 := by decide
  omega

theorem intervalDocument_text (value : Nat) :
    Document.text ⟨[⟨"interval_seconds", .integer value⟩], []⟩ =
      intervalLine (Nat.toDigits 10 value) ++ ['\n'] := by
  have hkey : "interval_seconds = ".toList = "interval_seconds".toList ++ " = ".toList := by
    decide
  unfold intervalLine
  rw [hkey]
  simp only [Document.text, Document.lines, Entry.lines, Literal.text, Literal.moreLines, unlines,
    List.flatMap_cons, List.flatMap_nil, List.append_nil]

/-- Every parser of TOML reads a decimal integer as its value. -/
theorem loads_intervalLine {loads : List Char → Option TomlDoc.Table} (htoml : Implements loads)
    (value : Nat) (hvalue : value < 2 ^ 63) :
    loads (intervalLine (Nat.toDigits 10 value) ++ ['\n']) =
      some [("interval_seconds", .integer value)] := by
  have hwell : Document.WellFormed ⟨[⟨"interval_seconds", .integer value⟩], []⟩ := by
    refine ⟨⟨?_, ?_, by simp⟩, by simp, by simp, by simp [Document.tableNames],
      by simp [Document.elementNames]⟩
    · simp only [List.forall_mem_singleton]
      decide
    · simpa [Literal.WellFormed] using hvalue
  have hread := htoml.reads _ hwell
  rw [intervalDocument_text] at hread
  exact hread

theorem decodeConfig_interval {value : Nat} (hvalue : value < 2 ^ 63) :
    decodeConfig [("interval_seconds", .integer value)] =
      some { Config.default with intervalSeconds := value } := by
  have hknown : knownFields [("interval_seconds", .integer value)]
      ["interval_seconds", "request_timeout_seconds", "cloudflare", "ipv4", "ipv6",
        "records"] = true := by simp [knownFields]
  have hseconds : decodeUnsigned (2 ^ 64) (.integer value) = some value :=
    decodeUnsigned_ofNat (by omega)
  unfold decodeConfig
  rw [fieldsOf_table hknown, Option.bind_eq_bind, Option.bind_some]
  generalize 2 ^ 64 = bound at hseconds ⊢
  refine Eq.trans (readField_bind (by rfl) hseconds) ?_
  refine Eq.trans (readField_bind_default (by rfl)) ?_
  refine Eq.trans (readField_bind_default (by rfl)) ?_
  refine Eq.trans (readField_bind_default (by rfl)) ?_
  refine Eq.trans (readField_bind_default (by rfl)) ?_
  exact readField_bind_default (by rfl)

theorem validateRange_ok {field : String} {value min max : Nat} (hmin : min ≤ value)
    (hmax : value ≤ max) : validateRange field value min max = .ok () := by
  simp [validateRange, hmin, hmax]

/-- Of the intervals that pass the check, the daemon takes those that neither start
with a zero nor have more than five digits. -/
theorem daemonTakes_iff {interval : List Char} (h : intervalInRange interval = true) :
    DaemonTakes interval ↔ interval.head? ≠ some '0' ∧ interval.length ≤ 5 := by
  obtain ⟨hne, hdigits⟩ := intervalInRange_digits h
  constructor
  · rintro ⟨value, hdecimal, hlow, hhigh, -⟩
    have hvalue := hdecimal.value_eq
    have hhead : interval.head? ≠ some '0' := by
      intro hzero
      rw [hdecimal.canonical hzero] at hvalue
      have hnone : Nat.ofDigitChars 10 ['0'] 0 = 0 := by decide
      omega
    exact ⟨hhead, (length_le_five_iff hne hdigits hhead).mpr (by omega)⟩
  · rintro ⟨hhead, hlength⟩
    obtain ⟨hlow, hhigh⟩ := intervalInRange_range h hhead hlength
    have hself := toDigits_ofDigitChars_self hne hdigits hhead
    refine ⟨_, ⟨hne, hdigits, fun hzero => absurd hzero hhead, rfl⟩, hlow, hhigh, ?_⟩
    intro loads htoml
    have hread := loads_intervalLine htoml (Nat.ofDigitChars 10 interval 0) (by omega)
    rw [hself] at hread
    rw [hread, Option.bind_some, decodeConfig_interval (by omega)]
    exact ⟨_, rfl, rfl, validateRange_ok hlow hhigh⟩

/-! ## What is written -/

theorem askConfiguration_interval {input : ConfigurationInput} {entered : List Char}
    {answers : Answers}
    (hentered : promptValue input.nonInteractive "300".toList input.interval = .ok entered)
    (h : askConfiguration input = .ok answers) :
    answers.interval = substituted (entered ++ ['\n']) := by
  unfold askConfiguration at h
  rw [answeredValue_eq hentered] at h
  simp only [except_bind_ok] at h
  obtain ⟨_, -, _, -, _, -, _, -, _, -, _, hinterval, _, -, _, -, heq⟩ := h
  cases hinterval
  cases heq
  rfl

theorem checkConfiguration_interval {answers checked : Answers}
    (h : checkConfiguration answers = .ok checked) :
    checked.interval = answers.interval ∧ intervalInRange checked.interval = true := by
  unfold checkConfiguration at h
  simp only [ensure_bind_ok] at h
  obtain ⟨-, -, -, -, hinterval, -, heq⟩ := h
  cases heq
  exact ⟨rfl, hinterval⟩

/-- The file starts with the interval as it was entered, and the daemon takes it just
when it neither starts with a zero nor has more than five characters. -/
theorem written_interval_accepted_iff {input : ConfigurationInput} {entered text : List Char}
    (hentered : promptValue input.nonInteractive "300".toList input.interval = .ok entered)
    (hnul : '\x00' ∉ entered) (hwritten : writeConfiguration input = .ok text) :
    (intervalLine (entered.rdropWhile (· == '\n')) ++ ['\n']) <+: text ∧
      (DaemonTakes (entered.rdropWhile (· == '\n')) ↔
        (entered.rdropWhile (· == '\n')).head? ≠ some '0' ∧
          (entered.rdropWhile (· == '\n')).length ≤ 5) := by
  unfold writeConfiguration at hwritten
  simp only [except_bind_ok] at hwritten
  obtain ⟨answers, hasked, checked, hchecked, heq⟩ := hwritten
  cases heq
  have hanswer := askConfiguration_interval hentered hasked
  obtain ⟨hkept, hinterval⟩ := checkConfiguration_interval hchecked
  rw [substituted_value hnul] at hanswer
  rw [hkept, hanswer] at hinterval
  refine ⟨?_, daemonTakes_iff hinterval⟩
  rw [← hanswer, ← hkept]
  refine ⟨hereDocument ((settingsLines input.tokenPath checked).tail ++ accountLines checked ++
    discoveryLines checked ++ (if checked.ipv4 then recordLines "A" checked else []) ++
    (if checked.ipv6 then recordLines "AAAA" checked else [])), ?_⟩
  rfl

theorem written_interval_accepted_iff_example :
    (intervalLine "300".toList ++ ['\n']) <+: exampleText ∧
      (DaemonTakes "300".toList ↔ "300".toList.head? ≠ some '0' ∧ "300".toList.length ≤ 5) :=
  @written_interval_accepted_iff exampleInput "300".toList exampleText rfl (by decide)
    (by decide +kernel)

def octalInput : ConfigurationInput := { exampleInput with interval := ⟨"0300".toList, .missing⟩ }

/-- Octal 300 is 192 and passes; no daemon takes the line. -/
theorem octal_interval_written :
    promptValue octalInput.nonInteractive "300".toList octalInput.interval = .ok "0300".toList ∧
      writeConfiguration octalInput = .ok (renderConfiguration octalInput.tokenPath
        { exampleAnswers with zone := "Example.com".toList, interval := "0300".toList }) ∧
      ¬DaemonTakes "0300".toList := by
  refine ⟨rfl, by decide +kernel, ?_⟩
  rintro ⟨value, hdecimal, -⟩
  exact absurd (hdecimal.canonical rfl) (by decide)

end Cirrusync.Configure
