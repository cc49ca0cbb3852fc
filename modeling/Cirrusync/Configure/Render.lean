import Cirrusync.Pieces
import Cirrusync.Release.Upgrade

/-!
`write_configuration` of the installer: the questions, the checks of the answers
and the text of the configuration. Whether an existing file is kept, the token
file and the move into place are not modelled. bash runs in the C locale, where a
length is counted in bytes; `die` is an error with its message.
-/

namespace Cirrusync.Configure

open Text Shell Release

/-- What a question meets at the terminal. -/
inductive Terminal where
  | missing
  | ended
  | typed (text : List Char)
  deriving DecidableEq, Repr

/-- One setting: the text the environment supplies, empty when there is none, and
what the terminal gives. -/
structure Setting where
  supplied : List Char
  terminal : Terminal
  deriving DecidableEq, Repr

def readFromTty : Terminal → Except String (List Char)
  | .missing =>
      .error "interactive input requires a controlling terminal; use --non-interactive"
  | .ended => .error "interactive input ended unexpectedly"
  | .typed text => .ok (hereLine text)

/-- What `prompt_value` prints, before its line feed. -/
def promptValue (nonInteractive : Bool) (defaultValue : List Char) (setting : Setting) :
    Except String (List Char) :=
  if setting.supplied ≠ [] then .ok setting.supplied
  else if nonInteractive then .ok defaultValue
  else do
    let result ← readFromTty setting.terminal
    return if result = [] then defaultValue else result

def normalizeBoolean (value : List Char) : Option Bool :=
  let lowered := String.ofList (value.map Char.toLower)
  if lowered ∈ ["1", "true", "yes", "y", "on"] then some true
  else if lowered ∈ ["0", "false", "no", "n", "off"] then some false
  else none

/-- `normalize_boolean value || die message`. -/
def normalizedOrDie (value : List Char) (message : String) : Except String Bool :=
  match normalizeBoolean value with
  | some flag => .ok flag
  | none => .error message

def promptBoolean (nonInteractive : Bool) (prompt : String) (defaultValue : Bool)
    (setting : Setting) : Except String Bool :=
  if setting.supplied ≠ [] then
    normalizedOrDie setting.supplied s!"{prompt} must be true or false"
  else if nonInteractive then .ok defaultValue
  else do
    let result ← readFromTty setting.terminal
    if result = [] then return defaultValue
    else normalizedOrDie result s!"{prompt} must be yes or no"

/-- `${name%.}`. -/
def stripDot (name : List Char) : List Char :=
  if name.getLast? = some '.' then name.dropLast else name

/-- `IFS=separator read -r -a`: a separator at the end of the line starts no word. -/
def readArray (separator : Char) (line : List Char) : List (List Char) :=
  let words := splitChars separator line
  if words.getLast? = some [] then words.dropLast else words

/-- `[A-Za-z0-9]([A-Za-z0-9-]{0,61}[A-Za-z0-9])?`. -/
def labelPattern : List (Pattern Char) :=
  [.run isAlphanumeric 1 (some 1),
    .alt (.seq (.run (fun c => isAlphanumeric c || c == '-') 0 (some 61))
      (.run isAlphanumeric 1 (some 1))) (.lit [])]

def validateLabel (label : List Char) : Bool :=
  1 ≤ byteLength label && byteLength label ≤ 63 && Pattern.fullmatch labelPattern label

def validateDnsName (entered : List Char) : Bool :=
  let name := stripDot entered
  let labels := readArray '.' (hereLine name)
  !name.isEmpty && byteLength name ≤ 253 && 2 ≤ labels.length && labels.all validateLabel

def validateCloudflareAccountId (accountId : List Char) : Bool :=
  Pattern.fullmatch [.run isHexDigit 32 (some 32)] accountId

/-- The value of digits in `[[ .. -ge .. ]]`, octal after a leading zero. -/
def integerOperand (digits : List Char) : Option (BitVec 64) :=
  if digits.head? = some '0' then
    if digits.all (fun c => c.isDigit && c.toNat < '8'.toNat) then
      some (digits.foldl
        (fun value c => value * 8#64 + BitVec.ofNat 64 (c.toNat - '0'.toNat)) 0#64)
    else none
  else constant digits

def intervalInRange (interval : List Char) : Bool :=
  Pattern.fullmatch [.run Char.isDigit 1 none] interval &&
    arithmetic (fun value bound => bound.sle value) (integerOperand interval) (some 60#64) &&
    arithmetic BitVec.sle (integerOperand interval) (some 86400#64)

structure ConfigurationInput where
  nonInteractive : Bool
  zone : Setting
  accountId : Setting
  record : Setting
  ipv4 : Setting
  ipv6 : Setting
  interval : Setting
  create : Setting
  proxied : Setting
  tokenPath : List Char
  deriving DecidableEq, Repr

/-- The locals of `write_configuration`. -/
structure Answers where
  zone : List Char
  accountId : List Char
  record : List Char
  ipv4 : Bool
  ipv6 : Bool
  interval : List Char
  createMissing : Bool
  proxied : Bool
  deriving DecidableEq, Repr

/-- `$(prompt_value ..)`. -/
def answeredValue (nonInteractive : Bool) (defaultValue : List Char) (setting : Setting) :
    Except String (List Char) := do
  let value ← promptValue nonInteractive defaultValue setting
  return substituted (value ++ ['\n'])

def askConfiguration (input : ConfigurationInput) : Except String Answers := do
  let zone ← answeredValue input.nonInteractive [] input.zone
  let accountId ← answeredValue input.nonInteractive [] input.accountId
  let record ← answeredValue input.nonInteractive [] input.record
  let ipv4 ← promptBoolean input.nonInteractive "Enable IPv4 updates" true input.ipv4
  let ipv6 ← promptBoolean input.nonInteractive "Enable IPv6 updates" false input.ipv6
  let interval ← answeredValue input.nonInteractive "300".toList input.interval
  let createMissing ← promptBoolean input.nonInteractive "Allow creation of a missing record"
    false input.create
  let proxied ← promptBoolean input.nonInteractive "Enable Cloudflare proxying" false
    input.proxied
  return ⟨zone, accountId, record, ipv4, ipv6, interval, createMissing, proxied⟩

/-- The answers as the file has them, when they pass the checks. -/
def checkConfiguration (answers : Answers) : Except String Answers := do
  let zone := stripDot answers.zone
  let record := stripDot answers.record
  ensure (answers.accountId.isEmpty || validateCloudflareAccountId answers.accountId)
    "the Cloudflare account ID must be exactly 32 hexadecimal characters"
  ensure (validateDnsName zone) s!"invalid Cloudflare zone: {String.ofList zone}"
  ensure (validateDnsName record) s!"invalid DNS record name: {String.ofList record}"
  let zoneLower := zone.map Char.toLower
  let recordLower := record.map Char.toLower
  ensure (recordLower == zoneLower || ('.' :: zoneLower).isSuffixOf recordLower)
    s!"record {String.ofList record} does not belong to zone {String.ofList zone}"
  ensure (intervalInRange answers.interval) "the interval must be between 60 and 86400 seconds"
  ensure (answers.ipv4 || answers.ipv6) "at least one of IPv4 or IPv6 must be enabled"
  return { answers with
    zone := zone, record := record, accountId := answers.accountId.map Char.toLower }

def booleanText : Bool → List Char
  | true => "true".toList
  | false => "false".toList

/-- Lines of a here-document as `cat` prints them. -/
def hereDocument (lines : List (List Char)) : List Char := lines.flatMap (· ++ ['\n'])

/-- `record_ttl`. -/
def Answers.recordTtl (answers : Answers) : List Char :=
  if answers.proxied then "1".toList else "120".toList

def settingsLines (tokenPath : List Char) (answers : Answers) : List (List Char) :=
  ["interval_seconds = ".toList ++ answers.interval,
    "request_timeout_seconds = 15".toList,
    [],
    "[cloudflare]".toList,
    "api_token_file = \"".toList ++ tokenPath ++ "\"".toList]

def accountLines (answers : Answers) : List (List Char) :=
  if answers.accountId.isEmpty then []
  else ["account_id = \"".toList ++ answers.accountId ++ "\"".toList]

def discoveryLines (answers : Answers) : List (List Char) :=
  [[],
    "[ipv4]".toList,
    "enabled = ".toList ++ booleanText answers.ipv4,
    "providers = [".toList,
    "    \"https://api.cloudflare.com/cdn-cgi/trace\",".toList,
    "    \"https://api.ipify.org\",".toList,
    "]".toList,
    [],
    "[ipv6]".toList,
    "enabled = ".toList ++ booleanText answers.ipv6,
    "providers = [".toList,
    "    \"https://api6.ipify.org\",".toList,
    "]".toList]

/-- The two here-documents of a record, which differ in the type only. -/
def recordLines (recordType : String) (answers : Answers) : List (List Char) :=
  [[],
    "[[records]]".toList,
    "zone = \"".toList ++ answers.zone ++ "\"".toList,
    "name = \"".toList ++ answers.record ++ "\"".toList,
    "type = \"".toList ++ recordType.toList ++ "\"".toList,
    "ttl = ".toList ++ answers.recordTtl,
    "proxied = ".toList ++ booleanText answers.proxied,
    "create_if_missing = ".toList ++ booleanText answers.createMissing]

def renderConfiguration (tokenPath : List Char) (answers : Answers) : List Char :=
  hereDocument (settingsLines tokenPath answers ++ accountLines answers ++
    discoveryLines answers ++
    (if answers.ipv4 then recordLines "A" answers else []) ++
    (if answers.ipv6 then recordLines "AAAA" answers else []))

/-- The text of the new configuration. -/
def writeConfiguration (input : ConfigurationInput) : Except String (List Char) := do
  let answers ← askConfiguration input
  let checked ← checkConfiguration answers
  return renderConfiguration input.tokenPath checked

end Cirrusync.Configure
