import Cirrusync.Externals

/-!
The configuration and `Config::validate`, with the errors that validation
raises.
-/

namespace Cirrusync

open Text

def minIntervalSeconds : Nat := 60
def maxIntervalSeconds : Nat := 86400
def minRequestTimeoutSeconds : Nat := 1
def maxRequestTimeoutSeconds : Nat := 120
def maxRecords : Nat := 50
def maxProvidersPerFamily : Nat := 8

inductive RecordType where
  | a
  | aaaa
  deriving DecidableEq, Repr

def RecordType.family : RecordType → AddressFamily
  | .a => .ipv4
  | .aaaa => .ipv6

def RecordType.asStr : RecordType → String
  | .a => "A"
  | .aaaa => "AAAA"

structure RecordConfig where
  zone : String
  zoneId : Option String
  name : String
  recordType : RecordType
  ttl : Nat
  proxied : Bool
  createIfMissing : Bool
  deriving DecidableEq, Repr

structure IpDiscoveryConfig where
  enabled : Bool
  providers : List String
  deriving DecidableEq, Repr

structure CloudflareConfig where
  apiTokenFile : String
  accountId : Option String
  deriving DecidableEq, Repr

structure Config where
  intervalSeconds : Nat
  requestTimeoutSeconds : Nat
  cloudflare : CloudflareConfig
  ipv4 : IpDiscoveryConfig
  ipv6 : IpDiscoveryConfig
  records : List RecordConfig
  deriving DecidableEq, Repr

inductive ConfigError where
  | validation (field message : String)
  deriving DecidableEq, Repr

/-- `if !condition { return Err(error); }`. -/
def ensure {ε : Type} (condition : Bool) (error : ε) : Except ε Unit :=
  if condition then .ok () else .error error

@[simp] theorem ensure_bind_ok {ε α : Type} (condition : Bool) (error : ε)
    (rest : Unit → Except ε α) (value : α) :
    (ensure condition error >>= rest) = .ok value ↔
      condition = true ∧ rest () = .ok value := by
  cases condition <;> simp [ensure, bind, Except.bind]

@[simp] theorem ensure_ok {ε : Type} (condition : Bool) (error : ε) (value : Unit) :
    ensure condition error = .ok value ↔ condition = true := by
  cases condition <;> simp [ensure]

theorem ensure_bind_error {ε α : Type} (condition : Bool) (error error' : ε)
    (rest : Unit → Except ε α) :
    (ensure condition error >>= rest) = .error error' ↔
      condition = false ∧ error = error' ∨ condition = true ∧ rest () = .error error' := by
  cases condition <;> simp [ensure, bind, Except.bind]

theorem ensure_error {ε : Type} (condition : Bool) (error error' : ε) :
    ensure condition error = .error error' ↔ condition = false ∧ error = error' := by
  cases condition <;> simp [ensure]

@[simp] theorem except_bind_ok {ε α β : Type} (first : Except ε α)
    (rest : α → Except ε β) (value : β) :
    (first >>= rest) = .ok value ↔ ∃ a, first = .ok a ∧ rest a = .ok value := by
  cases first <;> simp [bind, Except.bind]

def validateRange (field : String) (value min max : Nat) : Except ConfigError Unit :=
  ensure (min ≤ value && value ≤ max)
    (.validation field s!"must be between {min} and {max}, inclusive")

def canonicalDnsName (name : String) : String :=
  toAsciiLowercase (trimEndDots (trim name))

/-- The checks of one label; a leading `*` label is passed over when allowed. -/
def validateLabel (allowWildcard : Bool) (index : Nat) (label : List Char) :
    Except String Unit := do
  ensure (!label.isEmpty) "must not contain empty labels"
  if allowWildcard && index == 0 && label == ['*'] then return ()
  ensure (byteLength label ≤ 63) "each label must not exceed 63 bytes"
  ensure (!(label.head? == some '-' || label.getLast? == some '-'))
    "labels must not start or end with a hyphen"
  ensure (label.all (fun c => isAlphanumeric c || c == '-'))
    "must contain only ASCII letters, digits, hyphens, and dots"

def validateLabels (allowWildcard : Bool) : Nat → List (List Char) → Except String Unit
  | _, [] => return ()
  | index, label :: rest => do
      validateLabel allowWildcard index label
      validateLabels allowWildcard (index + 1) rest

def validateDnsName (name : String) (allowWildcard : Bool) : Except String Unit := do
  ensure (!name.toList.isEmpty) "must not be empty"
  ensure (len name ≤ 253) "must not exceed 253 bytes"
  validateLabels allowWildcard 0 (splitChars '.' name.toList)

def isHexId (value : String) : Bool := len value == 32 && value.toList.all isHexDigit

def validateZoneId (field zoneId : String) : Except ConfigError Unit := do
  ensure (zoneId == toAsciiLowercase (trim zoneId))
    (.validation s!"{field}.zone_id" "must already be lowercase and trimmed")
  ensure (isHexId zoneId)
    (.validation s!"{field}.zone_id" "must be exactly 32 hexadecimal characters")

def validateRecord (record : RecordConfig) (field : String) : Except ConfigError Unit := do
  let zone := canonicalDnsName record.zone
  let name := canonicalDnsName record.name
  ensure (record.zone == zone) (.validation s!"{field}.zone"
    "must already be lowercase, trimmed, and without a trailing dot")
  ensure (record.name == name) (.validation s!"{field}.name"
    "must already be lowercase, trimmed, and without a trailing dot")
  (validateDnsName zone false).mapError (.validation s!"{field}.zone")
  (validateDnsName name true).mapError (.validation s!"{field}.name")
  ensure (name == zone || endsWith name s!".{zone}") (.validation s!"{field}.name"
    s!"{record.name} does not belong to zone {record.zone}")
  match record.zoneId with
  | some zoneId => validateZoneId field zoneId
  | none => pure ()
  ensure (record.ttl == 1 || (60 ≤ record.ttl && record.ttl ≤ 86400))
    (.validation s!"{field}.ttl" "must be 1 (automatic) or between 60 and 86400 seconds")
  ensure (!(record.proxied && record.ttl != 1))
    (.validation s!"{field}.ttl" "must be 1 (automatic) when proxied is true")

/-- The `(zone, name, type)` key under which two records are duplicates. -/
def RecordConfig.key (record : RecordConfig) : String × String × RecordType :=
  (canonicalDnsName record.zone, canonicalDnsName record.name, record.recordType)

variable [Externals]

def validateProvider (field provider : String) (seen : List String) :
    Except ConfigError String := do
  ensure (len provider ≤ 2048) (.validation field "URL is too long")
  let url ← (parseUrl provider).mapError
    (fun error => .validation field s!"invalid URL: {error}")
  ensure (url.scheme == "https")
    (.validation field "only HTTPS provider URLs are allowed")
  ensure url.host.isSome (.validation field "URL must include a host")
  ensure (url.username.isEmpty && url.password.isNone)
    (.validation field "URL must not contain embedded credentials")
  ensure url.fragment.isNone (.validation field "URL fragments are not allowed")
  ensure (!seen.contains url.serialization) (.validation field "duplicate provider URL")
  return url.serialization

def validateProviders (field : String) :
    Nat → List String → List String → Except ConfigError Unit
  | _, _, [] => return ()
  | index, seen, provider :: rest => do
      let url ← validateProvider s!"{field}.providers[{index}]" provider seen
      validateProviders field (index + 1) (url :: seen) rest

def validateDiscovery (field : String) (discovery : IpDiscoveryConfig) :
    Except ConfigError Unit := do
  ensure (!(discovery.enabled && discovery.providers.isEmpty))
    (.validation s!"{field}.providers"
      "must contain at least one provider when discovery is enabled")
  ensure (discovery.providers.length ≤ maxProvidersPerFamily)
    (.validation s!"{field}.providers"
      s!"at most {maxProvidersPerFamily} providers are allowed")
  validateProviders field 0 [] discovery.providers

def Config.discoveryFor (config : Config) : AddressFamily → IpDiscoveryConfig
  | .ipv4 => config.ipv4
  | .ipv6 => config.ipv6

def Config.validateRecords (config : Config) :
    Nat → List (String × String × RecordType) → List RecordConfig →
      Except ConfigError Unit
  | _, _, [] => return ()
  | index, uniqueRecords, record :: rest => do
      let field := s!"records[{index}]"
      validateRecord record field
      let family := record.recordType.family
      ensure (config.discoveryFor family).enabled (.validation s!"{field}.type"
        (s!"{record.recordType.asStr} records require the {family.asStr} " ++
          "discovery section to be enabled"))
      ensure (!uniqueRecords.contains record.key) (.validation field
        (s!"duplicate {record.recordType.asStr} record for {record.name} " ++
          s!"in zone {record.zone}"))
      config.validateRecords (index + 1) (record.key :: uniqueRecords) rest

def validateAccountId (accountId : String) : Except ConfigError Unit := do
  ensure (accountId == toAsciiLowercase (trim accountId))
    (.validation "cloudflare.account_id" "must already be lowercase and trimmed")
  ensure (isHexId accountId)
    (.validation "cloudflare.account_id" "must be exactly 32 hexadecimal characters")

def Config.validate (config : Config) : Except ConfigError Unit := do
  validateRange "interval_seconds" config.intervalSeconds
    minIntervalSeconds maxIntervalSeconds
  validateRange "request_timeout_seconds" config.requestTimeoutSeconds
    minRequestTimeoutSeconds maxRequestTimeoutSeconds
  ensure (startsWith config.cloudflare.apiTokenFile "/")
    (.validation "cloudflare.api_token_file" "must be an absolute path")
  match config.cloudflare.accountId with
  | some accountId => validateAccountId accountId
  | none => pure ()
  ensure (!config.records.isEmpty)
    (.validation "records" "at least one record is required")
  ensure (config.records.length ≤ maxRecords)
    (.validation "records" s!"at most {maxRecords} records are allowed")
  validateDiscovery "ipv4" config.ipv4
  validateDiscovery "ipv6" config.ipv6
  config.validateRecords 0 [] config.records

end Cirrusync
