import Cirrusync.Config
import Cirrusync.Toml.Document

/-!
`Config::from_toml`. The TOML parser is a function from texts to tables that may
fail; what `serde` derives for the settings is written out on the tables. The
position that a parse error names is not modelled.
-/

namespace Cirrusync

open Text TomlDoc

def maxConfigBytes : Nat := 256 * 1024
def defaultIntervalSeconds : Nat := 300
def defaultRequestTimeoutSeconds : Nat := 15
def defaultTtl : Nat := 120
def defaultTokenPath : String := "/etc/cirrusync/token"

inductive LoadError where
  | parse
  | configTooLarge
  | validation (error : ConfigError)
  deriving DecidableEq, Repr

/-- `deny_unknown_fields`. -/
def knownFields (table : Table) (fields : List String) : Bool :=
  table.all (fun entry => fields.contains entry.1)

/-- The fields of a struct, found by their names: in a table that has no other entries, or in
an array that has them in the order of their declaration. What comes after them in the array
is not looked at. -/
def fieldsOf (names : List String) : Value → Option (String → Option Value)
  | .table table => if knownFields table names then some fun name => table.lookup name else none
  | .array items => some fun name => items[names.idxOf name]?
  | _ => none

theorem fieldsOf_table {names : List String} {table : Table} (h : knownFields table names = true) :
    fieldsOf names (.table table) = some fun name => table.lookup name := by
  rw [fieldsOf, if_pos h]

/-- A field of a struct; one that is left out has its default, if there is one. -/
def readField {α : Type} (fields : String → Option Value) (name : String)
    (decode : Value → Option α) (default : Option α) : Option α :=
  match fields name with
  | some value => decode value
  | none => default

def decodeString : Value → Option String
  | .string text => some text
  | _ => none

def decodeBool : Value → Option Bool
  | .boolean value => some value
  | _ => none

/-- An unsigned integer below a bound. -/
def decodeUnsigned (bound : Nat) : Value → Option Nat
  | .integer number => if 0 ≤ number ∧ number < bound then some number.toNat else none
  | _ => none

def decodeVec {α : Type} (decode : Value → Option α) : Value → Option (List α)
  | .array items => items.mapM decode
  | _ => none

/-- The variants of `RecordType` by their names. -/
def recordTypeNamed (name : String) : Option RecordType :=
  if name = "A" then some .a else if name = "AAAA" then some .aaaa else none

/-- A variant without data stands as its name, or as a table of one entry that has this name
and nothing in it. -/
def decodeRecordType : Value → Option RecordType
  | .string text => recordTypeNamed text
  | .table [(name, .table [])] | .table [(name, .array [])] => recordTypeNamed name
  | _ => none

def decodeRecord (value : Value) : Option RecordConfig := do
  let fields ← fieldsOf
    ["zone", "zone_id", "name", "type", "ttl", "proxied", "create_if_missing"] value
  let zone ← readField fields "zone" decodeString none
  let zoneId ← readField fields "zone_id" (fun value => (decodeString value).map some) (some none)
  let name ← readField fields "name" decodeString none
  let recordType ← readField fields "type" decodeRecordType none
  let ttl ← readField fields "ttl" (decodeUnsigned (2 ^ 32)) (some defaultTtl)
  let proxied ← readField fields "proxied" decodeBool (some false)
  let createIfMissing ← readField fields "create_if_missing" decodeBool (some false)
  return ⟨zone, zoneId, name, recordType, ttl, proxied, createIfMissing⟩

def decodeDiscovery (value : Value) : Option IpDiscoveryConfig := do
  let fields ← fieldsOf ["enabled", "providers"] value
  let enabled ← readField fields "enabled" decodeBool (some false)
  let providers ← readField fields "providers" (decodeVec decodeString) (some [])
  return ⟨enabled, providers⟩

def decodeCloudflare (value : Value) : Option CloudflareConfig := do
  let fields ← fieldsOf ["api_token_file", "account_id"] value
  let apiTokenFile ← readField fields "api_token_file" decodeString (some defaultTokenPath)
  let accountId ← readField fields "account_id" (fun value => (decodeString value).map some)
    (some none)
  return ⟨apiTokenFile, accountId⟩

/-- `Config::default`. -/
def Config.default : Config where
  intervalSeconds := defaultIntervalSeconds
  requestTimeoutSeconds := defaultRequestTimeoutSeconds
  cloudflare := ⟨defaultTokenPath, none⟩
  ipv4 := ⟨true, ["https://api.cloudflare.com/cdn-cgi/trace", "https://api.ipify.org"]⟩
  ipv6 := ⟨false, ["https://api6.ipify.org"]⟩
  records := []

def decodeConfig (table : Table) : Option Config := do
  let fields ← fieldsOf ["interval_seconds", "request_timeout_seconds", "cloudflare", "ipv4",
    "ipv6", "records"] (.table table)
  let intervalSeconds ← readField fields "interval_seconds" (decodeUnsigned (2 ^ 64))
    (some Config.default.intervalSeconds)
  let requestTimeoutSeconds ← readField fields "request_timeout_seconds"
    (decodeUnsigned (2 ^ 64)) (some Config.default.requestTimeoutSeconds)
  let cloudflare ← readField fields "cloudflare" decodeCloudflare (some Config.default.cloudflare)
  let ipv4 ← readField fields "ipv4" decodeDiscovery (some Config.default.ipv4)
  let ipv6 ← readField fields "ipv6" decodeDiscovery (some Config.default.ipv6)
  let records ← readField fields "records" (decodeVec decodeRecord) (some Config.default.records)
  return ⟨intervalSeconds, requestTimeoutSeconds, cloudflare, ipv4, ipv6, records⟩

/-- An optional identifier, lowercase and trimmed, and none when nothing is left. -/
def canonicalId (value : Option String) : Option String :=
  (value.map (fun text => toAsciiLowercase (trim text))).filter (fun text => text != "")

def RecordConfig.canonicalize (record : RecordConfig) : RecordConfig :=
  { record with
    zone := canonicalDnsName record.zone
    name := canonicalDnsName record.name
    zoneId := canonicalId record.zoneId }

def IpDiscoveryConfig.canonicalize (discovery : IpDiscoveryConfig) : IpDiscoveryConfig :=
  { discovery with providers := discovery.providers.map trim }

def Config.canonicalize (config : Config) : Config :=
  { config with
    cloudflare := { config.cloudflare with accountId := canonicalId config.cloudflare.accountId }
    ipv4 := config.ipv4.canonicalize
    ipv6 := config.ipv6.canonicalize
    records := config.records.map RecordConfig.canonicalize }

section

variable [Externals]

-- `toml::from_str` up to the settings
variable (loads : List Char → Option Table)

/-- `Config::parse`. -/
def Config.fromToml (contents : List Char) : Except LoadError Config := do
  ensure (byteLength contents ≤ maxConfigBytes) .configTooLarge
  match (loads contents).bind decodeConfig with
  | none => .error .parse
  | some parsed =>
      let config := parsed.canonicalize
      config.validate.mapError .validation
      return config

end

end Cirrusync
