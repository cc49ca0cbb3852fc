import Cirrusync.Operation

/-!
`CloudflareClient`: one request at a time, its zone-id cache reached through
cache operations. The page loops count the pages that are left down from
`MAX_PAGES`, so `page > MAX_PAGES` is the case of none left.
-/

namespace Cirrusync

open Text Effect

structure CloudflareClient where
  apiToken : String
  verificationTarget : VerificationTarget
  requestTimeout : Nat
  deriving DecidableEq, Repr

def accountIdHint : String :=
  "verify that cloudflare.account_id is the token's owning account"

def contextualizeAccountVerificationError : CloudflareError → CloudflareError
  | .authentication status message errors => .authentication status
      (sanitizeAndTruncate s!"{message}; {accountIdHint}" maxErrorSummaryBytes) errors
  | .permissionDenied status message errors => .permissionDenied status
      (sanitizeAndTruncate s!"{message}; {accountIdHint}" maxErrorSummaryBytes) errors
  | other => other

def hasNextPage (page resultCount pageSize : Nat) (resultInfo : Option ResultInfo) : Bool :=
  match resultInfo.bind ResultInfo.totalPages with
  | some totalPages => page < totalPages
  | none => resultCount == pageSize

def DnsRecord.isExactMatch (recordType name : String) (record : DnsRecord) : Bool :=
  eqIgnoreAsciiCase record.name name && eqIgnoreAsciiCase record.recordType recordType

/-- The loop over the records of one page. -/
def scanRecords (recordType name : String) :
    List DnsRecord → Option DnsRecord → Except CloudflareError (Option DnsRecord)
  | [], exactMatch => .ok exactMatch
  | record :: rest, exactMatch =>
      if record.isExactMatch recordType name then
        match exactMatch with
        | some _ => .error (.ambiguousRecord recordType name)
        | none => scanRecords recordType name rest (some record)
      else scanRecords recordType name rest exactMatch

def Zone.isActive (zone : Zone) : Bool := eqIgnoreAsciiCase zone.status "active"

namespace CloudflareClient

variable [Externals] (self : CloudflareClient)

def sanitizeRemote (value : String) (maxBytes : Nat) : String :=
  sanitizeRemoteValue value self.apiToken maxBytes

def send (request : Request) :
    M (Except CloudflareError (ApiResponse request.kind.Value)) := do
  let outcome ← await (.http request)
  return receive self.apiToken request outcome

def invalidateZoneAfterNotFound (zoneId : String) (error : CloudflareError) : M Unit :=
  if error.isNotFound then act (.cacheEvict zoneId) else return ()

/-- `send` for a request on the records of a zone, whose failure with a 404
evicts the zone from the cache. -/
def sendInZone (zoneId : String) (request : Request) :
    M (Except CloudflareError (ApiResponse request.kind.Value)) := do
  match ← self.send request with
  | .ok response => return .ok response
  | .error error => do
      invalidateZoneAfterNotFound zoneId error
      return .error error

def verifyToken : M (Except CloudflareError Unit) := do
  match ← self.send (.verifyToken self.verificationTarget) with
  | .error error =>
      match self.verificationTarget with
      | .account _ => return .error (contextualizeAccountVerificationError error)
      | .user => return .error error
  | .ok response =>
      if eqIgnoreAsciiCase response.result.status "active" then return .ok ()
      else return .error (.tokenInactive
        (self.sanitizeRemote response.result.status maxErrorMessageBytes))

def explicitCacheKey (zoneName zoneId : String) : String :=
  s!"id:{toAsciiLowercase zoneId}:{toAsciiLowercase zoneName}"

def namedCacheKey (zoneName : String) : String := s!"name:{toAsciiLowercase zoneName}"

/-- The checks of an explicit zone's response. -/
def checkExplicitZone (zoneName zoneId : String) (zone : Zone) :
    Except CloudflareError Unit := do
  ensure (eqIgnoreAsciiCase zone.name zoneName)
    (.zoneNameMismatch zoneName (self.sanitizeRemote zone.name maxErrorMessageBytes) zoneId)
  ensure (eqIgnoreAsciiCase zone.id zoneId)
    (.zoneIdMismatch zoneId (self.sanitizeRemote zone.id maxErrorMessageBytes))
  ensure zone.isActive
    (.zoneNotActive zoneName (self.sanitizeRemote zone.status maxErrorMessageBytes))

def resolveExplicitZoneId (zoneName zoneId : String) :
    M (Except CloudflareError String) := do
  let cacheKey := explicitCacheKey zoneName zoneId
  match ← act (.cacheGet cacheKey) with
  | some cachedZoneId => return .ok cachedZoneId
  | none =>
      match ← self.send (.getZone zoneId) with
      | .error error => return .error error
      | .ok response =>
          match self.checkExplicitZone zoneName zoneId response.result with
          | .error error => return .error error
          | .ok () => do
              act (.cacheInsert cacheKey zoneId)
              return .ok zoneId

/-- The loop over the zones of one page. -/
def scanZones (zoneName : String) :
    List Zone → Option String → Option String →
      Except CloudflareError (Option String × Option String)
  | [], exactMatch, inactiveMatch => .ok (exactMatch, inactiveMatch)
  | zone :: rest, exactMatch, inactiveMatch =>
      if eqIgnoreAsciiCase zone.name zoneName then
        if zone.isActive then
          match exactMatch with
          | some _ => .error (.ambiguousZone zoneName)
          | none => scanZones zoneName rest (some zone.id) inactiveMatch
        else match inactiveMatch with
          | some _ => scanZones zoneName rest exactMatch inactiveMatch
          | none => scanZones zoneName rest exactMatch
              (some (self.sanitizeRemote zone.status maxErrorMessageBytes))
      else scanZones zoneName rest exactMatch inactiveMatch

/-- What the last page leads to. -/
def concludeZone (zoneName : String) (exactMatch inactiveMatch : Option String) :
    Except CloudflareError String :=
  match exactMatch with
  | some zoneId => .ok zoneId
  | none =>
      match inactiveMatch with
      | some status => .error (.zoneNotActive zoneName status)
      | none => .error (.zoneNotFound zoneName)

def zonePages (zoneName : String) :
    Nat → Nat → Option String → Option String → M (Except CloudflareError String)
  | 0, _, _, _ => return .error (.paginationLimit "looking up a zone")
  | left + 1, page, exactMatch, inactiveMatch => do
      match ← self.send (.listZones zoneName page zonePageSize) with
      | .error error => return .error error
      | .ok response =>
          match self.scanZones zoneName response.result exactMatch inactiveMatch with
          | .error error => return .error error
          | .ok (exactMatch, inactiveMatch) =>
              if hasNextPage page response.result.length zonePageSize
                  response.resultInfo then
                zonePages zoneName left (page + 1) exactMatch inactiveMatch
              else
                match concludeZone zoneName exactMatch inactiveMatch with
                | .error error => return .error error
                | .ok zoneId => do
                    act (.cacheInsert (namedCacheKey zoneName) zoneId)
                    return .ok zoneId

def resolveNamedZoneId (zoneName : String) : M (Except CloudflareError String) := do
  match ← act (.cacheGet (namedCacheKey zoneName)) with
  | some zoneId => return .ok zoneId
  | none => self.zonePages zoneName maxPages 1 none none

def resolveZoneId (zoneName : String) (explicitZoneId : Option String) :
    M (Except CloudflareError String) :=
  match explicitZoneId with
  | some zoneId => self.resolveExplicitZoneId zoneName zoneId
  | none => self.resolveNamedZoneId zoneName

def recordPages (zoneId recordType name : String) :
    Nat → Nat → Option DnsRecord → M (Except CloudflareError (Option DnsRecord))
  | 0, _, _ => return .error (.paginationLimit "looking up a DNS record")
  | left + 1, page, exactMatch => do
      match ← self.sendInZone zoneId
          (.listRecords zoneId recordType name page recordPageSize) with
      | .error error => return .error error
      | .ok response =>
          match scanRecords recordType name response.result exactMatch with
          | .error error => return .error error
          | .ok exactMatch =>
              if hasNextPage page response.result.length recordPageSize
                  response.resultInfo then
                recordPages zoneId recordType name left (page + 1) exactMatch
              else return .ok exactMatch

def findRecord (zoneId recordType name : String) :
    M (Except CloudflareError (Option DnsRecord)) :=
  self.recordPages zoneId recordType name maxPages 1 none

def updateRecord (zoneId recordId : String) (payload : RecordPayload) :
    M (Except CloudflareError DnsRecord) := do
  match ← self.sendInZone zoneId (.updateRecord zoneId recordId payload) with
  | .ok response => return .ok response.result
  | .error error => return .error error

def probeRecordEdit (zoneId : String) (record : DnsRecord) :
    M (Except CloudflareError DnsRecord) := do
  let payload : EditProbePayload :=
    { recordType := record.recordType, name := record.name, ttl := record.ttl }
  match ← self.sendInZone zoneId (.probeRecord zoneId record.id payload) with
  | .ok response => return .ok response.result
  | .error error => return .error error

def createRecord (zoneId : String) (payload : RecordPayload) :
    M (Except CloudflareError DnsRecord) := do
  match ← self.sendInZone zoneId (.createRecord zoneId payload) with
  | .ok response => return .ok response.result
  | .error error => return .error error

end CloudflareClient

end Cirrusync
