import Cirrusync.Report

/-!
`Updater::run_cycle`: discover the addresses, then visit the records in rotated
order. The body of the source's record loop is `visitRecord`, whose result says
whether the loop goes on or is left.
-/

namespace Cirrusync

open Effect

structure Updater where
  config : Config
  cloudflare : CloudflareClient
  publicIp : PublicIpClient
  runtimeLock : RuntimeLockIdentity

inductive RecordPlan where
  | unchanged
  | update (zoneId recordId : String) (payload : RecordPayload)
  | create (zoneId : String) (payload : RecordPayload)
  deriving DecidableEq, Repr

inductive RecordOutcome where
  | unchanged
  | updated
  | created
  deriving DecidableEq, Repr

structure DiscoveredAddresses where
  ipv4 : Option (Except String IpAddr)
  ipv6 : Option (Except String IpAddr)
  deriving DecidableEq

namespace DiscoveredAddresses

def discovered (addresses : DiscoveredAddresses) :
    AddressFamily → Option (Except String IpAddr)
  | .ipv4 => addresses.ipv4
  | .ipv6 => addresses.ipv6

def forRecord (addresses : DiscoveredAddresses) (record : RecordConfig) :
    Except String IpAddr :=
  match addresses.discovered record.recordType.family with
  | some (.ok address) => .ok address
  | some (.error message) => .error message
  | none => .error s!"{record.recordType.asStr} address discovery was not configured"

def discoveryFailure (target : String) : Option (Except String IpAddr) → List CycleFailure
  | some (.error message) =>
      [{ target := target
         stage := .discovery
         kind := .transient
         retryAfter := none
         message := message }]
  | _ => []

/-- `append_discovery_failures`. -/
def discoveryFailures (addresses : DiscoveredAddresses) : List CycleFailure :=
  discoveryFailure "public IPv4 address" addresses.ipv4 ++
    discoveryFailure "public IPv6 address" addresses.ipv6

end DiscoveredAddresses

/-- Whether a loop goes on with a value or is left with it. -/
inductive Flow (α : Type) where
  | next (value : α)
  | stop (value : α)

section

variable [Externals]

def recordPayload (record : RecordConfig) (address : IpAddr) : RecordPayload :=
  { recordType := record.recordType.asStr
    name := record.name
    content := formatIpAddr address
    ttl := record.ttl
    proxied := record.proxied }

/-- The test of `plan_existing_record`. -/
def isUpToDate (record : RecordConfig) (address : IpAddr) (existing : DnsRecord) : Bool :=
  parseIpAddr existing.content == some address && existing.ttl == record.ttl &&
    existing.proxied == record.proxied

def planExistingRecord (record : RecordConfig) (address : IpAddr) (zoneId : String)
    (existing : DnsRecord) : RecordPlan :=
  if isUpToDate record address existing then .unchanged
  else .update zoneId existing.id (recordPayload record address)

end

/-- A mutation runs with the in-flight flag set; the guard clears it. -/
def guarded {α : Type} (mutation : M α) : M α := do
  act (.setMutationInFlight true)
  let result ← mutation
  act (.setMutationInFlight false)
  return result

namespace Updater

variable [Externals] (self : Updater)

/-- One family of `discover_required_addresses`. -/
def discoverFamily (family : AddressFamily) : M (Option (Except String IpAddr)) :=
  if self.config.records.any (fun record => record.recordType.family == family) then do
    let result ← self.publicIp.discover family (self.config.discoveryFor family).providers
    return some (result.mapError PublicIpError.display)
  else return none

def discoverRequiredAddresses : M DiscoveredAddresses := do
  let (ipv4, ipv6) ← join (self.discoverFamily .ipv4) (self.discoverFamily .ipv6)
  return { ipv4 := ipv4, ipv6 := ipv6 }

def planRecord (record : RecordConfig) (address : IpAddr) :
    M (Except (FailureStage × CloudflareError) RecordPlan) := do
  match ← self.cloudflare.resolveZoneId record.zone record.zoneId with
  | .error error => return .error (.zoneLookup, error)
  | .ok zoneId =>
      match ← self.cloudflare.findRecord zoneId record.recordType.asStr record.name with
      | .error error => return .error (.recordLookup, error)
      | .ok (some existing) =>
          return .ok (planExistingRecord record address zoneId existing)
      | .ok none =>
          if !record.createIfMissing then
            return .error (.recordLookup,
              .recordNotFound record.recordType.asStr record.name)
          else
            match ← self.cloudflare.findRecord zoneId record.recordType.asStr
                record.name with
            | .error error => return .error (.recordLookup, error)
            | .ok (some existing) =>
                return .ok (planExistingRecord record address zoneId existing)
            | .ok none => return .ok (.create zoneId (recordPayload record address))

def executeRecordPlan (plan : RecordPlan) :
    M (Except (FailureStage × CloudflareError) RecordOutcome) :=
  match plan with
  | .unchanged => return .ok .unchanged
  | .update zoneId recordId payload => do
      match ← guarded (self.cloudflare.updateRecord zoneId recordId payload) with
      | .ok _ => return .ok .updated
      | .error error => return .error (.update, error)
  | .create zoneId payload => do
      match ← guarded (self.cloudflare.createRecord zoneId payload) with
      | .ok _ => return .ok .created
      | .error error => return .error (.creation, error)

/-- How an outcome enters the report. -/
def settle (record : RecordConfig) (report : CycleReport) :
    Except (FailureStage × CloudflareError) RecordOutcome → Flow CycleReport
  | .ok .unchanged => .next { report with unchanged := report.unchanged + 1 }
  | .ok .updated => .next { report with updated := report.updated + 1 }
  | .ok .created => .next { report with created := report.created + 1 }
  | .error (stage, error) =>
      let report := report.push (cloudflareFailure record.name stage error)
      if error.isAuthenticationFailure || error.isRateLimited then .stop report
      else .next report

def visitRecord (deadline : Instant) (addresses : DiscoveredAddresses)
    (record : RecordConfig) (report : CycleReport) : M (Flow CycleReport) := do
  if ← act .stopRequested then
    return .stop { report with interrupted := true }
  match addresses.forRecord record with
  | .error _ => return .next report
  | .ok address =>
      match ← timeoutAt deadline (self.planRecord record address) with
      | none => return .stop (report.push cycleDeadlineFailure)
      | some (.error error) => return settle record report (.error error)
      | some (.ok plan) => do
          let now ← act .now
          if deadline ≤ now then return .stop (report.push cycleDeadlineFailure)
          let outcome ← self.executeRecordPlan plan
          return settle record report outcome

def visitRecords (deadline : Instant) (addresses : DiscoveredAddresses) :
    List RecordConfig → CycleReport → M CycleReport
  | [], report => return report
  | record :: rest, report => do
      match ← self.visitRecord deadline addresses record report with
      | .next report => visitRecords deadline addresses rest report
      | .stop report => return report

/-- The records in the order of one cycle: from the cursor on, cyclically. -/
def rotated (records : List RecordConfig) (cursor : Nat) : List RecordConfig :=
  let startIndex := cursor % records.length
  (List.range records.length).filterMap
    (fun offset => records[(startIndex + offset) % records.length]?)

def runCycleUntil (deadline : Instant) : M CycleReport := do
  let report : CycleReport := { records := self.config.records.length }
  match ← timeoutAt deadline self.discoverRequiredAddresses with
  | none => return report.push cycleDeadlineFailure
  | some addresses => do
      let report := { report with failures := addresses.discoveryFailures }
      if self.config.records.isEmpty then return report
      let cursor ← act .fetchAddCursor
      self.visitRecords deadline addresses (rotated self.config.records cursor) report

def runCycleLocked : M CycleReport := do
  let now ← act .now
  self.runCycleUntil (now + seconds self.config.intervalSeconds)

def runCycle : M CycleReport := do
  act .newControl
  match ← self.runtimeLock.acquire with
  | .error error =>
      let report : CycleReport := { records := self.config.records.length }
      return report.push (coordinationFailure error)
  | .ok lock => do
      let report ← self.runCycleLocked
      lock.drop
      return report

end Updater

end Cirrusync
