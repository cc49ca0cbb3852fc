import Cirrusync.Updater

/-!
`Updater::check`: validation of the token, the zones and the records, with the
two kinds of mutation that its flags allow. The handlers take the proofs and the
report as one state, and a `stop` is their `true`, the abort. A hash set of
zones is a list without repetitions, in the order of the configuration.
-/

namespace Cirrusync

open Text Effect

def checkTimeout : Nat := seconds 300
def mutationStartMargin : Nat := seconds 1

structure ConfiguredZone where
  name : String
  explicitId : Option String
  deriving DecidableEq, Repr

namespace ConfiguredZone

def forRecord (record : RecordConfig) : ConfiguredZone :=
  { name := toAsciiLowercase record.zone, explicitId := record.zoneId }

def displayTarget (zone : ConfiguredZone) (resolvedId : Option String) : String :=
  match resolvedId.or zone.explicitId with
  | none => zone.name
  | some zoneId => s!"{zone.name} (zone ID {zoneId})"

end ConfiguredZone

/-- Insert into a sorted map unless the key is there: `entry(..).or_insert(..)`. -/
def insertTarget (key target : String) : List (String × String) → List (String × String)
  | [] => [(key, target)]
  | (key', target') :: rest =>
      if key = key' then (key', target') :: rest
      else if key.toList < key'.toList then (key, target) :: (key', target') :: rest
      else (key', target') :: insertTarget key target rest

structure ZoneProofs where
  expected : List ConfiguredZone
  resolved : List (ConfiguredZone × String)
  provenIds : List String

namespace ZoneProofs

def forConfig (config : Config) : ZoneProofs :=
  { expected := (config.records.map ConfiguredZone.forRecord).dedup
    resolved := []
    provenIds := [] }

def markResolved (proofs : ZoneProofs) (record : RecordConfig) (zoneId : String) :
    ZoneProofs :=
  let zone := ConfiguredZone.forRecord record
  { proofs with resolved :=
      proofs.resolved.filter (fun entry => entry.1 != zone) ++ [(zone, zoneId)] }

def needsProof (proofs : ZoneProofs) (zoneId : String) : Bool :=
  !proofs.provenIds.contains zoneId

def markProven (proofs : ZoneProofs) (zoneId : String) : ZoneProofs :=
  { proofs with provenIds := proofs.provenIds.insert zoneId }

def verifiedCount (proofs : ZoneProofs) : Nat :=
  ((proofs.resolved.map Prod.snd).filter proofs.provenIds.contains).dedup.length

def isComplete (proofs : ZoneProofs) : Bool :=
  proofs.resolved.length == proofs.expected.length &&
    (proofs.resolved.map Prod.snd).all proofs.provenIds.contains

/-- The loop of `unverified_targets`. -/
def collectTargets (proofs : ZoneProofs) (targets : List (String × String))
    (expected : ConfiguredZone) : List (String × String) :=
  match proofs.resolved.lookup expected with
  | some zoneId =>
      if proofs.provenIds.contains zoneId then targets
      else insertTarget s!"resolved:{zoneId}" (expected.displayTarget (some zoneId)) targets
  | none =>
      let explicitId := expected.explicitId.getD ""
      insertTarget s!"unresolved:{expected.name}:{explicitId}"
        (expected.displayTarget none) targets

def unverifiedTargets (proofs : ZoneProofs) : List String :=
  (proofs.expected.foldl proofs.collectTargets []).map Prod.snd

end ZoneProofs

def summarizeCheckProofs (report : CheckReport) (proofs : ZoneProofs) : CheckReport :=
  { report with
    editVerifiedZones := proofs.verifiedCount
    editPermissionVerified := proofs.isComplete }

def finalizeCheckReport (report : CheckReport) (proofs : ZoneProofs)
    (editProbeRequested : Bool) : CheckReport :=
  let message :=
    if editProbeRequested then "DNS edit permission could not be proved for this zone"
    else "DNS edit permission was not exercised; rerun check with --allow-edit-probe"
  proofs.unverifiedTargets.foldl
    (fun report target => report.push (permanentFailure target .editPermission message))
    (summarizeCheckProofs report proofs)

structure CheckOptions where
  allowCreate : Bool
  allowEditProbe : Bool
  deadline : Instant

structure CheckState where
  proofs : ZoneProofs
  report : CheckReport

def CheckState.push (state : CheckState) (failure : CycleFailure) : CheckState :=
  { state with report := state.report.push failure }

inductive CheckLookupError where
  | deadline
  | cloudflare (stage : FailureStage) (error : CloudflareError)

namespace Updater

variable [Externals] (self : Updater)

/-- A Cloudflare error in the report; the flow is stopped when it is global. -/
def failCheck (target : String) (stage : FailureStage) (state : CheckState)
    (error : CloudflareError) : Flow CheckState :=
  let state := state.push (cloudflareFailure target stage error)
  if error.isAuthenticationFailure || error.isRateLimited then .stop state
  else .next state

def mutationCanFinishBefore (deadline : Instant) : M Bool := do
  let required := self.cloudflare.requestTimeout + mutationStartMargin
  let now ← act .now
  return now ≤ deadline && required ≤ deadline - now

def inspectCheckRecord (record : RecordConfig) (deadline : Instant) (proofs : ZoneProofs) :
    M (Except CheckLookupError (String × Option DnsRecord) × ZoneProofs) := do
  match ← timeoutAt deadline
      (self.cloudflare.resolveZoneId record.zone record.zoneId) with
  | none => return (.error .deadline, proofs)
  | some (.error error) => return (.error (.cloudflare .zoneLookup error), proofs)
  | some (.ok zoneId) =>
      let proofs := proofs.markResolved record zoneId
      match ← timeoutAt deadline
          (self.cloudflare.findRecord zoneId record.recordType.asStr record.name) with
      | none => return (.error .deadline, proofs)
      | some (.error error) => return (.error (.cloudflare .recordLookup error), proofs)
      | some (.ok existing) => return (.ok (zoneId, existing), proofs)

def probeEditPermission (zoneId : String) (existing : DnsRecord) :
    M (Except CloudflareError Unit) := do
  match ← guarded (self.cloudflare.probeRecordEdit zoneId existing) with
  | .ok _ => return .ok ()
  | .error error => return .error error

def handleExistingCheckRecord (record : RecordConfig) (zoneId : String)
    (existing : DnsRecord) (options : CheckOptions) (state : CheckState) :
    M (Flow CheckState) := do
  let report := { state.report with existing := state.report.existing + 1 }
  let state := { state with report := report }
  if !options.allowEditProbe || !state.proofs.needsProof zoneId then return .next state
  if !(← self.mutationCanFinishBefore options.deadline) then
    return .stop (state.push checkDeadlineFailure)
  match ← self.probeEditPermission zoneId existing with
  | .ok () => return .next { state with proofs := state.proofs.markProven zoneId }
  | .error error => return failCheck record.name .editPermission state error

/-- The request of the creation path, after its second budget check. -/
def createCheckRecord (record : RecordConfig) (zoneId : String) (payload : RecordPayload)
    (state : CheckState) : M (Flow CheckState) := do
  match ← guarded (self.cloudflare.createRecord zoneId payload) with
  | .ok _ =>
      let report := { state.report with created := state.report.created + 1 }
      return .next { proofs := state.proofs.markProven zoneId, report := report }
  | .error error => return failCheck record.name .creation state error

def handleMissingCheckRecord (record : RecordConfig) (zoneId : String)
    (addresses : DiscoveredAddresses) (options : CheckOptions) (state : CheckState) :
    M (Flow CheckState) := do
  if !record.createIfMissing then
    return .next (state.push (permanentFailure record.name .recordLookup
      "record does not exist and creation is disabled"))
  if !options.allowCreate then
    let report := { state.report with creatable := state.report.creatable + 1 }
    return .next { state with report := report }
  match addresses.forRecord record with
  | .error _ => return .next state
  | .ok address =>
      if !(← self.mutationCanFinishBefore options.deadline) then
        return .stop (state.push checkDeadlineFailure)
      let payload := recordPayload record address
      match ← timeoutAt options.deadline
          (self.cloudflare.findRecord zoneId payload.recordType payload.name) with
      | none => return .stop (state.push checkDeadlineFailure)
      | some (.error error) => return failCheck record.name .recordLookup state error
      | some (.ok (some existing)) =>
          self.handleExistingCheckRecord record zoneId existing options state
      | some (.ok none) => do
          if !(← self.mutationCanFinishBefore options.deadline) then
            return .stop (state.push checkDeadlineFailure)
          self.createCheckRecord record zoneId payload state

/-- The body of the loop of `check_records`. -/
def checkRecord (addresses : DiscoveredAddresses) (options : CheckOptions)
    (record : RecordConfig) (state : CheckState) : M (Flow CheckState) := do
  let (inspected, proofs) ←
    self.inspectCheckRecord record options.deadline state.proofs
  let state := { state with proofs := proofs }
  match inspected with
  | .error .deadline => return .stop (state.push checkDeadlineFailure)
  | .error (.cloudflare stage error) => return failCheck record.name stage state error
  | .ok (zoneId, some existing) =>
      self.handleExistingCheckRecord record zoneId existing options state
  | .ok (zoneId, none) =>
      self.handleMissingCheckRecord record zoneId addresses options state

def checkRecords (addresses : DiscoveredAddresses) (options : CheckOptions) :
    List RecordConfig → CheckState → M CheckState
  | [], state => return state
  | record :: rest, state => do
      match ← self.checkRecord addresses options record state with
      | .next state => checkRecords addresses options rest state
      | .stop state => return state

/-- `check_until` after the token has been verified. -/
def checkAddressesAndRecords (allowCreate allowEditProbe : Bool) (deadline : Instant)
    (proofs : ZoneProofs) (report : CheckReport) : M CheckReport := do
  match ← timeoutAt deadline self.discoverRequiredAddresses with
  | none => return summarizeCheckProofs (report.push checkDeadlineFailure) proofs
  | some addresses => do
      let report := { report with
        failures := report.failures ++ addresses.discoveryFailures }
      let options : CheckOptions :=
        { allowCreate := allowCreate, allowEditProbe := allowEditProbe,
          deadline := deadline }
      act .newControl
      let state ← self.checkRecords addresses options self.config.records
        { proofs := proofs, report := report }
      return finalizeCheckReport state.report state.proofs allowEditProbe

def checkUntil (allowCreate allowEditProbe : Bool) (deadline : Instant) :
    M CheckReport := do
  let report : CheckReport := { records := self.config.records.length }
  let proofs := ZoneProofs.forConfig self.config
  match ← timeoutAt deadline self.cloudflare.verifyToken with
  | none => return summarizeCheckProofs (report.push checkDeadlineFailure) proofs
  | some (.ok ()) =>
      self.checkAddressesAndRecords allowCreate allowEditProbe deadline proofs
        { report with authenticated := true }
  | some (.error error) =>
      let report := report.push
        (cloudflareFailure "Cloudflare API token" .authentication error)
      if error.isAuthenticationFailure || error.isPermissionDenied ||
          error.isRateLimited then
        return summarizeCheckProofs report proofs
      else
        self.checkAddressesAndRecords allowCreate allowEditProbe deadline proofs report

def check (allowCreate allowEditProbe : Bool) : M CheckReport := do
  if allowCreate || allowEditProbe then
    match ← self.runtimeLock.acquire with
    | .error error =>
        let report : CheckReport := { records := self.config.records.length }
        return report.push (coordinationFailure error)
    | .ok lock => do
        let now ← act .now
        let report ← self.checkUntil allowCreate allowEditProbe (now + checkTimeout)
        lock.drop
        return report
  else
    let now ← act .now
    self.checkUntil allowCreate allowEditProbe (now + checkTimeout)

end Updater

end Cirrusync
