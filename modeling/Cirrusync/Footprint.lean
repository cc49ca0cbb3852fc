import Cirrusync.CycleRuns

/-!
Which operations each part of the code uses, whatever it is answered: discovery
asks the providers, a lookup reads from the API and keeps the zone cache, and
the runtime lock touches its files only.
-/

namespace Cirrusync

open Effect

def DiscoveryOp : Op → Prop
  | .act (.begin (.query _ _)) | .finish (.query _ _) | .finishBefore _ (.query _ _)
  | .act .now | .act .schedule => True
  | _ => False

def LookupOp : Op → Prop
  | .act (.begin (.http request)) | .finish (.http request)
  | .finishBefore _ (.http request) => request.isMutation = false
  | .act (.cacheGet _) | .act (.cacheInsert _ _) | .act (.cacheEvict _) => True
  | _ => False

def LockOp : Op → Prop
  | .act (.prepareLockParent _ _) | .act (.openRuntimeLock _) | .act (.tryLock _)
  | .act (.unlock _) | .act (.closeLock _) => True
  | _ => False

/-- Operations without a deadline of their own. -/
def UnboundedOp : Op → Prop
  | .finishBefore _ _ => False
  | _ => True

/-- What a lookup asks while no deadline is set on it. -/
def ReadOp (op : Op) : Prop := LookupOp op ∧ UnboundedOp op

/-- What discovery asks while no deadline is set on it. -/
def QueryOp (op : Op) : Prop := DiscoveryOp op ∧ UnboundedOp op

theorem DiscoveryOp.finishBefore {deadline : Instant} {wait : Await}
    (h : DiscoveryOp (.finish wait)) : DiscoveryOp (.finishBefore deadline wait) := by
  cases wait <;> exact h

theorem LookupOp.finishBefore {deadline : Instant} {wait : Await}
    (h : LookupOp (.finish wait)) : LookupOp (.finishBefore deadline wait) := by
  cases wait <;> exact h

theorem closeFiles_uses (files : List String) :
    Uses LockOp (RuntimeLockIdentity.closeFiles files) := by
  induction files with
  | nil => trivial
  | cons file rest ih => exact ⟨trivial, fun _ => ih⟩

theorem unlockFiles_uses (files : List String) :
    Uses LockOp (RuntimeLockGuard.unlockFiles files) := by
  induction files with
  | nil => trivial
  | cons file rest ih => exact ⟨trivial, fun _ => ih⟩

theorem lockFiles_uses (paths files : List String) :
    Uses LockOp (RuntimeLockIdentity.lockFiles paths files) := by
  induction paths generalizing files with
  | nil => trivial
  | cons path rest ih =>
      simp only [RuntimeLockIdentity.lockFiles, act_eq, Program.ask_bind,
        Program.done_bind, uses_ask]
      refine ⟨trivial, fun opened => ?_⟩
      cases opened with
      | error error => exact uses_bind (closeFiles_uses files) fun _ => trivial
      | ok value =>
          refine ⟨trivial, fun locked => ?_⟩
          cases locked with
          | ok => exact ih _
          | error fault =>
              have hclose := closeFiles_uses (path :: files)
              cases fault with
              | contended => exact uses_bind hclose fun _ => trivial
              | other source => exact uses_bind hclose fun _ => trivial

theorem acquire_uses (identity : RuntimeLockIdentity) : Uses LockOp identity.acquire := by
  unfold RuntimeLockIdentity.acquire
  split
  · trivial
  · refine ⟨trivial, fun prepared => ?_⟩
    cases prepared with
    | error error => trivial
    | ok parent => exact lockFiles_uses _ _

theorem drop_uses (guard : RuntimeLockGuard) : Uses LockOp guard.drop :=
  uses_bind (unlockFiles_uses guard.files) fun _ => closeFiles_uses guard.files

theorem uses_guarded {α : Type} {allowed : Op → Prop} {mutation : M α}
    (hflag : ∀ flag, allowed (.act (.setMutationInFlight flag)))
    (hmutation : Uses allowed mutation) : Uses allowed (guarded mutation) := by
  simp only [guarded, act_eq, Program.ask_bind, Program.done_bind, uses_ask]
  refine ⟨hflag true, fun _ => uses_bind hmutation fun result => ?_⟩
  exact ⟨hflag false, fun _ => trivial⟩

section

variable [Externals]

namespace CloudflareClient

variable (self : CloudflareClient)

theorem uses_send {allowed : Op → Prop} {request : Request}
    (hbegin : allowed (.act (.begin (.http request))))
    (hfinish : allowed (.finish (.http request))) : Uses allowed (self.send request) :=
  ⟨hbegin, fun _ => ⟨hfinish, fun _ => trivial⟩⟩

theorem send_reads {request : Request} (hread : request.isMutation = false) :
    Uses ReadOp (self.send request) :=
  self.uses_send ⟨hread, trivial⟩ ⟨hread, trivial⟩

theorem uses_sendInZone {allowed : Op → Prop} {zoneId : String} {request : Request}
    (hbegin : allowed (.act (.begin (.http request))))
    (hfinish : allowed (.finish (.http request)))
    (hevict : allowed (.act (.cacheEvict zoneId))) :
    Uses allowed (self.sendInZone zoneId request) := by
  simp only [sendInZone, send, await_eq, Program.ask_bind, Program.done_bind,
    Program.pure_eq, uses_ask]
  refine ⟨hbegin, fun _ => ⟨hfinish, fun outcome => ?_⟩⟩
  cases receive self.apiToken request outcome with
  | ok response => trivial
  | error error =>
      simp only [invalidateZoneAfterNotFound]
      split
      · exact ⟨hevict, fun _ => trivial⟩
      · trivial

/-- A mutation uses its own request and the eviction of its zone. -/
theorem updateRecord_uses {allowed : Op → Prop} {zoneId recordId : String}
    {payload : RecordPayload}
    (hbegin : allowed (.act (.begin (.http (.updateRecord zoneId recordId payload)))))
    (hfinish : allowed (.finish (.http (.updateRecord zoneId recordId payload))))
    (hevict : allowed (.act (.cacheEvict zoneId))) :
    Uses allowed (self.updateRecord zoneId recordId payload) := by
  apply uses_bind (self.uses_sendInZone hbegin hfinish hevict)
  intro result
  cases result <;> trivial

theorem createRecord_uses {allowed : Op → Prop} {zoneId : String} {payload : RecordPayload}
    (hbegin : allowed (.act (.begin (.http (.createRecord zoneId payload)))))
    (hfinish : allowed (.finish (.http (.createRecord zoneId payload))))
    (hevict : allowed (.act (.cacheEvict zoneId))) :
    Uses allowed (self.createRecord zoneId payload) := by
  apply uses_bind (self.uses_sendInZone hbegin hfinish hevict)
  intro result
  cases result <;> trivial

theorem probeRecordEdit_uses {allowed : Op → Prop} {zoneId : String} {record : DnsRecord}
    (hbegin : ∀ payload, allowed (.act (.begin (.http
      (.probeRecord zoneId record.id payload)))))
    (hfinish : ∀ payload, allowed (.finish (.http
      (.probeRecord zoneId record.id payload))))
    (hevict : allowed (.act (.cacheEvict zoneId))) :
    Uses allowed (self.probeRecordEdit zoneId record) := by
  apply uses_bind (self.uses_sendInZone (hbegin _) (hfinish _) hevict)
  intro result
  cases result <;> trivial

theorem uses_verifyToken {allowed : Op → Prop}
    (hbegin : allowed (.act (.begin (.http (.verifyToken self.verificationTarget)))))
    (hfinish : allowed (.finish (.http (.verifyToken self.verificationTarget)))) :
    Uses allowed self.verifyToken := by
  unfold verifyToken
  apply uses_bind (self.uses_send hbegin hfinish)
  intro result
  cases result with
  | error error =>
      simp only
      split <;> trivial
  | ok response =>
      simp only
      split <;> trivial

theorem verifyToken_reads : Uses ReadOp self.verifyToken :=
  self.uses_verifyToken ⟨rfl, trivial⟩ ⟨rfl, trivial⟩

theorem verifyToken_uses : Uses LookupOp self.verifyToken :=
  uses_mono self.verifyToken_reads fun _ => And.left

theorem resolveExplicitZoneId_reads (zoneName zoneId : String) :
    Uses ReadOp (self.resolveExplicitZoneId zoneName zoneId) := by
  refine ⟨⟨trivial, trivial⟩, fun cached => ?_⟩
  cases cached with
  | some cachedZoneId => trivial
  | none =>
      apply uses_bind (self.send_reads rfl)
      intro result
      cases result with
      | error error => trivial
      | ok response =>
          simp only
          split
          · trivial
          · exact ⟨⟨trivial, trivial⟩, fun _ => trivial⟩

theorem zonePages_reads (zoneName : String) (left page : Nat)
    (exactMatch inactiveMatch : Option String) :
    Uses ReadOp (self.zonePages zoneName left page exactMatch inactiveMatch) := by
  induction left generalizing page exactMatch inactiveMatch with
  | zero => trivial
  | succ left ih =>
      unfold zonePages
      apply uses_bind (self.send_reads rfl)
      intro result
      cases result with
      | error error => trivial
      | ok response =>
          simp only
          split
          · trivial
          · split
            · exact ih _ _ _
            · split
              · trivial
              · exact ⟨⟨trivial, trivial⟩, fun _ => trivial⟩

theorem resolveZoneId_reads (zoneName : String) (explicitZoneId : Option String) :
    Uses ReadOp (self.resolveZoneId zoneName explicitZoneId) := by
  cases explicitZoneId with
  | some zoneId => exact self.resolveExplicitZoneId_reads zoneName zoneId
  | none =>
      refine ⟨⟨trivial, trivial⟩, fun cached => ?_⟩
      cases cached with
      | some cachedZoneId => trivial
      | none => exact self.zonePages_reads zoneName _ _ _ _

theorem resolveZoneId_uses (zoneName : String) (explicitZoneId : Option String) :
    Uses LookupOp (self.resolveZoneId zoneName explicitZoneId) :=
  uses_mono (self.resolveZoneId_reads zoneName explicitZoneId) fun _ => And.left

theorem uses_recordPages {allowed : Op → Prop} {zoneId recordType name : String}
    (hbegin : ∀ page, allowed (.act (.begin (.http
      (.listRecords zoneId recordType name page recordPageSize)))))
    (hfinish : ∀ page, allowed (.finish (.http
      (.listRecords zoneId recordType name page recordPageSize))))
    (hevict : allowed (.act (.cacheEvict zoneId))) (left page : Nat)
    (exactMatch : Option DnsRecord) :
    Uses allowed (self.recordPages zoneId recordType name left page exactMatch) := by
  induction left generalizing page exactMatch with
  | zero => trivial
  | succ left ih =>
      unfold recordPages
      apply uses_bind (self.uses_sendInZone (hbegin page) (hfinish page) hevict)
      intro result
      cases result with
      | error error => trivial
      | ok response =>
          simp only
          split
          · trivial
          · split
            · exact ih _ _
            · trivial

theorem findRecord_reads (zoneId recordType name : String) :
    Uses ReadOp (self.findRecord zoneId recordType name) :=
  self.uses_recordPages (fun _ => ⟨rfl, trivial⟩) (fun _ => ⟨rfl, trivial⟩)
    ⟨trivial, trivial⟩ _ _ _

theorem findRecord_uses (zoneId recordType name : String) :
    Uses LookupOp (self.findRecord zoneId recordType name) :=
  uses_mono (self.findRecord_reads zoneId recordType name) fun _ => And.left

end CloudflareClient

theorem discoverFrom_queries (client : PublicIpClient) (family : AddressFamily)
    (started : Instant) (providers : List String) (failures : List ProviderFailure) :
    Uses QueryOp (client.discoverFrom family started providers failures) := by
  induction providers generalizing failures with
  | nil => trivial
  | cons provider rest ih =>
      simp only [PublicIpClient.discoverFrom, act_eq, await_eq, Program.ask_bind,
        Program.done_bind, uses_ask]
      refine ⟨⟨trivial, trivial⟩, fun now => ?_⟩
      split
      · trivial
      · split
        · trivial
        · refine ⟨⟨trivial, trivial⟩, fun _ => ⟨⟨trivial, trivial⟩, fun outcome => ?_⟩⟩
          beta_reduce
          split
          · trivial
          · exact ih _

theorem discover_queries (client : PublicIpClient) (family : AddressFamily)
    (providers : List String) : Uses QueryOp (client.discover family providers) := by
  unfold PublicIpClient.discover
  split
  · trivial
  · exact ⟨⟨trivial, trivial⟩, fun _ => discoverFrom_queries client family _ _ _⟩

namespace Updater

variable (self : Updater)

theorem discoverFamily_queries (family : AddressFamily) :
    Uses QueryOp (self.discoverFamily family) := by
  unfold discoverFamily
  split
  · exact uses_bind (discover_queries _ _ _) fun _ => trivial
  · trivial

theorem discoverRequiredAddresses_queries :
    Uses QueryOp self.discoverRequiredAddresses :=
  uses_bind (uses_join ⟨trivial, trivial⟩ (self.discoverFamily_queries .ipv4)
    (self.discoverFamily_queries .ipv6)) fun _ => trivial

theorem discoverRequiredAddresses_uses :
    Uses DiscoveryOp self.discoverRequiredAddresses :=
  uses_mono self.discoverRequiredAddresses_queries fun _ => And.left

theorem planRecord_reads (record : RecordConfig) (address : IpAddr) :
    Uses ReadOp (self.planRecord record address) := by
  unfold planRecord
  apply uses_bind (self.cloudflare.resolveZoneId_reads _ _)
  intro zone
  cases zone with
  | error error => trivial
  | ok zoneId =>
      apply uses_bind (self.cloudflare.findRecord_reads _ _ _)
      intro found
      match found with
      | .error error => trivial
      | .ok (some existing) => trivial
      | .ok none =>
          simp only
          split
          · trivial
          · apply uses_bind (self.cloudflare.findRecord_reads _ _ _)
            intro again
            match again with
            | .error error => trivial
            | .ok (some existing) => trivial
            | .ok none => trivial

theorem planRecord_uses (record : RecordConfig) (address : IpAddr) :
    Uses LookupOp (self.planRecord record address) :=
  uses_mono (self.planRecord_reads record address) fun _ => And.left

omit [Externals] in
theorem mutationCanFinishBefore_uses {allowed : Op → Prop} (hnow : allowed (.act .now))
    (deadline : Instant) : Uses allowed (self.mutationCanFinishBefore deadline) :=
  ⟨hnow, fun _ => trivial⟩

theorem inspectCheckRecord_uses {allowed : Op → Prop}
    (hlookup : ∀ op, LookupOp op → allowed op) (record : RecordConfig)
    (deadline : Instant) (proofs : ZoneProofs) :
    Uses allowed (self.inspectCheckRecord record deadline proofs) := by
  unfold inspectCheckRecord
  apply uses_bind (uses_mono (uses_timeoutAt (fun _ => LookupOp.finishBefore)
    (self.cloudflare.resolveZoneId_uses record.zone record.zoneId)) hlookup)
  intro zone
  match zone with
  | none => trivial
  | some (.error error) => trivial
  | some (.ok zoneId) =>
      apply uses_bind (uses_mono (uses_timeoutAt (fun _ => LookupOp.finishBefore)
        (self.cloudflare.findRecord_uses _ _ _)) hlookup)
      intro found
      match found with
      | none => trivial
      | some (.error error) => trivial
      | some (.ok existing) => trivial

end Updater

end

end Cirrusync
