import Cirrusync.Address

/-!
The part of the Cloudflare API that the client speaks: the data it decodes, the
requests it sends and what comes back from one HTTP exchange. A request keeps
the values that go into its URL, query and body.
-/

namespace Cirrusync

structure DnsRecord where
  id : String
  recordType : String
  name : String
  content : String
  ttl : Nat
  proxied : Bool
  deriving DecidableEq, Repr

structure RecordPayload where
  recordType : String
  name : String
  content : String
  ttl : Nat
  proxied : Bool
  deriving DecidableEq, Repr

structure EditProbePayload where
  recordType : String
  name : String
  ttl : Nat
  deriving DecidableEq, Repr

structure Zone where
  id : String
  name : String
  status : String
  deriving DecidableEq, Repr

structure TokenVerification where
  status : String
  deriving DecidableEq, Repr

structure ApiErrorDetail where
  code : Option Int
  message : String
  deriving DecidableEq, Repr

structure ResultInfo where
  totalPages : Option Nat
  deriving DecidableEq, Repr

structure ApiEnvelope (T : Type) where
  success : Bool
  errors : List ApiErrorDetail
  result : Option T
  resultInfo : Option ResultInfo

structure ApiResponse (T : Type) where
  result : T
  resultInfo : Option ResultInfo

inductive VerificationTarget where
  | user
  | account (accountId : String)
  deriving DecidableEq, Repr

inductive Request where
  /-- `GET user/tokens/verify` or `GET accounts/{id}/tokens/verify`. -/
  | verifyToken (target : VerificationTarget)
  /-- `GET zones/{zone_id}`. -/
  | getZone (zoneId : String)
  /-- `GET zones?name&page&per_page`. -/
  | listZones (name : String) (page perPage : Nat)
  /-- `GET zones/{zone_id}/dns_records?name.exact&type&match=all&page&per_page`. -/
  | listRecords (zoneId recordType name : String) (page perPage : Nat)
  /-- `PATCH zones/{zone_id}/dns_records/{record_id}`. -/
  | updateRecord (zoneId recordId : String) (payload : RecordPayload)
  /-- The same `PATCH` with the body of an edit probe. -/
  | probeRecord (zoneId recordId : String) (payload : EditProbePayload)
  /-- `POST zones/{zone_id}/dns_records`. -/
  | createRecord (zoneId : String) (payload : RecordPayload)
  deriving DecidableEq, Repr

/-- The types that a response body is decoded to. -/
inductive ResultKind where
  | tokenVerification
  | zone
  | zones
  | records
  | record
  deriving DecidableEq, Repr

@[reducible] def ResultKind.Value : ResultKind → Type
  | .tokenVerification => TokenVerification
  | .zone => Zone
  | .zones => List Zone
  | .records => List DnsRecord
  | .record => DnsRecord

@[reducible] def Request.kind : Request → ResultKind
  | .verifyToken _ => .tokenVerification
  | .getZone _ => .zone
  | .listZones _ _ _ => .zones
  | .listRecords _ _ _ _ _ => .records
  | .updateRecord _ _ _ | .probeRecord _ _ _ | .createRecord _ _ => .record

/-- The operation text each call passes to `send`. -/
def Request.operation : Request → String
  | .verifyToken _ => "verifying the API token"
  | .getZone _ => "verifying an explicit zone ID"
  | .listZones _ _ _ => "looking up a zone"
  | .listRecords _ _ _ _ _ => "looking up a DNS record"
  | .updateRecord _ _ _ => "updating a DNS record"
  | .probeRecord _ _ _ => "probing DNS edit permission"
  | .createRecord _ _ => "creating a DNS record"

inductive Method where
  | get
  | patch
  | post
  deriving DecidableEq, Repr

def Request.method : Request → Method
  | .verifyToken _ | .getZone _ | .listZones _ _ _ | .listRecords _ _ _ _ _ => .get
  | .updateRecord _ _ _ | .probeRecord _ _ _ => .patch
  | .createRecord _ _ => .post

def Request.isMutation (request : Request) : Bool := request.method != .get

/-- A response as it arrives: its body comes in chunks, and the connection may
break after some of them. -/
structure HttpResponse where
  status : Nat
  retryAfter : Option (List UInt8)
  contentLength : Option Nat
  chunks : List (List UInt8)
  broken : Option String
  deriving DecidableEq, Repr

/-- What one HTTP exchange yields; a failed one carries the text of the
transport error, without its URL. -/
inductive HttpOutcome where
  | failed (source : String)
  | answered (response : HttpResponse)
  deriving DecidableEq, Repr

end Cirrusync
