import Cirrusync.Lookup

/-!
Runs that can be computed. A scenario says what a process meets on its way: what
the API and the providers answer, what the cache keeps, when a signal arrives. The
outside code is given on a table of texts, which it reads as the real parsers do;
the configuration is the example that comes with the program.
-/

namespace Cirrusync

open Effect Text

/-- The outside code on the texts of a table. -/
@[reducible] def tableExternals (addresses : List (String × IpAddr))
    (urls : List (String × Url))
    (bodies : (kind : ResultKind) → List (String × ApiEnvelope kind.Value)) : Externals where
  parseIpAddr := fun text => addresses.lookup text
  formatIpAddr := fun address =>
    ((addresses.find? fun entry => entry.2 == address).map Prod.fst).getD ""
  parseUrl := fun text =>
    match urls.lookup text with
    | some url => .ok url
    | none => .error "relative URL without a base"
  fromSlice := fun kind body =>
    match (bodies kind).find? fun entry => bytes entry.1 == body with
    | some entry => .ok entry.2
    | none => .error "expected value at line 1 column 1"
  canonicalReason := fun status => if status = 200 then some "OK" else none

theorem mem_of_lookup {α β : Type} [BEq α] [LawfulBEq α] {entries : List (α × β)} {key : α}
    {value : β} (h : entries.lookup key = some value) : (key, value) ∈ entries := by
  obtain ⟨before, after, rfl, -⟩ := List.lookup_eq_some_iff.mp h
  exact List.mem_append_right _ List.mem_cons_self

structure Scenario where
  server : List Step → Request → HttpOutcome
  provider : String → Option HttpOutcome
  clock : List Step → Instant := fun _ => 0
  cached : List Step → String → Option String := fun _ _ => none
  stopRequested : List Step → Bool := fun _ => false
  mutationInFlight : List Step → Bool := fun _ => false
  signal : List Step → Option (Except String Unit) := fun _ => none

/-- The answers of a scenario. Locks are free and nothing takes too long. -/
def Scenario.strategy (scenario : Scenario) : Strategy Ans
  | past, .act action =>
      match action with
      | .begin _ | .newControl | .requestStop | .setMutationInFlight _
      | .cacheInsert _ _ | .cacheEvict _ | .unlock _ | .closeLock _ => ()
      | .now => scenario.clock past
      | .schedule => true
      | .jitterPercent => 100
      | .pollShutdown => scenario.signal past
      | .stopRequested => scenario.stopRequested past
      | .mutationInFlight => scenario.mutationInFlight past
      | .cacheGet key => scenario.cached past key
      | .fetchAddCursor => 0
      | .prepareLockParent _ _ => .ok "/var/lib/cirrusync/locks"
      | .openRuntimeLock _ => .ok ()
      | .tryLock _ => .ok ()
  | past, .finish (.http request) => scenario.server past request
  | _, .finish (.query provider _) => scenario.provider provider
  | _, .finish (.sleep _) => ()
  | past, .finishBefore _ (.http request) => some (scenario.server past request)
  | _, .finishBefore _ (.query provider _) => some (scenario.provider provider)
  | _, .finishBefore _ (.sleep _) => some ()

/-- The trace of a program in a scenario. -/
def Scenario.trace {α : Type} (scenario : Scenario) (p : M α) : List Step :=
  (execute scenario.strategy [] p).1

def Scenario.result {α : Type} (scenario : Scenario) (p : M α) : α :=
  (execute scenario.strategy [] p).2

theorem Scenario.runs {α : Type} (scenario : Scenario) (p : M α) :
    Runs p (scenario.trace p) (scenario.result p) :=
  execute_runs scenario.strategy [] p

theorem split_at {α : Type} {entries : List α} {count : Nat} {entry : α}
    (h : entries[count]? = some entry) :
    entries = entries.take count ++ entry :: entries.drop (count + 1) := by
  obtain ⟨hcount, rfl⟩ := List.getElem?_eq_some_iff.mp h
  rw [List.getElem_cons_drop, List.take_append_drop]

/-- A run in a scenario, divided at one of its steps. -/
theorem Scenario.runs_at {α : Type} (scenario : Scenario) (p : M α) {count : Nat} {step : Step}
    (h : (scenario.trace p)[count]? = some step) :
    Runs p ((scenario.trace p).take count ++ step :: (scenario.trace p).drop (count + 1))
      (scenario.result p) := by
  rw [← split_at h]
  exact scenario.runs p

/-- A scenario whose answers are coherent has coherent traces. -/
theorem Scenario.coherent {S α : Type} {shows : S → Step → Prop} {next : S → Step → S} {s : S}
    (scenario : Scenario)
    (h : ∀ past op, shows (past.foldl next s) ⟨op, scenario.strategy past op⟩) (p : M α) :
    CoherentFrom shows next s (scenario.trace p) :=
  execute_coherent h [] p

/-- A response that is delivered in full. -/
def delivered (status : Nat) (body : String) : HttpOutcome :=
  .answered
    { status := status
      retryAfter := none
      contentLength := none
      chunks := [bytes body]
      broken := none }

theorem receive_delivered [Externals] {apiToken body : String} {request : Request}
    {envelope : ApiEnvelope request.kind.Value} {result : request.kind.Value}
    (hsmall : (bytes body).length ≤ maxResponseBytes)
    (hparsed : fromSlice request.kind (bytes body) = .ok envelope)
    (hsuccess : envelope.success = true) (hresult : envelope.result = some result) :
    receive apiToken request (delivered 200 body) = .ok ⟨result, envelope.resultInfo⟩ := by
  have hchunks : readChunks request.operation none [] [bytes body] = .ok (bytes body) := by
    simp [readChunks, Nat.not_lt.mpr hsmall]
  simp only [receive, delivered, readResponseBody, hchunks]
  change classify apiToken request.operation 200 none (fromSlice request.kind (bytes body)) = _
  rw [classify_ok_iff]
  exact ⟨⟨by omega, by omega⟩, envelope, hparsed, hsuccess, hresult, rfl⟩

def httpsUrl (host path : String) : Url where
  scheme := "https"
  host := some host
  username := ""
  password := none
  fragment := none
  origin := s!"https://{host}"
  serialization := s!"https://{host}{path}"

def exampleAddress : IpAddr := .v4 0x5db8d822#32

/-- The address after a change. -/
def movedAddress : IpAddr := .v4 0x5db8d823#32

def exampleZone : Zone where
  id := "023e"
  name := "example.com"
  status := "active"

def exampleRecord : RecordConfig where
  zone := "example.com"
  zoneId := none
  name := "home.example.com"
  recordType := .a
  ttl := 120
  proxied := false
  createIfMissing := true

def exampleStored : DnsRecord where
  id := "372e"
  recordType := "A"
  name := "home.example.com"
  content := "93.184.216.34"
  ttl := 120
  proxied := false

/-- `config.example.toml`, with creation allowed. -/
def exampleConfig : Config where
  intervalSeconds := 300
  requestTimeoutSeconds := 15
  cloudflare := { apiTokenFile := "/etc/cirrusync/token", accountId := none }
  ipv4 :=
    { enabled := true
      providers := ["https://api.cloudflare.com/cdn-cgi/trace", "https://api.ipify.org"] }
  ipv6 := { enabled := false, providers := ["https://api6.ipify.org"] }
  records := [exampleRecord]

def exampleZonesBody : String :=
  "\x7b\"success\":true,\"result\":[\x7b\"id\":\"023e\",\"name\":\"example.com\"," ++
    "\"status\":\"active\"\x7d]\x7d"

def exampleNoRecordsBody : String := "\x7b\"success\":true,\"result\":[]\x7d"

def exampleFoundBody : String :=
  "\x7b\"success\":true,\"result\":[\x7b\"id\":\"372e\",\"type\":\"A\"," ++
    "\"name\":\"home.example.com\",\"content\":\"93.184.216.34\",\"ttl\":120," ++
    "\"proxied\":false\x7d]\x7d"

def exampleRecordBody : String :=
  "\x7b\"success\":true,\"result\":\x7b\"id\":\"372e\",\"type\":\"A\"," ++
    "\"name\":\"home.example.com\",\"content\":\"93.184.216.34\",\"ttl\":120," ++
    "\"proxied\":false\x7d\x7d"

def movedRecordBody : String :=
  "\x7b\"success\":true,\"result\":\x7b\"id\":\"372e\",\"type\":\"A\"," ++
    "\"name\":\"home.example.com\",\"content\":\"93.184.216.35\",\"ttl\":120," ++
    "\"proxied\":false\x7d\x7d"

def exampleVerificationBody : String :=
  "\x7b\"success\":true,\"result\":\x7b\"status\":\"active\"\x7d\x7d"

/-- Another record of the zone, with the same address. -/
def siteRecord : RecordConfig := { exampleRecord with name := "www.example.com" }

def siteStored : DnsRecord := { exampleStored with id := "372f", name := "www.example.com" }

def siteFoundBody : String :=
  "\x7b\"success\":true,\"result\":[\x7b\"id\":\"372f\",\"type\":\"A\"," ++
    "\"name\":\"www.example.com\",\"content\":\"93.184.216.34\",\"ttl\":120," ++
    "\"proxied\":false\x7d]\x7d"

/-- A body that succeeds with a result. -/
def bodyOf {T : Type} (body : String) (result : T) : String × ApiEnvelope T :=
  (body, { success := true, errors := [], result := some result, resultInfo := none })

def exampleBodies : (kind : ResultKind) → List (String × ApiEnvelope kind.Value)
  | .tokenVerification => [bodyOf exampleVerificationBody ⟨"active"⟩]
  | .zones => [bodyOf exampleZonesBody [exampleZone]]
  | .records => [bodyOf exampleNoRecordsBody [], bodyOf exampleFoundBody [exampleStored],
      bodyOf siteFoundBody [siteStored]]
  | .record => [bodyOf exampleRecordBody exampleStored,
      bodyOf movedRecordBody { exampleStored with content := "93.184.216.35" }]
  | _ => []

@[reducible] def exampleExternals : Externals :=
  tableExternals [("93.184.216.34", exampleAddress), ("93.184.216.35", movedAddress)]
    [("https://api.cloudflare.com/cdn-cgi/trace",
        httpsUrl "api.cloudflare.com" "/cdn-cgi/trace"),
      ("https://api.ipify.org", httpsUrl "api.ipify.org" "/"),
      ("https://api6.ipify.org", httpsUrl "api6.ipify.org" "/")]
    exampleBodies

def exampleUpdater : Updater where
  config := exampleConfig
  cloudflare :=
    { apiToken := "token", verificationTarget := .user, requestTimeout := seconds 15 }
  publicIp := { timeout := seconds 15 }
  runtimeLock := .forConfig true "" exampleConfig

/-- An updater of two records. -/
def pairUpdater : Updater :=
  let config := { exampleConfig with records := [siteRecord, exampleRecord] }
  { exampleUpdater with
    config := config
    runtimeLock := .forConfig true "" config }

/-- A zone without the record: the cycle creates it. -/
def creationScenario : Scenario where
  server := fun _ request =>
    match request with
    | .listZones _ _ _ => delivered 200 exampleZonesBody
    | .listRecords _ _ _ _ _ => delivered 200 exampleNoRecordsBody
    | .createRecord _ _ => delivered 200 exampleRecordBody
    | _ => .failed "connection refused"
  provider := fun _ => some (delivered 200 "93.184.216.34")

theorem exampleConfig_valid : @Config.validate exampleExternals exampleConfig = .ok () := by
  rfl

end Cirrusync
