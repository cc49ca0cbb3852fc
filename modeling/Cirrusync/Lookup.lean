import Cirrusync.Exchange
import Cirrusync.Effect.Paging

/-!
The two paginated lookups. What a lookup says is a function of the entries it
was shown: `lookupVerdict` and `zoneVerdict` look at a whole list, and the page
loops return that verdict for the pages they requested. Under a server that
serves one list in pages, this is the verdict for that list.
-/

namespace Cirrusync

open Effect Text

/-- What the exact matches among the entries shown lead to. -/
def recordVerdict (recordType name : String) :
    List DnsRecord → Except CloudflareError (Option DnsRecord)
  | [] => .ok none
  | [record] => .ok (some record)
  | _ => .error (.ambiguousRecord recordType name)

def lookupVerdict (recordType name : String) (entries : List DnsRecord) :
    Except CloudflareError (Option DnsRecord) :=
  recordVerdict recordType name (entries.filter (DnsRecord.isExactMatch recordType name))

def Zone.isActiveMatch (zoneName : String) (zone : Zone) : Bool :=
  eqIgnoreAsciiCase zone.name zoneName && zone.isActive

def Zone.isInactiveMatch (zoneName : String) (zone : Zone) : Bool :=
  eqIgnoreAsciiCase zone.name zoneName && !zone.isActive

/-- `one`, `none` or `ambiguous`, as opposed to a failure of the lookup. -/
def DecidesRecord (recordType name : String)
    (result : Except CloudflareError (Option DnsRecord)) : Prop :=
  (∃ found, result = .ok found) ∨ result = .error (.ambiguousRecord recordType name)

/-- The same for zones, where `none` is an inactive zone or no zone. -/
def DecidesZone (zoneName : String) (result : Except CloudflareError String) : Prop :=
  (∃ zoneId, result = .ok zoneId) ∨ result = .error (.ambiguousZone zoneName) ∨
    (∃ status, result = .error (.zoneNotActive zoneName status)) ∨
    result = .error (.zoneNotFound zoneName)

/-- The errors that `send` itself makes of an exchange. -/
def CloudflareError.isExchangeError : CloudflareError → Bool
  | .request _ _ | .authentication _ _ _ | .permissionDenied _ _ _
  | .rateLimited _ _ _ _ | .api _ _ _ _ _ _ | .malformedResponse _ _
  | .responseTooLarge _ _ | .missingResult _ => true
  | _ => false

theorem scanRecords_eq (recordType name : String) (entries : List DnsRecord)
    (exactMatch : Option DnsRecord) :
    scanRecords recordType name entries exactMatch =
      recordVerdict recordType name (exactMatch.toList ++
        entries.filter (DnsRecord.isExactMatch recordType name)) := by
  induction entries generalizing exactMatch with
  | nil => cases exactMatch <;> rfl
  | cons record rest ih =>
      by_cases hmatch : record.isExactMatch recordType name = true
      · cases exactMatch with
        | none => simp [scanRecords, hmatch, ih]
        | some previous => simp [scanRecords, hmatch, recordVerdict]
      · simp [scanRecords, hmatch, ih]

theorem recordVerdict_ok_iff (recordType name : String) (entries : List DnsRecord)
    (found : Option DnsRecord) :
    recordVerdict recordType name entries = .ok found ↔ entries = found.toList := by
  match entries, found with
  | [], none => simp [recordVerdict]
  | [], some _ => simp [recordVerdict]
  | [record], none => simp [recordVerdict]
  | [record], some _ => simp [recordVerdict]
  | _ :: _ :: _, none => simp [recordVerdict]
  | _ :: _ :: _, some _ => simp [recordVerdict]

theorem recordVerdict_error_iff (recordType name : String) (entries : List DnsRecord)
    (error : CloudflareError) :
    recordVerdict recordType name entries = .error error ↔
      2 ≤ entries.length ∧ error = .ambiguousRecord recordType name := by
  match entries with
  | [] => simp [recordVerdict]
  | [record] => simp [recordVerdict]
  | _ :: _ :: _ => simp [recordVerdict, eq_comm]

/-- A verdict that is already ambiguous stays so when more entries are shown. -/
theorem recordVerdict_append (recordType name : String) (first second : List DnsRecord)
    (error : CloudflareError) (h : recordVerdict recordType name first = .error error) :
    recordVerdict recordType name (first ++ second) = .error error := by
  rw [recordVerdict_error_iff] at h ⊢
  refine ⟨?_, h.2⟩
  rw [List.length_append]
  omega

section

variable [Externals]

theorem classify_error {T : Type} {apiToken operation : String} {status : Nat}
    {retryAfter : Option Nat} {parsed : Except String (ApiEnvelope T)}
    {error : CloudflareError}
    (h : classify apiToken operation status retryAfter parsed = .error error) :
    error.isExchangeError = true ∧
      (error.retryAfter = none ∨ error.retryAfter = retryAfter) := by
  simp only [classify] at h
  split at h
  · cases h
    exact ⟨rfl, .inl rfl⟩
  split at h
  · cases h
    exact ⟨rfl, .inl rfl⟩
  split at h
  · cases h
    exact ⟨rfl, .inr rfl⟩
  split at h
  · cases h
    exact ⟨rfl, .inr rfl⟩
  split at h
  · cases h
    exact ⟨rfl, .inl rfl⟩
  split at h
  · cases h
    exact ⟨rfl, .inr rfl⟩
  split at h
  · cases h
    exact ⟨rfl, .inl rfl⟩
  · cases h

omit [Externals] in
theorem readChunks_error {operation : String} {broken : Option String}
    {body : List UInt8} {chunks : List (List UInt8)} {error : CloudflareError}
    (h : readChunks operation broken body chunks = .error error) :
    error.isExchangeError = true ∧ error.retryAfter = none := by
  induction chunks generalizing body with
  | nil =>
      cases broken with
      | none => cases h
      | some source =>
          cases h
          exact ⟨rfl, rfl⟩
  | cons chunk rest ih =>
      simp only [readChunks] at h
      split at h
      · cases h
        exact ⟨rfl, rfl⟩
      · exact ih h

omit [Externals] in
theorem parseRetryAfter_le {header : Option (List UInt8)} {delay : Nat}
    (h : parseRetryAfter header = some delay) : delay ≤ maxRetryAfter := by
  obtain ⟨wanted, -, rfl⟩ := Option.map_eq_some_iff.mp h
  exact Nat.min_le_right _ _

/-- The error of a response; the delay it carries is the clamped one. -/
theorem receive_error {apiToken : String} {request : Request} {outcome : HttpOutcome}
    {error : CloudflareError} (h : receive apiToken request outcome = .error error) :
    error.isExchangeError = true ∧
      ∀ delay, error.retryAfter = some delay → delay ≤ maxRetryAfter := by
  cases outcome with
  | failed source =>
      cases h
      exact ⟨rfl, fun delay hdelay => by cases hdelay⟩
  | answered response =>
      simp only [receive, readResponseBody] at h
      by_cases hlength : response.contentLength.any (· > maxResponseBytes) = true
      · simp only [hlength, if_true, throw, throwThe, MonadExceptOf.throw, bind,
          Except.bind] at h
        cases h
        exact ⟨rfl, fun delay hdelay => by cases hdelay⟩
      · cases hchunks : readChunks request.operation response.broken [] response.chunks with
        | error e =>
            simp only [hlength, hchunks, bind, Except.bind] at h
            cases h
            obtain ⟨hexchange, hnone⟩ := readChunks_error hchunks
            refine ⟨hexchange, fun delay hdelay => ?_⟩
            rw [hnone] at hdelay
            cases hdelay
        | ok body =>
            simp only [hlength, hchunks, bind, Except.bind] at h
            obtain ⟨hexchange, hretry⟩ := classify_error h
            refine ⟨hexchange, fun delay hdelay => ?_⟩
            rcases hretry with hnone | hheader
            · rw [hnone] at hdelay
              cases hdelay
            · rw [hheader] at hdelay
              exact parseRetryAfter_le hdelay

/-- A success is the result that a body under a success status decodes to. -/
theorem classify_ok_iff {T : Type} {apiToken operation : String} {status : Nat}
    {retryAfter : Option Nat} {parsed : Except String (ApiEnvelope T)} {response : ApiResponse T} :
    classify apiToken operation status retryAfter parsed = .ok response ↔
      (200 ≤ status ∧ status < 300) ∧ ∃ envelope, parsed = .ok envelope ∧
        envelope.success = true ∧ envelope.result = some response.result ∧
        envelope.resultInfo = response.resultInfo := by
  obtain ⟨result, info⟩ := response
  constructor
  · intro h
    simp only [classify] at h
    split at h
    · cases h
    split at h
    · cases h
    split at h
    · cases h
    split at h
    · cases h
    rename_i hrange
    split at h
    · cases h
    rename_i envelope
    split at h
    · cases h
    rename_i hsuccess
    split at h
    · cases h
    rename_i hresult
    cases h
    exact ⟨by simpa using hrange, envelope, rfl, by simpa using hsuccess, hresult, rfl⟩
  · rintro ⟨⟨hlow, hhigh⟩, ⟨success, errors, result', info'⟩, rfl, hsuccess, hresult, hinfo⟩
    obtain rfl : success = true := hsuccess
    obtain rfl : result' = some result := hresult
    obtain rfl : info' = info := hinfo
    have hother : status ≠ 401 ∧ status ≠ 403 ∧ status ≠ 429 := by omega
    simp [classify, hother, hlow, hhigh]

/-- The token has no part in a success. -/
theorem receive_ok_of_ok {apiToken apiToken' : String} {request : Request} {outcome : HttpOutcome}
    {response : ApiResponse request.kind.Value}
    (h : receive apiToken request outcome = .ok response) :
    receive apiToken' request outcome = .ok response := by
  cases outcome with
  | failed source => cases h
  | answered answered =>
      simp only [receive] at h ⊢
      cases hbody : readResponseBody answered request.operation with
      | error error =>
          rw [hbody] at h
          cases h
      | ok read =>
          rw [hbody] at h
          exact classify_ok_iff.mpr (classify_ok_iff.mp h)

/-- The records that a step shows to a lookup. -/
def recordsShown (apiToken : String) : Step → List DnsRecord
  | ⟨.finish (.http (.listRecords zoneId recordType name page perPage)), outcome⟩ =>
      match receive apiToken (.listRecords zoneId recordType name page perPage) outcome with
      | .ok response => response.result
      | .error _ => []
  | _ => []

def zonesShown (apiToken : String) : Step → List Zone
  | ⟨.finish (.http (.listZones name page perPage)), outcome⟩ =>
      match receive apiToken (.listZones name page perPage) outcome with
      | .ok response => response.result
      | .error _ => []
  | _ => []

namespace CloudflareClient

variable (self : CloudflareClient)

/-- Requests of pages `page`, `page + 1`, and so on, `count` of them. -/
def pageRequests (request : Nat → Request) (page count : Nat) : List Request :=
  (List.range' page count).map request

/-- The page loop, from a point where the entries `seen` have been shown. The
induction is on the pages left; `exactMatch` holds the match among `seen`. -/
theorem recordPages_runs (zoneId recordType name : String) (left page : Nat)
    (exactMatch : Option DnsRecord) (seen : List DnsRecord)
    (hseen : seen.filter (DnsRecord.isExactMatch recordType name) = exactMatch.toList)
    {trace : List Step} {result : Except CloudflareError (Option DnsRecord)}
    (hrun : Runs (self.recordPages zoneId recordType name left page exactMatch)
      trace result) :
    (∃ count ≤ left, trace.filterMap sent =
      pageRequests (.listRecords zoneId recordType name · recordPageSize) page count) ∧
    (DecidesRecord recordType name result → result =
      lookupVerdict recordType name
        (seen ++ trace.flatMap (recordsShown self.apiToken))) := by
  induction left generalizing page exactMatch seen trace with
  | zero =>
      simp only [recordPages, Program.pure_eq, runs_done_iff] at hrun
      obtain ⟨rfl, rfl⟩ := hrun
      refine ⟨⟨0, le_rfl, rfl⟩, ?_⟩
      rintro (⟨found, h⟩ | h) <;> cases h
  | succ left ih =>
      simp only [recordPages, runs_bind_iff] at hrun
      obtain ⟨_, after, _, rfl, hsend, hrest⟩ := hrun
      obtain ⟨outcome, rfl, rfl⟩ := (self.runs_sendInZone_iff _ _ _ _).mp hsend
      cases hreceive : receive self.apiToken
          (.listRecords zoneId recordType name page recordPageSize) outcome with
      | error error =>
          simp only [hreceive, Program.pure_eq, runs_done_iff] at hrest
          obtain ⟨rfl, rfl⟩ := hrest
          refine ⟨⟨1, by omega, by simp [pageRequests]⟩, ?_⟩
          have hkind := (receive_error hreceive).1
          rintro (⟨found, h⟩ | h)
          · cases h
          · cases h
            cases hkind
      | ok response =>
          have hshown : (exchange (.listRecords zoneId recordType name page recordPageSize)
              outcome).flatMap (recordsShown self.apiToken) = response.result := by
            simp [exchange, recordsShown, hreceive]
          have hfilter : (seen ++ response.result).filter
              (DnsRecord.isExactMatch recordType name) = exactMatch.toList ++
                response.result.filter (DnsRecord.isExactMatch recordType name) := by
            rw [List.filter_append, hseen]
          simp only [hreceive, evictions, List.append_nil] at hrest ⊢
          rw [scanRecords_eq, ← hfilter] at hrest
          cases hverdict : recordVerdict recordType name
              ((seen ++ response.result).filter
                (DnsRecord.isExactMatch recordType name)) with
          | error error =>
              simp only [hverdict, Program.pure_eq, runs_done_iff] at hrest
              obtain ⟨rfl, rfl⟩ := hrest
              refine ⟨⟨1, by omega, by simp [pageRequests]⟩, fun _ => ?_⟩
              rw [List.append_nil, hshown]
              exact hverdict.symm
          | ok found =>
              simp only [hverdict] at hrest
              split at hrest
              · obtain ⟨⟨count, hcount, hsent⟩, hdecides⟩ := ih (page + 1) found
                  (seen ++ response.result)
                  ((recordVerdict_ok_iff _ _ _ _).mp hverdict) hrest
                refine ⟨⟨count + 1, by omega, ?_⟩, fun h => ?_⟩
                · rw [List.filterMap_append, sent_exchange, hsent]
                  simp [pageRequests, List.range'_succ]
                · rw [hdecides h, List.flatMap_append, hshown, List.append_assoc]
              · simp only [Program.pure_eq, runs_done_iff] at hrest
                obtain ⟨rfl, rfl⟩ := hrest
                refine ⟨⟨1, by omega, by simp [pageRequests]⟩, fun _ => ?_⟩
                rw [List.append_nil, hshown]
                exact hverdict.symm

/-- The status text of the first inactive zone of the name. -/
def inactiveStatus (zoneName : String) (zones : List Zone) : Option String :=
  (zones.filter (Zone.isInactiveMatch zoneName)).head?.map
    (fun zone => self.sanitizeRemote zone.status maxErrorMessageBytes)

/-- What a whole list of zones leads to. -/
def zoneVerdict (zoneName : String) (zones : List Zone) : Except CloudflareError String :=
  match zones.filter (Zone.isActiveMatch zoneName) with
  | [] => concludeZone zoneName none (self.inactiveStatus zoneName zones)
  | [zone] => .ok zone.id
  | _ => .error (.ambiguousZone zoneName)

omit [Externals] in
theorem inactiveStatus_append (zoneName : String) (first second : List Zone) :
    self.inactiveStatus zoneName (first ++ second) =
      (self.inactiveStatus zoneName first).or (self.inactiveStatus zoneName second) := by
  unfold inactiveStatus
  rw [List.filter_append, List.head?_append]
  cases (first.filter (Zone.isInactiveMatch zoneName)).head? <;> rfl

omit [Externals] in
/-- The scan of one page adds the ids of its active matches to the one match carried along and is
ambiguous when that makes two; the first inactive match is remembered beside it. -/
theorem scanZones_eq (zoneName : String) (zones : List Zone)
    (exactMatch inactiveMatch : Option String) :
    self.scanZones zoneName zones exactMatch inactiveMatch =
      match exactMatch.toList ++
          (zones.filter (Zone.isActiveMatch zoneName)).map Zone.id with
      | [] => .ok (none, inactiveMatch.or (self.inactiveStatus zoneName zones))
      | [zoneId] =>
          .ok (some zoneId, inactiveMatch.or (self.inactiveStatus zoneName zones))
      | _ => .error (.ambiguousZone zoneName) := by
  induction zones generalizing exactMatch inactiveMatch with
  | nil => cases exactMatch <;> simp [scanZones, inactiveStatus]
  | cons zone rest ih =>
      have hstatus := self.inactiveStatus_append zoneName [zone] rest
      rw [List.singleton_append] at hstatus
      by_cases hname : eqIgnoreAsciiCase zone.name zoneName = true
      · by_cases hactive : zone.isActive = true
        · have hnone : self.inactiveStatus zoneName [zone] = none := by
            simp [inactiveStatus, Zone.isInactiveMatch, hactive]
          cases exactMatch with
          | none =>
              simp [scanZones, hname, hactive, ih, hstatus, hnone, Zone.isActiveMatch]
          | some previous => simp [scanZones, hname, hactive, Zone.isActiveMatch]
        · have hsome : self.inactiveStatus zoneName [zone] =
              some (self.sanitizeRemote zone.status maxErrorMessageBytes) := by
            simp [inactiveStatus, Zone.isInactiveMatch, hname, hactive]
          cases inactiveMatch with
          | none => simp [scanZones, hname, hactive, ih, hstatus, hsome, Zone.isActiveMatch]
          | some status => simp [scanZones, hname, hactive, ih, Zone.isActiveMatch]
      · have hnone : self.inactiveStatus zoneName [zone] = none := by
          simp [inactiveStatus, Zone.isInactiveMatch, hname]
        simp [scanZones, hname, ih, hstatus, hnone, Zone.isActiveMatch]

omit [Externals] in
/-- A page of zones, after those in `seen`: either the verdict is ambiguous by
now, or the two accumulators are those of everything shown. -/
theorem scanZones_seen (zoneName : String) (seen zones : List Zone)
    (exactMatch inactiveMatch : Option String)
    (hexact : exactMatch.toList =
      (seen.filter (Zone.isActiveMatch zoneName)).map Zone.id)
    (hinactive : inactiveMatch = self.inactiveStatus zoneName seen) :
    (self.scanZones zoneName zones exactMatch inactiveMatch =
        .error (.ambiguousZone zoneName) ∧
      self.zoneVerdict zoneName (seen ++ zones) = .error (.ambiguousZone zoneName)) ∨
    (∃ found, self.scanZones zoneName zones exactMatch inactiveMatch =
        .ok (found, self.inactiveStatus zoneName (seen ++ zones)) ∧
      found.toList = ((seen ++ zones).filter (Zone.isActiveMatch zoneName)).map Zone.id ∧
      self.zoneVerdict zoneName (seen ++ zones) =
        concludeZone zoneName found (self.inactiveStatus zoneName (seen ++ zones))) := by
  have hboth : exactMatch.toList ++
      (zones.filter (Zone.isActiveMatch zoneName)).map Zone.id =
        ((seen ++ zones).filter (Zone.isActiveMatch zoneName)).map Zone.id := by
    rw [List.filter_append, List.map_append, hexact]
  rw [scanZones_eq, hboth, hinactive, ← inactiveStatus_append]
  unfold zoneVerdict
  match hactive : (seen ++ zones).filter (Zone.isActiveMatch zoneName) with
  | [] => exact .inr ⟨none, rfl, rfl, rfl⟩
  | [zone] => exact .inr ⟨some zone.id, rfl, rfl, rfl⟩
  | _ :: _ :: _ => exact .inl ⟨rfl, rfl⟩

omit [Externals] in
/-- An ambiguous verdict stays ambiguous when more zones are shown. -/
theorem zoneVerdict_append (zoneName : String) (first second : List Zone)
    (h : self.zoneVerdict zoneName first = .error (.ambiguousZone zoneName)) :
    self.zoneVerdict zoneName (first ++ second) = .error (.ambiguousZone zoneName) := by
  unfold zoneVerdict at h ⊢
  rw [List.filter_append]
  match hactive : first.filter (Zone.isActiveMatch zoneName) with
  | [] =>
      rw [hactive] at h
      cases hstatus : self.inactiveStatus zoneName first <;>
        simp [concludeZone, hstatus] at h
  | [_] => simp [hactive] at h
  | _ :: _ :: _ => rfl

/-- The cache step of a lookup that has found its zone. -/
def insertion (zoneName : String) : Except CloudflareError String → List Step
  | .ok zoneId => [⟨.act (.cacheInsert (namedCacheKey zoneName) zoneId), ()⟩]
  | .error _ => []

omit [Externals] in
@[simp] theorem sent_insertion (zoneName : String)
    (concluded : Except CloudflareError String) :
    (insertion zoneName concluded).filterMap sent = [] := by
  cases concluded <;> rfl

@[simp] theorem zonesShown_insertion (apiToken zoneName : String)
    (concluded : Except CloudflareError String) :
    (insertion zoneName concluded).flatMap (zonesShown apiToken) = [] := by
  cases concluded <;> rfl

omit [Externals] in
/-- The end of the page loop: the verdict, and its zone in the cache. -/
theorem runs_concluded (zoneName : String) {concluded : Except CloudflareError String}
    {trace : List Step} {result : Except CloudflareError String}
    (hrun : Runs (match concluded with
      | .error error => (pure (.error error) : M (Except CloudflareError String))
      | .ok zoneId => do
          act (.cacheInsert (namedCacheKey zoneName) zoneId)
          pure (.ok zoneId)) trace result) :
    trace = insertion zoneName concluded ∧ result = concluded := by
  cases concluded with
  | error error => simpa [insertion] using hrun
  | ok zoneId =>
      simp only [act_eq, Program.ask_bind, Program.done_bind, Program.pure_eq,
        runs_ask_iff, runs_done_iff] at hrun
      obtain ⟨⟨⟩, _, rfl, rfl, rfl⟩ := hrun
      exact ⟨rfl, rfl⟩

/-- The loop over the pages of zones asks for the pages in order, from `page` on and no more than
are left, and its verdict is that of all the zones shown, before and in the loop. The two matches
it carries are those of the zones seen so far. -/
theorem zonePages_runs (zoneName : String) (left page : Nat)
    (exactMatch inactiveMatch : Option String) (seen : List Zone)
    (hexact : exactMatch.toList =
      (seen.filter (Zone.isActiveMatch zoneName)).map Zone.id)
    (hinactive : inactiveMatch = self.inactiveStatus zoneName seen)
    {trace : List Step} {result : Except CloudflareError String}
    (hrun : Runs (self.zonePages zoneName left page exactMatch inactiveMatch)
      trace result) :
    (∃ count ≤ left, trace.filterMap sent =
      pageRequests (.listZones zoneName · zonePageSize) page count) ∧
    (DecidesZone zoneName result → result =
      self.zoneVerdict zoneName (seen ++ trace.flatMap (zonesShown self.apiToken))) := by
  induction left generalizing page exactMatch inactiveMatch seen trace with
  | zero =>
      simp only [zonePages, Program.pure_eq, runs_done_iff] at hrun
      obtain ⟨rfl, rfl⟩ := hrun
      refine ⟨⟨0, le_rfl, rfl⟩, ?_⟩
      rintro (⟨_, h⟩ | h | ⟨_, h⟩ | h) <;> cases h
  | succ left ih =>
      simp only [zonePages, runs_bind_iff] at hrun
      obtain ⟨_, after, _, rfl, hsend, hrest⟩ := hrun
      obtain ⟨outcome, rfl, rfl⟩ := (self.runs_send_iff _ _ _).mp hsend
      cases hreceive : receive self.apiToken
          (.listZones zoneName page zonePageSize) outcome with
      | error error =>
          simp only [hreceive, Program.pure_eq, runs_done_iff] at hrest
          obtain ⟨rfl, rfl⟩ := hrest
          refine ⟨⟨1, by omega, by simp [pageRequests]⟩, ?_⟩
          have hkind := (receive_error hreceive).1
          rintro (⟨_, h⟩ | h | ⟨_, h⟩ | h)
          · cases h
          all_goals
            cases h
            cases hkind
      | ok response =>
          have hshown : (exchange (.listZones zoneName page zonePageSize)
              outcome).flatMap (zonesShown self.apiToken) = response.result := by
            simp [exchange, zonesShown, hreceive]
          simp only [hreceive] at hrest
          rcases self.scanZones_seen zoneName seen response.result exactMatch
            inactiveMatch hexact hinactive with
            ⟨hscan, hverdict⟩ | ⟨found, hscan, hfound, hverdict⟩
          · simp only [hscan, Program.pure_eq, runs_done_iff] at hrest
            obtain ⟨rfl, rfl⟩ := hrest
            refine ⟨⟨1, by omega, by simp [pageRequests]⟩, fun _ => ?_⟩
            rw [List.append_nil, hshown]
            exact hverdict.symm
          · simp only [hscan] at hrest
            split at hrest
            · obtain ⟨⟨count, hcount, hsent⟩, hdecides⟩ := ih (page + 1) found _
                (seen ++ response.result) hfound rfl hrest
              refine ⟨⟨count + 1, by omega, ?_⟩, fun h => ?_⟩
              · rw [List.filterMap_append, sent_exchange, hsent]
                simp [pageRequests, List.range'_succ]
              · rw [hdecides h, List.flatMap_append, hshown, List.append_assoc]
            · obtain ⟨rfl, rfl⟩ := runs_concluded zoneName hrest
              refine ⟨⟨1, by omega, ?_⟩, fun _ => ?_⟩
              · rw [List.filterMap_append, sent_exchange, sent_insertion]
                rfl
              · rw [List.flatMap_append, hshown, zonesShown_insertion, List.append_nil,
                  hverdict]

/-- A lookup puts into the cache what it returns. -/
theorem zonePages_inserts (zoneName : String) (left page : Nat)
    (exactMatch inactiveMatch : Option String) {trace : List Step}
    {result : Except CloudflareError String}
    (hrun : Runs (self.zonePages zoneName left page exactMatch inactiveMatch)
      trace result) {key zoneId : String}
    (member : (⟨.act (.cacheInsert key zoneId), ()⟩ : Step) ∈ trace) :
    key = namedCacheKey zoneName ∧ result = .ok zoneId := by
  induction left generalizing page exactMatch inactiveMatch trace with
  | zero =>
      simp only [zonePages, Program.pure_eq, runs_done_iff] at hrun
      simp [hrun.1] at member
  | succ left ih =>
      simp only [zonePages, runs_bind_iff] at hrun
      obtain ⟨_, after, _, rfl, hsend, hrest⟩ := hrun
      obtain ⟨outcome, rfl, rfl⟩ := (self.runs_send_iff _ _ _).mp hsend
      have hafter : (⟨.act (.cacheInsert key zoneId), ()⟩ : Step) ∈ after := by
        simpa [exchange] using member
      cases hreceive : receive self.apiToken
          (.listZones zoneName page zonePageSize) outcome with
      | error error =>
          simp only [hreceive, Program.pure_eq, runs_done_iff] at hrest
          simp [hrest.1] at hafter
      | ok response =>
          simp only [hreceive] at hrest
          split at hrest
          · simp only [Program.pure_eq, runs_done_iff] at hrest
            simp [hrest.1] at hafter
          · split at hrest
            · exact ih (page + 1) _ _ hrest hafter
            · rename_i found inactive _ _
              obtain ⟨rfl, rfl⟩ := runs_concluded zoneName hrest
              cases hconclude : concludeZone zoneName found inactive with
              | error error => simp [insertion, hconclude] at hafter
              | ok concluded =>
                  simp only [insertion, hconclude, List.mem_singleton] at hafter
                  cases hafter
                  exact ⟨rfl, rfl⟩

end CloudflareClient

end

end Cirrusync
