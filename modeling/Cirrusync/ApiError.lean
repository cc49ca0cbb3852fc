import Cirrusync.Config

/-!
Errors of the Cloudflare client and the classification of a raw HTTP exchange:
the part of `CloudflareClient::send` that comes after the request, with the
sanitising of remote text. Errors of constructing a client are left out.
Durations are in nanoseconds.
-/

namespace Cirrusync

open Text

def seconds (n : Nat) : Nat := n * 1000000000

def maxPages : Nat := 100
def zonePageSize : Nat := 50
def recordPageSize : Nat := 100
def maxResponseBytes : Nat := 1024 * 1024
def maxRetryAfter : Nat := seconds (60 * 60)
def maxErrorDetails : Nat := 4
def maxErrorMessageBytes : Nat := 256
def maxErrorSummaryBytes : Nat := 1024

inductive CloudflareError where
  | request (operation source : String)
  | authentication (status : Nat) (message : String) (errors : List ApiErrorDetail)
  | permissionDenied (status : Nat) (message : String) (errors : List ApiErrorDetail)
  | rateLimited (retryAfter : Option Nat) (retrySuffix message : String)
      (errors : List ApiErrorDetail)
  | api (operation : String) (status : Nat) (retryAfter : Option Nat)
      (retrySuffix message : String) (errors : List ApiErrorDetail)
  | malformedResponse (operation reason : String)
  | responseTooLarge (operation : String) (limit : Nat)
  | missingResult (operation : String)
  | zoneNotFound (zone : String)
  | ambiguousZone (zone : String)
  | zoneNameMismatch (expectedZone actualZone zoneId : String)
  | zoneIdMismatch (expectedZoneId actualZoneId : String)
  | zoneNotActive (zone status : String)
  | recordNotFound (recordType name : String)
  | ambiguousRecord (recordType name : String)
  | tokenInactive (status : String)
  | paginationLimit (operation : String)
  deriving DecidableEq, Repr

namespace CloudflareError

def retryAfter : CloudflareError → Option Nat
  | .rateLimited retryAfter _ _ _ | .api _ _ retryAfter _ _ _ => retryAfter
  | _ => none

def isAuthenticationFailure : CloudflareError → Bool
  | .authentication _ _ _ | .tokenInactive _ => true
  | _ => false

def isPermissionDenied : CloudflareError → Bool
  | .permissionDenied _ _ _ => true
  | _ => false

def isRateLimited : CloudflareError → Bool
  | .rateLimited _ _ _ _ => true
  | _ => false

def isNotFound : CloudflareError → Bool
  | .api _ status _ _ _ _ => status == 404
  | _ => false

def isTransient : CloudflareError → Bool
  | .request _ _ | .rateLimited _ _ _ _ | .malformedResponse _ _
  | .responseTooLarge _ _ | .missingResult _ => true
  | .api _ status _ _ _ _ =>
      (500 ≤ status && status < 600) || status == 408 || status == 409
  | _ => false

/-- The failures after which a driver sends nothing more. -/
def aborts (error : CloudflareError) : Bool :=
  error.isAuthenticationFailure || error.isRateLimited

end CloudflareError

/-- The loop of `sanitize_and_truncate`; the flag says whether it was cut off. -/
def sanitizeLoop (maxBytes : Nat) : List Char → List Char → Bool → List Char × Bool
  | [], sanitized, _ => (sanitized, false)
  | character :: rest, sanitized, previousSpace =>
      let character :=
        if isControl character || isWhitespace character then ' ' else character
      if character == ' ' && (previousSpace || sanitized.isEmpty) then
        sanitizeLoop maxBytes rest sanitized previousSpace
      else if byteLength sanitized + character.utf8Size > maxBytes then (sanitized, true)
      else sanitizeLoop maxBytes rest (sanitized ++ [character]) (character == ' ')

/-- Remove characters from the end of a text, given reversed, until the rest
fits in `limit` bytes. -/
def popTo (limit : Nat) : List Char → List Char
  | [] => []
  | c :: rest => if byteLength (c :: rest) > limit then popTo limit rest else c :: rest

def sanitizeAndTruncateChars (value : List Char) (maxBytes : Nat) : List Char :=
  let (sanitized, truncated) := sanitizeLoop maxBytes (trimChars value) [] false
  let sanitized := sanitized.rdropWhile (· == ' ')
  if truncated then
    let suffixLength := min 3 maxBytes
    let contentLimit := maxBytes - suffixLength
    let sanitized := (popTo contentLimit sanitized.reverse).reverse
    sanitized.rdropWhile (· == ' ') ++ List.replicate suffixLength '.'
  else sanitized

def sanitizeAndTruncate (value : String) (maxBytes : Nat) : String :=
  .ofList (sanitizeAndTruncateChars value.toList maxBytes)

def sanitizeRemoteValue (value sensitiveValue : String) (maxBytes : Nat) : String :=
  if sensitiveValue.toList.isEmpty || !contains sensitiveValue.toList value.toList then
    sanitizeAndTruncate value maxBytes
  else sanitizeAndTruncate (replace value sensitiveValue "[redacted]") maxBytes

/-- The loop of `error_summary`; the flag says whether messages were omitted. -/
def summarizeErrors (sensitiveValue : String) :
    List ApiErrorDetail → List String → List String × Bool
  | [], summaries => (summaries, false)
  | error :: rest, summaries =>
      let message := sanitizeRemoteValue error.message sensitiveValue maxErrorMessageBytes
      if message.toList.isEmpty then summarizeErrors sensitiveValue rest summaries
      else if summaries.length = maxErrorDetails then (summaries, true)
      else
        let summary := match error.code with
          | some code => s!"{message} ({code})"
          | none => message
        summarizeErrors sensitiveValue rest (summaries ++ [summary])

variable [Externals]

def errorSummary (errors : List ApiErrorDetail) (status : Nat) (sensitiveValue : String) :
    String :=
  let (summaries, omitted) := summarizeErrors sensitiveValue errors []
  let summary := String.intercalate "; " summaries
  let summary := if omitted then summary ++ "; ..." else summary
  let summary := sanitizeAndTruncate summary maxErrorSummaryBytes
  if summary.toList.isEmpty then
    (canonicalReason status).getD "unspecified Cloudflare error"
  else summary

def prepareErrorDetails (errors : List ApiErrorDetail) (status : Nat)
    (sensitiveValue : String) : String × List ApiErrorDetail :=
  let summary := errorSummary errors status sensitiveValue
  let errors := errors.filterMap (fun error =>
    let message := sanitizeRemoteValue error.message sensitiveValue maxErrorMessageBytes
    if error.code.isSome || !message.toList.isEmpty then
      some { code := error.code, message := message }
    else none)
  (summary, errors.take maxErrorDetails)

/-- `HeaderValue::to_str`: visible ASCII only. -/
def headerText (value : List UInt8) : Option (List Char) :=
  if value.all (fun b => (32 ≤ b && b < 127) || b == 9) then
    some (value.map (fun b => Char.ofNat b.toNat))
  else none

def parseRetryAfter (header : Option (List UInt8)) : Option Nat :=
  ((header.bind headerText).bind (fun text => parseU64 (trimChars text))).map
    (fun delay => min (seconds delay) maxRetryAfter)

def retrySuffix (retryAfter : Option Nat) : String :=
  match retryAfter with
  | none => ""
  | some delay => s!" (retry after {delay / seconds 1}s)"

def readChunks (operation : String) (broken : Option String) :
    List UInt8 → List (List UInt8) → Except CloudflareError (List UInt8)
  | body, [] =>
      match broken with
      | some source => .error (.request operation source)
      | none => .ok body
  | body, chunk :: rest =>
      if body.length + chunk.length > maxResponseBytes then
        .error (.responseTooLarge operation maxResponseBytes)
      else readChunks operation broken (body ++ chunk) rest

def readResponseBody (response : HttpResponse) (operation : String) :
    Except CloudflareError (Nat × Option Nat × List UInt8) := do
  let retryAfter := parseRetryAfter response.retryAfter
  if response.contentLength.any (· > maxResponseBytes) then
    throw (.responseTooLarge operation maxResponseBytes)
  let body ← readChunks operation response.broken [] response.chunks
  return (response.status, retryAfter, body)

/-- The errors that a body decodes to, if it does. -/
def decodedErrors {T : Type} (parsed : Except String (ApiEnvelope T)) :
    List ApiErrorDetail :=
  match parsed with
  | .ok envelope => envelope.errors
  | .error _ => []

/-- What `send` makes of a status and a body that were delivered in full. -/
def classify {T : Type} (apiToken operation : String) (status : Nat)
    (retryAfter : Option Nat) (parsed : Except String (ApiEnvelope T)) :
    Except CloudflareError (ApiResponse T) :=
  let (message, errors) := prepareErrorDetails (decodedErrors parsed) status apiToken
  if status == 401 then .error (.authentication status message errors)
  else if status == 403 then .error (.permissionDenied status message errors)
  else if status == 429 then
    .error (.rateLimited retryAfter (retrySuffix retryAfter) message errors)
  else if !(200 ≤ status && status < 300) then
    .error (.api operation status retryAfter (retrySuffix retryAfter) message errors)
  else match parsed with
    | .error source => .error (.malformedResponse operation
        (sanitizeRemoteValue source apiToken maxErrorSummaryBytes))
    | .ok envelope =>
        if !envelope.success then
          .error (.api operation status retryAfter (retrySuffix retryAfter) message errors)
        else match envelope.result with
          | none => .error (.missingResult operation)
          | some result => .ok ⟨result, envelope.resultInfo⟩

/-- `send` after the exchange: read the body, decode it and classify it. -/
def receive (apiToken : String) (request : Request) (outcome : HttpOutcome) :
    Except CloudflareError (ApiResponse request.kind.Value) :=
  match outcome with
  | .failed source => .error (.request request.operation source)
  | .answered response => do
      let (status, retryAfter, body) ← readResponseBody response request.operation
      classify apiToken request.operation status retryAfter (fromSlice request.kind body)

def statusText (status : Nat) : String :=
  let reason := (canonicalReason status).getD "<unknown status code>"
  s!"{status} {reason}"

def CloudflareError.display : CloudflareError → String
  | .request operation source => s!"Cloudflare request failed while {operation}: {source}"
  | .authentication status message _ =>
      s!"Cloudflare authentication failed ({statusText status}): {message}"
  | .permissionDenied status message _ =>
      s!"Cloudflare permission denied ({statusText status}): {message}"
  | .rateLimited _ retrySuffix message _ =>
      s!"Cloudflare rate limit exceeded{retrySuffix}: {message}"
  | .api operation status _ retrySuffix message _ =>
      s!"Cloudflare API error while {operation} ({statusText status}){retrySuffix}: {message}"
  | .malformedResponse operation reason =>
      s!"malformed Cloudflare response while {operation}: {reason}"
  | .responseTooLarge operation limit =>
      s!"Cloudflare response exceeded the {limit}-byte safety limit while {operation}"
  | .missingResult operation =>
      s!"Cloudflare response omitted its result while {operation}"
  | .zoneNotFound zone => s!"Cloudflare zone not found: {zone}"
  | .ambiguousZone zone =>
      s!"multiple Cloudflare zones matched {zone}; configure an explicit zone_id"
  | .zoneNameMismatch expectedZone actualZone zoneId =>
      s!"Cloudflare zone ID {zoneId} belongs to {actualZone}, " ++
        s!"not configured zone {expectedZone}"
  | .zoneIdMismatch expectedZoneId actualZoneId =>
      s!"Cloudflare explicit-zone response returned ID {actualZoneId}, " ++
        s!"expected {expectedZoneId}"
  | .zoneNotActive zone status =>
      s!"Cloudflare zone {zone} is not active (status: {status})"
  | .recordNotFound recordType name =>
      s!"Cloudflare {recordType} record {name} does not exist and creation is disabled"
  | .ambiguousRecord recordType name =>
      s!"multiple Cloudflare {recordType} records matched {name}"
  | .tokenInactive status => s!"Cloudflare API token is not active (status: {status})"
  | .paginationLimit operation =>
      s!"Cloudflare pagination exceeded the safety limit while {operation}"

end Cirrusync
