import Cirrusync.Client

/-!
`PublicIpClient`: reading one provider's response and trying the providers in
order under a shared time budget.
-/

namespace Cirrusync

open Text Effect

def maxProviderResponseBytes : Nat := 16 * 1024

inductive ProviderError where
  | request (source : String)
  | timedOut
  | httpStatus (status : Nat)
  | responseTooLarge (limit : Nat)
  | nonUtf8Response
  | emptyResponse
  | malformedResponse
  | wrongAddressFamily (expected : AddressFamily) (actual : IpAddr)
  | nonPublicAddress (address : IpAddr)
  deriving DecidableEq, Repr

structure ProviderFailure where
  provider : String
  error : ProviderError
  deriving DecidableEq, Repr

inductive PublicIpError where
  | noProviders (family : AddressFamily)
  | allProvidersFailed (family : AddressFamily) (failures : List ProviderFailure)
  | deadlineExceeded (family : AddressFamily) (failures : List ProviderFailure)
  deriving DecidableEq, Repr

structure PublicIpClient where
  timeout : Nat
  deriving DecidableEq, Repr

variable [Externals]

/-- The nonempty values of the lines that start with `ip=`. -/
def traceAddresses (response : String) : List String :=
  (lines response.toList).filterMap (fun line =>
    ((stripPrefix "ip=".toList (trimChars line)).map trimChars).bind (fun value =>
      if value.isEmpty then none else some (.ofList value)))

/-- The address a response names, in either of the two formats. -/
def candidateAddress (response : String) : Except ProviderError IpAddr :=
  match parseIpAddr (trim response) with
  | some address => .ok address
  | none =>
      match traceAddresses response with
      | [value] =>
          match parseIpAddr value with
          | some address => .ok address
          | none => .error .malformedResponse
      | _ => .error .malformedResponse

def parseProviderResponse (response : String) (family : AddressFamily) :
    Except ProviderError IpAddr := do
  ensure (len response ≤ maxProviderResponseBytes)
    (.responseTooLarge maxProviderResponseBytes)
  ensure (!(trim response).toList.isEmpty) .emptyResponse
  let candidate ← candidateAddress response
  ensure (family.contains candidate) (.wrongAddressFamily family candidate)
  ensure (isPublicAddress candidate) (.nonPublicAddress candidate)
  return candidate

def readProviderChunks (broken : Option String) :
    List UInt8 → List (List UInt8) → Except ProviderError (List UInt8)
  | body, [] =>
      match broken with
      | some source => .error (.request source)
      | none => .ok body
  | body, chunk :: rest =>
      if body.length + chunk.length > maxProviderResponseBytes then
        .error (.responseTooLarge maxProviderResponseBytes)
      else readProviderChunks broken (body ++ chunk) rest

/-- `query_provider` after its request: the address in a raw exchange. -/
def readProvider (outcome : HttpOutcome) (family : AddressFamily) :
    Except ProviderError IpAddr :=
  match outcome with
  | .failed source => .error (.request source)
  | .answered response => do
      ensure (200 ≤ response.status && response.status < 300) (.httpStatus response.status)
      ensure (!response.contentLength.any (· > maxProviderResponseBytes))
        (.responseTooLarge maxProviderResponseBytes)
      let bytes ← readProviderChunks response.broken [] response.chunks
      match fromUtf8 bytes with
      | none => .error .nonUtf8Response
      | some body => parseProviderResponse body family

def redactProviderUrl (provider : String) : String :=
  match parseUrl provider with
  | .error _ => "<invalid provider URL>"
  | .ok url =>
      if url.origin = "null" then "<invalid provider URL>" else s!"{url.origin}/<redacted>"

def ProviderError.display : ProviderError → String
  | .request source => s!"HTTP request failed: {source}"
  | .timedOut => "provider request exhausted its share of the total discovery timeout"
  | .httpStatus status => s!"provider returned HTTP status {statusText status}"
  | .responseTooLarge limit => s!"provider response exceeds the {limit}-byte safety limit"
  | .nonUtf8Response => "provider response is not valid UTF-8"
  | .emptyResponse => "provider response is empty"
  | .malformedResponse =>
      "provider response contains neither one plain IP nor one trace ip= line"
  | .wrongAddressFamily expected actual =>
      s!"provider returned {formatIpAddr actual}, but {expected.asStr} was requested"
  | .nonPublicAddress address =>
      s!"provider returned non-public address {formatIpAddr address}"

def displayFailures (failures : List ProviderFailure) : String :=
  String.join (failures.map (fun failure =>
    s!"; {failure.provider}: {failure.error.display}"))

def PublicIpError.display : PublicIpError → String
  | .noProviders family => s!"no {family.asStr} public IP providers are configured"
  | .allProvidersFailed family failures =>
      s!"all {failures.length} {family.asStr} public IP providers failed" ++
        displayFailures failures
  | .deadlineExceeded family failures =>
      s!"{family.asStr} public IP discovery exceeded its total timeout after " ++
        s!"{failures.length} provider failure(s)" ++ displayFailures failures

/-- What an attempt comes to; `none` is its timeout. -/
def attemptResult (family : AddressFamily) : Option HttpOutcome →
    Except ProviderError IpAddr
  | none => .error .timedOut
  | some outcome => readProvider outcome family

/-- `u32::try_from(count).unwrap_or(u32::MAX)`. -/
def saturatedU32 (count : Nat) : Nat := min count (2 ^ 32 - 1)

namespace PublicIpClient

variable (self : PublicIpClient)

def discoverFrom (family : AddressFamily) (started : Instant) :
    List String → List ProviderFailure → M (Except PublicIpError IpAddr)
  | [], failures => return .error (.allProvidersFailed family failures)
  | provider :: rest, failures => do
      let now ← act .now
      let remaining := self.timeout - (now - started)
      if remaining = 0 then return .error (.deadlineExceeded family failures)
      let attemptTimeout := remaining / saturatedU32 (rest.length + 1)
      if attemptTimeout = 0 then return .error (.deadlineExceeded family failures)
      match attemptResult family (← await (.query provider attemptTimeout)) with
      | .ok address => return .ok address
      | .error error =>
          let failure : ProviderFailure := ⟨redactProviderUrl provider, error⟩
          discoverFrom family started rest (failures ++ [failure])

def discover (family : AddressFamily) (providers : List String) :
    M (Except PublicIpError IpAddr) := do
  if providers.isEmpty then return .error (.noProviders family)
  let started ← act .now
  self.discoverFrom family started providers []

end PublicIpClient

end Cirrusync
