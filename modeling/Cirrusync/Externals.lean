import Cirrusync.Api

/-!
The code outside the repository that its functions call, as one class: the
standard library's text form of addresses, the URL parser, the JSON decoder and
the table of HTTP reason phrases.
-/

namespace Cirrusync

/-- What the code reads of a parsed URL. -/
structure Url where
  scheme : String
  host : Option String
  username : String
  password : Option String
  fragment : Option String
  /-- The ASCII serialisation of its origin. -/
  origin : String
  serialization : String
  deriving DecidableEq, Repr

class Externals where
  /-- `str::parse::<IpAddr>`. -/
  parseIpAddr : String → Option IpAddr
  /-- `IpAddr::to_string`. -/
  formatIpAddr : IpAddr → String
  /-- `reqwest::Url::parse`, with the text of its error. -/
  parseUrl : String → Except String Url
  /-- `serde_json::from_slice::<ApiEnvelope<T>>`, with the text of its error. -/
  fromSlice : (kind : ResultKind) → List UInt8 → Except String (ApiEnvelope kind.Value)
  /-- `StatusCode::canonical_reason`. -/
  canonicalReason : Nat → Option String

export Externals (parseIpAddr formatIpAddr parseUrl fromSlice canonicalReason)

end Cirrusync
