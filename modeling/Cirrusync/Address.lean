import Cirrusync.Text

/-!
Addresses and the filter of addresses that may be published. The numeric value
of an address is kept; octets and 16-bit segments are read off it.
-/

namespace Cirrusync

inductive AddressFamily where
  | ipv4
  | ipv6
  deriving DecidableEq, Repr

inductive IpAddr where
  | v4 (address : BitVec 32)
  | v6 (address : BitVec 128)
  deriving DecidableEq, Repr

def AddressFamily.contains : AddressFamily → IpAddr → Bool
  | .ipv4, .v4 _ | .ipv6, .v6 _ => true
  | _, _ => false

def AddressFamily.asStr : AddressFamily → String
  | .ipv4 => "IPv4"
  | .ipv6 => "IPv6"

def octet (address : BitVec 32) (i : Nat) : Nat := address.toNat / 256 ^ (3 - i) % 256

def segment (address : BitVec 128) (i : Nat) : Nat :=
  address.toNat / 65536 ^ (7 - i) % 65536

def isPublicIpv4 (address : BitVec 32) : Bool :=
  let a := octet address 0
  let b := octet address 1
  let c := octet address 2
  if a == 0 || a == 10 || a == 127 || 224 ≤ a ||
      (a == 100 && (64 ≤ b && b ≤ 127)) ||
      (a == 169 && b == 254) ||
      (a == 172 && (16 ≤ b && b ≤ 31)) ||
      (a == 192 && b == 168) then false
  else
    let ietfOrTestNet := a == 192 && b == 0 && (c == 0 || c == 2)
    if ietfOrTestNet ||
        (a == 192 && b == 88 && c == 99) ||
        (a == 192 && b == 31 && c == 196) ||
        (a == 192 && b == 52 && c == 193) ||
        (a == 192 && b == 175 && c == 48) ||
        (a == 198 && (b == 18 || b == 19)) ||
        (a == 198 && b == 51 && c == 100) ||
        (a == 203 && b == 0 && c == 113) then false
    else true

def isPublicIpv6 (address : BitVec 128) : Bool :=
  let first := segment address 0
  let second := segment address 1
  if first &&& 0xe000 != 0x2000 then false
  else
    let special2001 := first == 0x2001 && (second ≤ 0x01ff || second == 0x0db8)
    if special2001 || first == 0x2002 ||
        (first == 0x2620 && second == 0x004f && segment address 2 == 0x8000) ||
        first == 0x3ffe || (first == 0x3fff && second &&& 0xf000 == 0) then false
    else true

def isPublicAddress : IpAddr → Bool
  | .v4 address => isPublicIpv4 address
  | .v6 address => isPublicIpv6 address

end Cirrusync
