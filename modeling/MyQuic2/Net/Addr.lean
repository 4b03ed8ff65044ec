import MyQuic2.Core.Bytes

/-!
# Internet addresses

The address types of the standard library, as bit vectors in network order.
Octets and segments are views of the same bits.
-/

namespace MyQuic2

/-- A 32-bit Internet address. -/
structure Ipv4Addr where
  /-- The address as one number, first octet most significant. -/
  bits : BitVec 32
  deriving DecidableEq

/-- A 128-bit Internet address. -/
structure Ipv6Addr where
  /-- The address as one number, first segment most significant. -/
  bits : BitVec 128
  deriving DecidableEq

/-- Either kind of address. -/
inductive IpAddr where
  | v4 (a : Ipv4Addr)
  | v6 (a : Ipv6Addr)
  deriving DecidableEq

/-- An address with a port. The 128-bit form also carries a flow label and a scope. -/
inductive SocketAddr where
  | v4 (ip : Ipv4Addr) (port : UInt16)
  | v6 (ip : Ipv6Addr) (port : UInt16) (flowinfo scopeId : UInt32)
  deriving DecidableEq

namespace Ipv4Addr

variable (a : Ipv4Addr)

/-- The four octets in network order. -/
def octets : Bytes := beBytes 4 a.bits.toNat

/-- The address with the given octets. -/
def ofOctets (o : Bytes) : Ipv4Addr := ⟨BitVec.ofNat 32 (ofBeBytes o)⟩

/-- The address `a.b.c.d`. -/
def new (a b c d : UInt8) : Ipv4Addr := ofOctets [a, b, c, d]

/-- The all-zero address names no host. -/
def isUnspecified : Bool := a.bits == 0

@[simp] lemma length_octets : a.octets.length = 4 := length_beBytes _ _

@[simp] lemma ofOctets_octets : ofOctets a.octets = a := by
  have h := a.bits.isLt
  rw [ofOctets, octets, ofBeBytes_beBytes_of_lt (by simpa using h), BitVec.ofNat_toNat,
    BitVec.setWidth_eq]

end Ipv4Addr

namespace Ipv6Addr

variable (a : Ipv6Addr) (i : Nat)

/-- The sixteen octets in network order. -/
def octets : Bytes := beBytes 16 a.bits.toNat

/-- The address with the given octets. -/
def ofOctets (o : Bytes) : Ipv6Addr := ⟨BitVec.ofNat 128 (ofBeBytes o)⟩

/-- The address with the given eight segments. -/
def new (s₀ s₁ s₂ s₃ s₄ s₅ s₆ s₇ : BitVec 16) : Ipv6Addr :=
  ⟨s₀ ++ s₁ ++ s₂ ++ s₃ ++ s₄ ++ s₅ ++ s₆ ++ s₇⟩

/-- The `i`-th 16-bit segment, the first one most significant. -/
def segment : BitVec 16 := a.bits.extractLsb' (16 * (7 - i)) 16

/-- The all-zero address names no host. -/
def isUnspecified : Bool := a.bits == 0

/-- The address embedded in `::ffff:0:0/96`, as the standard library recognises it. -/
def toIpv4Mapped : Option Ipv4Addr :=
  if a.bits >>> 32 = 0xffff then some ⟨a.bits.setWidth 32⟩ else none

@[simp] lemma length_octets : a.octets.length = 16 := length_beBytes _ _

@[simp] lemma ofOctets_octets : ofOctets a.octets = a := by
  have h := a.bits.isLt
  rw [ofOctets, octets, ofBeBytes_beBytes_of_lt (by simpa using h), BitVec.ofNat_toNat,
    BitVec.setWidth_eq]

lemma toNat_segment : (a.segment i).toNat = a.bits.toNat / 2 ^ (16 * (7 - i)) % 2 ^ 16 := by
  rw [segment, BitVec.extractLsb'_toNat, Nat.shiftRight_eq_div_pow]

end Ipv6Addr

namespace SocketAddr

/-- An endpoint without flow label or scope. -/
def new : IpAddr → UInt16 → SocketAddr
  | .v4 a, p => .v4 a p
  | .v6 a, p => .v6 a p 0 0

/-- The address part. -/
def ip : SocketAddr → IpAddr
  | .v4 a _ => .v4 a
  | .v6 a _ _ _ => .v6 a

/-- The port part. -/
def port : SocketAddr → UInt16
  | .v4 _ p => p
  | .v6 _ p _ _ => p

/-- The same endpoint with its flow label cleared. -/
def clearFlow : SocketAddr → SocketAddr
  | .v4 a p => .v4 a p
  | .v6 a p _ scope => .v6 a p 0 scope

end SocketAddr

end MyQuic2
