import MyQuic2.Core.Map
import MyQuic2.Dns.Memo
import MyQuic2.Dns.Policy
import MyQuic2.Mqp.Flow

/-!
# Resolved destinations on the server

The address of a name is remembered at three places in front of the resolver: the
worker's own memo, one destination per session, and a few pins per connection. An
entry is used for the exact name and port it was stored for and not longer than
the answer it came from.
-/

namespace MyQuic2

def dnsCacheTtlMs : Nat := 120000

/-- How long a resolved destination is reused. -/
def destPinTtlMs : Nat := 30000

/-- How close to its end a session's memo is written again. -/
def destPinRefreshMs : Nat := destPinTtlMs / 4

/-- Octets of a name that fit a memo or a pin. -/
def destKeyBytes : Nat := 255

def domainPinSlots : Nat := 48

/-- A pin never outlives its source. -/
def pinLifeMs (remainingMs : Nat) : Nat := min destPinTtlMs remainingMs

def verdictSlots : Nat := 64

private def mix (h : Nat) (x : Nat) : Nat := (h * 0x9e3779b97f4a7c15 + x) % 2 ^ 64

/-- The slot of an address. -/
def ipCacheIdx (ip : IpAddr) : Nat :=
  (match ip with
    | .v4 a => (a.octets.map UInt8.toNat).foldl mix 0
    | .v6 a => ((List.range 8).map fun i => (a.segment i).toNat).foldl mix 0) % verdictSlots

/-- A worker's memo of policy verdicts. -/
structure VerdictCache where
  slots : List (Option (IpAddr × Bool))
  sound : ∀ ip verdict, some (ip, verdict) ∈ slots → verdict = isGlobalIp ip

namespace VerdictCache

/-- The verdict on an address, and the memo that knows it. -/
def isGlobalIpCached (c : VerdictCache) (ip : IpAddr) : Bool × VerdictCache :=
  match (c.slots[ipCacheIdx ip]?).join with
  | some (known, verdict) => if known = ip then (verdict, c) else fill c ip
  | none => fill c ip
where
  fill (c : VerdictCache) (ip : IpAddr) : Bool × VerdictCache :=
    (isGlobalIp ip,
      { slots := c.slots.set (ipCacheIdx ip) (some (ip, isGlobalIp ip))
        sound := by
          intro ip' verdict hmem
          rcases List.mem_or_eq_of_mem_set hmem with hold | hnew
          · exact c.sound ip' verdict hold
          · cases hnew
            rfl })

/-- The memo answers what the policy answers. -/
lemma isGlobalIpCached_eq (c : VerdictCache) (ip : IpAddr) :
    (c.isGlobalIpCached ip).1 = isGlobalIp ip := by
  unfold isGlobalIpCached
  split
  · rename_i known verdict hslot
    split
    · rename_i heq
      subst heq
      exact c.sound known verdict (List.mem_of_getElem? (Option.join_eq_some_iff.mp hslot))
    · rfl
  · rfl

end VerdictCache

/-- The policy of a connection on a destination. The workers ask their memo. -/
def fastAllow (allowPrivate : Bool) (dst : SocketAddr) : Bool := allowPrivate || isGlobalIp dst.ip

/-- A destination with the name and port it is for. -/
structure DestMemo where
  host : String
  port : UInt16
  addr : SocketAddr
  expires : Nat

namespace DestMemo

/-- Nothing yet: the deadline never lies ahead. -/
def empty : DestMemo := ⟨"", 0, .v4 ⟨0⟩ 0, 0⟩

variable (m : DestMemo) (nowMs : Nat) (host : String) (port : UInt16)

def get : Option SocketAddr :=
  if nowMs < m.expires && m.port = port && m.host = host then some m.addr else none

def isFor (addr : SocketAddr) : Bool :=
  m.addr = addr && m.port = port && m.host = host

end DestMemo

/-- A session of the server. -/
structure SessEntry where
  dest : DestMemo
  flows : SessionFlows

/-- The sessions of a connection. -/
abbrev SessTable := Map UInt32 SessEntry

namespace SessTable

variable (ss : SessTable) (nowMs : Nat) (s : UInt32) (host : String) (port : UInt16)

def sessDestLookupTtl : Option (SocketAddr × Nat) := do
  let e ← ss.lookup s
  let addr ← e.dest.get nowMs host port
  some (addr, e.dest.expires - nowMs)

/-- Store a session's destination. A name that does not fit is not stored, and a memo that names
the address already is left alone until it nears its end. -/
def sessDestStore (addr : SocketAddr) (remainingMs : Nat) : SessTable :=
  if destKeyBytes < (utf8 host).length then ss
  else
    match ss.lookup s with
    | none => ss
    | some e =>
      if e.dest.isFor host port addr && destPinRefreshMs < e.dest.expires - nowMs then ss
      else ss.insert s { e with dest := ⟨host, port, addr, nowMs + pinLifeMs remainingMs⟩ }

end SessTable

/-- A destination that a connection pinned for one of its sessions. -/
structure ConnPin where
  sess : UInt32
  host : String
  port : UInt16
  addr : SocketAddr
  expires : Nat

def pinIsFor (pin : ConnPin) (host : String) (port : UInt16) : Bool :=
  pin.port = port && pin.host = host

/-- Arm a pin; a name that does not fit leaves the old one. -/
def pinArm (pin : Option ConnPin) (nowMs : Nat) (s : UInt32) (host : String) (port : UInt16)
    (addr : SocketAddr) (lifeMs : Nat) : Option ConnPin :=
  if destKeyBytes < (utf8 host).length then pin
  else some ⟨s, host, port, addr, nowMs + pinLifeMs lifeMs⟩

/-- A slot of the pin cache; tag zero means free. -/
structure PinSlot where
  tag : UInt32
  pin : Option ConnPin

/-- The domain pins of a connection. -/
abbrev PinCache := List PinSlot

namespace PinCache

def empty : PinCache := List.replicate domainPinSlots ⟨0, none⟩

variable (pins : PinCache) (nowMs : Nat) (s : UInt32) (host : String) (port : UInt16)
  (addr : SocketAddr) (life : Nat)

def pinGet : Option SocketAddr := do
  let slot ← pins.find? fun slot => slot.tag = s
  let pin ← slot.pin
  if pin.sess = s && pinIsFor pin host port && nowMs < pin.expires then some pin.addr else none

/-- The slot whose pin ends first. -/
def victim : PinCache → Nat → Nat → Nat → Nat
  | [], _, best, _ => best
  | slot :: rest, i, best, earliest =>
    let expires := (slot.pin.map ConnPin.expires).getD 0
    if expires < earliest then victim rest (i + 1) i expires
    else victim rest (i + 1) best earliest

/-- Put a pin into its session's slot, a free one, or the one that ends first. -/
def pinStore (pin : ConnPin) : PinCache :=
  let own := pins.findIdx? fun slot => slot.tag = pin.sess
  let free := pins.findIdx? fun slot => slot.tag = 0
  let idx := (own <|> free).getD (victim pins 0 0 (usizeSize - 1))
  pins.set idx ⟨pin.sess, some pin⟩

def pinCache : PinCache :=
  match pinArm none nowMs s host port addr life with
  | some pin => pins.pinStore pin
  | none => pins

end PinCache

/-- What the worker knows while it handles one payload. -/
structure Knowledge where
  nowMs : Nat
  /-- Its memo of names, with the life an entry has left. -/
  memo : String → UInt16 → CachedLookup × Nat
  /-- The kernel had no route to the address a moment ago. -/
  unreachable : SocketAddr → Bool

section

variable (k : Knowledge) (allowPrivate : Bool)

/-- Resolve a name through a pin, the session's memo and the worker's memo. The pin is not
judged again. -/
def resolvePin (ss : SessTable) (pin : Option ConnPin) (pinnedSess s : UInt32) (host : String)
    (port : UInt16) : Option SocketAddr × Option ConnPin :=
  let pinned := pin.filter fun pin =>
    s = pinnedSess && pin.sess = s && pinIsFor pin host port && k.nowMs < pin.expires
  match pinned with
  | some hit => (some hit.addr, pin)
  | none =>
    match ss.sessDestLookupTtl k.nowMs s host port with
    | some (dst, life) =>
      if fastAllow allowPrivate dst then (some dst, pinArm pin k.nowMs s host port dst life)
      else (none, pin)
    | none =>
      match k.memo host port with
      | (.addr dst, life) =>
        if fastAllow allowPrivate dst then (some dst, pinArm pin k.nowMs s host port dst life)
        else (none, pin)
      | _ => (none, pin)

/-- Resolve a target for the fast path; an address needs nothing. -/
def resolveFast (ss : SessTable) (pins : PinCache) (s : UInt32) :
    TargetAddr → Option SocketAddr × PinCache
  | .ip dst => (some dst, pins)
  | .domain host port =>
    match pins.pinGet k.nowMs s host port with
    | some dst => (some dst, pins)
    | none =>
      match resolvePin k allowPrivate ss none s s host port with
      | (some dst, some pin) => (some dst, pins.pinStore pin)
      | (dst, _) => (dst, pins)

/-- Where the address of a datagram came from. -/
inductive ForwardResolution where
  | negative
  | addr (a : SocketAddr) (life : Nat)
  | unresolved
  deriving DecidableEq

variable (ss : SessTable) (s : UInt32) (host : String) (port : UInt16)

/-- An address the policy allows and the kernel can reach. -/
def usable (dst : SocketAddr) : Bool := fastAllow allowPrivate dst && !k.unreachable dst

/-- The session's own destination, if it is usable. -/
def resolveFromSession : ForwardResolution :=
  match ss.sessDestLookupTtl k.nowMs s host port with
  | some (dst, life) => if usable k allowPrivate dst then .addr dst life else .unresolved
  | none => .unresolved

/-- Resolve the target of a datagram without a lookup: the worker's memo first, the session's
where that has nothing usable. -/
def resolveForwardTarget : ForwardResolution :=
  match k.memo host port with
  | (.negative, _) => .negative
  | (.addr dst, life) =>
    if usable k allowPrivate dst then .addr dst life
    else resolveFromSession k allowPrivate ss s host port
  | (.unknown, _) => resolveFromSession k allowPrivate ss s host port

end

end MyQuic2
