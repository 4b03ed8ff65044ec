import MyQuic2.Server.Conn

/-!
# Where resolved addresses go

A resolution fills the memo of the worker it ended on. From there its addresses are
copied into a session's destination and into the pins of a connection, each copy with a
life of its own. What a copy is given is a remaining life, read from the clock at one
moment and counted from the clock again when it is stored.

The machine runs the lookups and the stores of one connection on several workers, and
notes beside them which entry was written from which source and which lookup returned
what.
-/

namespace MyQuic2

section

variable (k : Knowledge) (allowPrivate : Bool)

variable (armMs : Nat) (ss : SessTable) (pin : Option ConnPin) (pinnedSess s : UInt32)
  (host : String) (port : UInt16)

/-- The caller's pin, where it is for this very target and not over. -/
def pinHit : Option ConnPin :=
  pin.filter fun pin =>
    s = pinnedSess && pin.sess = s && pinIsFor pin host port && k.nowMs < pin.expires

/-- What a pin is armed from: the session's memo, the worker's where that has nothing. -/
def adopt : Option (SocketAddr × Nat) :=
  match ss.sessDestLookupTtl k.nowMs s host port with
  | some (dst, life) => if fastAllow allowPrivate dst then some (dst, life) else none
  | none =>
    match k.memo host port with
    | (.addr dst, life) => if fastAllow allowPrivate dst then some (dst, life) else none
    | _ => none

/-- Resolve through a pin and the memos when the clock moves on before the pin is armed. -/
def resolvePinAt : Option SocketAddr × Option ConnPin :=
  match pinHit k pin pinnedSess s host port with
  | some hit => (some hit.addr, pin)
  | none =>
    match adopt k allowPrivate ss s host port with
    | some (dst, life) => (some dst, pinArm pin armMs s host port dst life)
    | none => (none, pin)

/-- With one clock read for both it is the resolution of the datagram path. -/
lemma resolvePinAt_nowMs :
    resolvePinAt k allowPrivate k.nowMs ss pin pinnedSess s host port =
      resolvePin k allowPrivate ss pin pinnedSess s host port := by
  unfold resolvePinAt resolvePin pinHit
  generalize (pin.filter _) = hit
  cases hit with
  | some hit => rfl
  | none =>
    dsimp only [adopt]
    rcases ss.sessDestLookupTtl k.nowMs s host port with _ | ⟨dst, life⟩
    · rcases k.memo host port with ⟨dst | _ | _, life⟩
      · by_cases hallow : fastAllow allowPrivate dst
        · simp [hallow]
        · simp [hallow]
      · rfl
      · rfl
    · by_cases hallow : fastAllow allowPrivate dst
      · simp [hallow]
      · simp [hallow]

variable (pins : PinCache) (s : UInt32) (host : String) (port : UInt16)

/-- Resolve a name for the fast path when the clock moves on before the pin is armed. -/
def resolveFastAt : Option SocketAddr × PinCache :=
  match pins.pinGet k.nowMs s host port with
  | some dst => (some dst, pins)
  | none =>
    match resolvePinAt k allowPrivate armMs ss none s s host port with
    | (some dst, some pin) => (some dst, pins.pinStore pin)
    | (dst, _) => (dst, pins)

lemma resolveFastAt_nowMs :
    resolveFastAt k allowPrivate k.nowMs ss pins s host port =
      resolveFast k allowPrivate ss pins s (.domain host port) := by
  cases hget : pins.pinGet k.nowMs s host port with
  | some dst => simp [resolveFastAt, resolveFast, hget]
  | none =>
    rcases hpin : resolvePin k allowPrivate ss none s s host port with ⟨_ | dst, _ | pin⟩
    all_goals simp [resolveFastAt, resolveFast, resolvePinAt_nowMs, hget, hpin]

end

namespace SessTable

/-- A store that writes: the name fits, the session is there, and its memo is not good enough. -/
def writesDest (ss : SessTable) (nowMs : Nat) (s : UInt32) (d : Named) : Bool :=
  (utf8 d.host).length ≤ destKeyBytes && (ss.lookup s).any fun e =>
    !(e.dest.isFor d.host d.port d.addr && destPinRefreshMs < e.dest.expires - nowMs)

end SessTable

namespace PinCache

/-- Forget a session's pin. -/
def pinClear (pins : PinCache) (s : UInt32) : PinCache :=
  match pins.findIdx? fun slot => slot.tag = s with
  | some i => pins.set i ⟨0, none⟩
  | none => pins

end PinCache

/-- Where an address is kept. -/
inductive Tier where
  | memo (worker : Nat)
  | session (s : UInt32)
  | pin (s : UInt32)
  deriving DecidableEq

/-- An address as it was written to one of the tiers. -/
structure Entry where
  tier : Tier
  name : Bytes
  port : UInt16
  addr : SocketAddr
  deadline : Nat
  deriving DecidableEq

/-- The answer to a resolution, good until a deadline. -/
structure Answer where
  name : Bytes
  port : UInt16
  addrs : List SocketAddr
  deadline : Nat
  deriving DecidableEq

/-- What an entry was written from. -/
inductive Source where
  | answer (a : Answer)
  | entry (e : Entry)
  deriving DecidableEq

namespace Source

def deadline : Source → Nat
  | answer a => a.deadline
  | entry e => e.deadline

end Source

/-- An address on its way into a store, with the life it had when the clock was read. -/
structure Carried where
  sess : UInt32
  dest : Named
  readMs : Nat
  source : Source

namespace Carried

def name (c : Carried) : Bytes := dnsName c.dest.host

/-- The name is not too long to be kept. -/
def Fits (c : Carried) : Prop := (utf8 c.dest.host).length ≤ destKeyBytes

instance (c : Carried) : Decidable c.Fits := inferInstanceAs (Decidable (_ ≤ _))

def entryAt (c : Carried) (tier : Tier) (nowMs : Nat) : Entry :=
  ⟨tier, c.name, c.dest.port, c.dest.addr, nowMs + pinLifeMs c.dest.life⟩

end Carried

/-- What a lookup returned, and the clock it read. -/
structure Returned where
  worker : Nat
  sess : UInt32
  host : String
  port : UInt16
  addr : SocketAddr
  atMs : Nat
  deriving DecidableEq

/-- The lookups of one connection and all they read. -/
structure Routes where
  nowMs : Nat
  memos : Map Nat DnsMemo
  negEpoch : Nat
  sessions : SessTable
  pins : PinCache
  /-- A pin that a caller of the resolution keeps itself. -/
  pin : Option ConnPin
  carried : List Carried
  answers : List Answer
  log : List (Entry × Source)
  returned : List Returned

/-- What happens on a connection and around it. -/
inductive RouteEvent where
  | tick (ms : Nat)
  /-- A resolution for something else ends on a worker. -/
  | resolved (worker : Nat) (host : String) (port : UInt16) (addrs : List SocketAddr) (life : Nat)
  /-- A resolution that a payload of a session waits for ends on a worker, and the task reads the
  life of the answer after a delay. -/
  | delivered (worker : Nat) (s : UInt32) (host : String) (port : UInt16)
      (addrs : List SocketAddr) (life delay : Nat)
  /-- A name is refused, as it was learnt in an epoch. -/
  | refused (worker : Nat) (host : String) (port : UInt16) (life epoch : Nat)
  | bumpNegEpoch
  | forwardTarget (worker : Nat) (unreachable : SocketAddr → Bool) (s : UInt32) (host : String)
      (port : UInt16)
  | storeDest (i : Nat)
  | createSess (s : UInt32)
  | createSessFor (i : Nat)
  | pinCache (i : Nat)
  | resolveFast (worker : Nat) (s : UInt32) (host : String) (port : UInt16) (delay : Nat)
  | resolvePin (worker : Nat) (pinnedSess s : UInt32) (host : String) (port : UInt16) (delay : Nat)
  | sessDestLookup (worker : Nat) (s : UInt32) (host : String) (port : UInt16)
  | closeSess (s : UInt32)
  | pinClear (s : UInt32)
  | dropPin
  | dropCarried (i : Nat)

namespace Routes

def new : Routes where
  nowMs := 0
  memos := ∅
  negEpoch := 0
  sessions := ∅
  pins := .empty
  pin := none
  carried := []
  answers := []
  log := []
  returned := []

def memo (t : Routes) (worker : Nat) : DnsMemo := (t.memos.lookup worker).getD .empty

def knowledge (t : Routes) (worker : Nat) (unreachable : SocketAddr → Bool) : Knowledge where
  nowMs := t.nowMs
  memo := (t.memo worker).lookupCachedFastWithTtl t.nowMs t.negEpoch
  unreachable := unreachable

def passTime (t : Routes) (ms : Nat) : Routes := { t with nowMs := t.nowMs + ms }

section

variable (t : Routes) (worker : Nat) (s : UInt32) (host : String) (port : UInt16)
  (dst : Option SocketAddr)

def note (e : Entry) (source : Source) : Routes :=
  { t with log := (e, source) :: t.log }

def carry (cs : List Carried) : Routes := { t with carried := cs ++ t.carried }

def putMemo (memo : DnsMemo) : Routes :=
  { t with memos := t.memos.insert worker memo }

/-- Note what a lookup returned. -/
def give : Routes :=
  match dst with
  | none => t
  | some dst => { t with returned := ⟨worker, s, host, port, dst, t.nowMs⟩ :: t.returned }

def answerOf (addrs : List SocketAddr) (life : Nat) :
    Answer := ⟨dnsName host, port, addrs, t.nowMs + life⟩

/-- An answer arrives on a worker, whose memo keeps its first address. -/
def materializeCached (addrs : List SocketAddr) (life : Nat) : Routes :=
  let answer := t.answerOf host port addrs life
  let t := { t with answers := answer :: t.answers }
  match addrs with
  | [] => t
  | first :: _ =>
    let memo := (t.memo worker).memoPut (dnsKey host port) (some first) answer.deadline t.negEpoch
    let noted := if memoKeyBytes < (dnsKey host port).length then t
      else t.note ⟨.memo worker, dnsName host, port, first, answer.deadline⟩ (.answer answer)
    noted.putMemo worker memo

/-- The life a task gives an answer: what the memo says is left, or that of a new answer where the
memo says nothing. -/
def remainingMs : Nat :=
  let life := ((t.memo worker).lookupCachedFastWithTtl t.nowMs t.negEpoch host port).2
  if life = 0 then dnsCacheTtlMs else life

/-- The memo that the target of a datagram was resolved from. -/
def forwardTier (k : Knowledge) (allowPrivate : Bool) (worker : Nat) (s : UInt32) (host : String)
    (port : UInt16) : Tier :=
  match k.memo host port with
  | (.addr dst, _) => if usable k allowPrivate dst then .memo worker else .session s
  | _ => .session s

/-- The memo that a pin is armed from. -/
def adoptTier : Tier :=
  if (t.sessions.sessDestLookupTtl t.nowMs s host port).isSome then .session s else .memo worker

/-- The entry that an address with a remaining life was just read from. -/
def readEntry (tier : Tier) (host : String) (port : UInt16) (dst : SocketAddr) (life : Nat) :
    Entry := ⟨tier, dnsName host, port, dst, t.nowMs + life⟩

/-- Note a pin that is armed from what a lookup adopted. -/
def noteArm (armMs : Nat) (tier : Tier) (adopted : Option (SocketAddr × Nat)) : Routes :=
  match adopted with
  | none => t
  | some (dst, life) =>
    if destKeyBytes < (utf8 host).length then t
    else t.note ⟨.pin s, dnsName host, port, dst, armMs + pinLifeMs life⟩
      (.entry (t.readEntry tier host port dst life))

end

section

variable (allowPrivate : Bool)

variable (t : Routes) (worker : Nat) (unreachable : SocketAddr → Bool) (s : UInt32) (host : String)
  (port : UInt16)

/-- A waiting payload's resolution ends: its task carries the addresses that pass. -/
def deliver (addrs : List SocketAddr) (life delay : Nat) : Routes :=
  let answer := t.answerOf host port addrs life
  let t := (t.materializeCached worker host port addrs life).passTime delay
  t.carry ((addrs.filter (fastAllow allowPrivate)).map fun addr =>
    ⟨s, ⟨host, port, addr, t.remainingMs worker host port⟩, t.nowMs, .answer answer⟩)

/-- Resolve a datagram's target from the memos and carry the address on. -/
def forward : Routes :=
  let k := t.knowledge worker unreachable
  match resolveForwardTarget k allowPrivate t.sessions s host port with
  | .addr dst life =>
    let tier := forwardTier k allowPrivate worker s host port
    (t.give worker s host port (some dst)).carry
      [⟨s, ⟨host, port, dst, life⟩, t.nowMs, .entry (t.readEntry tier host port dst life)⟩]
  | _ => t

/-- Store a carried address in its session's memo. -/
def storeDest (c : Carried) : Routes :=
  let d := c.dest
  let sessions := t.sessions.sessDestStore t.nowMs c.sess d.host d.port d.addr d.life
  let noted := if t.sessions.writesDest t.nowMs c.sess d
    then t.note (c.entryAt (.session c.sess) t.nowMs) c.source else t
  { noted with sessions := sessions }

/-- Create a session, with the address that is carried for it. Session zero is none. -/
def createSess (carried : Option Carried) : Routes :=
  if s = 0 then t
  else
    let entry := ServerConn.freshEntry t.nowMs (carried.map Carried.dest)
    let noted := match carried with
      | some c => if c.Fits then t.note (c.entryAt (.session s) t.nowMs) c.source else t
      | none => t
    { noted with sessions := t.sessions.insert s entry }

/-- Pin an address that was read from a memo. -/
def pinCache (t : Routes) (c : Carried) : Routes :=
  match c.source with
  -- Only the reader arms pins, and it never waits for a resolution.
  | .answer _ => t
  | .entry _ =>
    let pins := t.pins.pinCache t.nowMs c.sess c.dest.host c.dest.port c.dest.addr c.dest.life
    let noted := if c.Fits then t.note (c.entryAt (.pin c.sess) t.nowMs) c.source else t
    { noted with pins := pins }

/-- A lookup on the fast path, the pin armed after a delay. -/
def fast (delay : Nat) : Routes :=
  let k := t.knowledge worker fun _ => false
  let armMs := t.nowMs + delay
  let r := resolveFastAt k allowPrivate armMs t.sessions t.pins s host port
  let noted := if (t.pins.pinGet t.nowMs s host port).isSome then t
    else t.noteArm s host port armMs (t.adoptTier worker s host port)
      (adopt k allowPrivate t.sessions s host port)
  ({ noted with pins := r.2 }.give worker s host port r.1).passTime delay

/-- A lookup through the caller's pin, armed again after a delay. -/
def throughPin (pinnedSess s : UInt32) (host : String) (port : UInt16) (delay : Nat) : Routes :=
  let k := t.knowledge worker fun _ => false
  let armMs := t.nowMs + delay
  let r := resolvePinAt k allowPrivate armMs t.sessions t.pin pinnedSess s host port
  let noted := if (pinHit k t.pin pinnedSess s host port).isSome then t
    else t.noteArm s host port armMs (t.adoptTier worker s host port)
      (adopt k allowPrivate t.sessions s host port)
  ({ noted with pin := r.2 }.give worker s host port r.1).passTime delay

def next : RouteEvent → Routes
  | .tick ms => t.passTime ms
  | .resolved worker host port addrs life => t.materializeCached worker host port addrs life
  | .delivered worker s host port addrs life delay =>
    t.deliver allowPrivate worker s host port addrs life delay
  | .refused worker host port life epoch =>
    t.putMemo worker ((t.memo worker).memoPutWithEpoch (dnsKey host port) (t.nowMs + life) epoch
      t.negEpoch)
  | .bumpNegEpoch => { t with negEpoch := t.negEpoch + 1 }
  | .forwardTarget worker unreachable s host port =>
    t.forward allowPrivate worker unreachable s host port
  | .storeDest i => (t.carried[i]?).elim t t.storeDest
  | .createSess s => t.createSess s none
  | .createSessFor i => (t.carried[i]?).elim t fun c => t.createSess c.sess (some c)
  | .pinCache i => (t.carried[i]?).elim t t.pinCache
  | .resolveFast worker s host port delay => t.fast allowPrivate worker s host port delay
  | .resolvePin worker pinnedSess s host port delay =>
    t.throughPin allowPrivate worker pinnedSess s host port delay
  | .sessDestLookup worker s host port =>
    t.give worker s host port ((t.sessions.sessDestLookupTtl t.nowMs s host port).map Prod.fst)
  | .closeSess s => { t with sessions := t.sessions.erase s }
  | .pinClear s => { t with pins := t.pins.pinClear s }
  | .dropPin => { t with pin := none }
  | .dropCarried i => { t with carried := t.carried.eraseIdx i }

end

end Routes

end MyQuic2
