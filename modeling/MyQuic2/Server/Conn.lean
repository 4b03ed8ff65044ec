import MyQuic2.Server.Dest
import MyQuic2.Server.DnsGate
import MyQuic2.Udp.Reassembler

/-!
# A connection on the server

The reader of a connection handles one datagram after the other; lookups of names
run as tasks of their own and share the connection's tables with it. A task holds
the addresses of an answer only as the policy lets them through. Opens that repeat
the open of a name leave their payloads behind its lookup, within a bound.
-/

namespace MyQuic2

/-- Lookups of one connection. -/
def maxPendingDnsOpens : Nat := 16

/-- Payloads behind one lookup. -/
def maxPendingDnsPayloads : Nat := 64

/-- Octets behind all lookups of a connection. -/
def maxPendingDnsBytes : Nat := 256 * 1024

/-- A lookup in flight. -/
structure PendingLookup where
  target : TargetAddr
  cancelled : Bool
  queued : List Bytes

/-- What became of a repeated open's payload. -/
inductive PendingPayload where
  | queued
  | full
  | cancelled
  /-- The open names another target than the lookup. -/
  | conflict
  | notPending

/-- What became of an open. -/
inductive PendingStart where
  | started
  | duplicate
  | full

/-- The lookups of a connection, by session and flow id. -/
structure PendingOpens where
  entries : Map (UInt32 × UInt32) PendingLookup
  bytes : Nat

namespace PendingOpens

def new : PendingOpens := ⟨∅, 0⟩

variable (p : PendingOpens) (sess id : UInt32) (target : TargetAddr)

/-- Start a lookup unless the flow has one. -/
def beginPendingOpen : PendingStart × PendingOpens :=
  if (p.entries.lookup (sess, id)).isSome then (.duplicate, p)
  else if maxPendingDnsOpens ≤ p.entries.size then (.full, p)
  else (.started, { p with entries := p.entries.insert (sess, id) ⟨target, false, []⟩ })

/-- Reserve octets for a payload; an empty one needs none. -/
def reservePendingBytes (n : Nat) : Option PendingOpens :=
  if n = 0 then some p
  else
    match checkedAdd p.bytes n with
    | some next => if next ≤ maxPendingDnsBytes then some { p with bytes := next } else none
    | none => none

lemma entries_reservePendingBytes {p p' : PendingOpens} {n : Nat}
    (h : p.reservePendingBytes n = some p') : p'.entries = p.entries := by
  unfold reservePendingBytes at h
  split at h
  · cases h
    rfl
  split at h
  · split at h
    · cases h
      rfl
    · cases h
  · cases h

/-- Queue the payload of a repeated open behind its lookup. -/
def queuePendingOpenPayload (payload : Bytes) : PendingPayload × PendingOpens :=
  match p.entries.lookup (sess, id) with
  | none => (.notPending, p)
  | some entry =>
    if entry.cancelled then (.cancelled, p)
    else if entry.target ≠ target then (.conflict, p)
    else if maxPendingDnsPayloads ≤ entry.queued.length then (.full, p)
    else
      match p.reservePendingBytes payload.length with
      | none => (.full, p)
      | some p =>
        let entry := { entry with queued := entry.queued ++ [payload] }
        (.queued, { p with entries := p.entries.insert (sess, id) entry })

/-- Drain the payloads behind a lookup and release their octets. -/
def takePendingPayloads : List Bytes × PendingOpens :=
  match p.entries.lookup (sess, id) with
  | none => ([], p)
  | some entry =>
    (entry.queued, {
      entries := p.entries.insert (sess, id) { entry with queued := [] }
      bytes := p.bytes - (entry.queued.map List.length).sum })

/-- Mark every lookup of a session. The entries stay until their tasks exit. -/
def cancelSession : PendingOpens :=
  { p with entries := p.entries.mapValues fun key entry =>
      if key.1 = sess then { entry with cancelled := true } else entry }

/-- The task exits: its key goes, and so do the payloads still behind it. -/
def dropPending : PendingOpens :=
  let (_, p) := p.takePendingPayloads sess id
  { p with entries := p.entries.erase (sess, id) }

/-- The lookup of a flow is marked. -/
def isCancelled : Bool :=
  (p.entries.lookup (sess, id)).any PendingLookup.cancelled

end PendingOpens

/-- Addresses kept of an answer to a domain open. -/
def maxResolvedAddrs : Nat := 16

/-- Addresses of an answer that the policy lets through, in their order. -/
structure Allowed (allowPrivate : Bool) where
  first : SocketAddr
  rest : List SocketAddr
  allowed : ∀ a ∈ first :: rest, fastAllow allowPrivate a = true

namespace Allowed

variable {allowPrivate : Bool}

def all (a : Allowed allowPrivate) : List SocketAddr := a.first :: a.rest

/-- The addresses of a list, when there is one and all pass. -/
def ofList (l : List SocketAddr) (h : ∀ a ∈ l, fastAllow allowPrivate a = true) :
    Option (Allowed allowPrivate) :=
  match l, h with
  | [], _ => none
  | a :: rest, h => some ⟨a, rest, h⟩

variable (allowPrivate : Bool) (addrs : List SocketAddr)

/-- The addresses of an answer that pass. -/
def ofAnswer : Option (Allowed allowPrivate) :=
  ofList (addrs.filter (fastAllow allowPrivate)) fun _ ha => (List.mem_filter.mp ha).2

/-- The addresses of an answer that pass, up to the bound of a flow. -/
def policyResolved : Option (Allowed allowPrivate) :=
  ofList ((addrs.filter (fastAllow allowPrivate)).take maxResolvedAddrs) fun _ ha =>
    (List.mem_filter.mp (List.mem_of_mem_take ha)).2

end Allowed

/-- How a gated delivery ended. -/
inductive DeliveryOutcome where
  | delivered
  /-- The name has no usable address; refuse it for that long. -/
  | unusable (ttl : Nat)
  | notDelivered
  deriving DecidableEq

/-- Time to refuse a name for. -/
def DeliveryOutcome.refusal : DeliveryOutcome → Option Nat
  | unusable ttl => some ttl
  | _ => none

/-- Where a waiter stands. Between two stages other tasks and the reader may run. -/
inductive WaiterStage (allowPrivate : Bool) where
  | resolving
  | creating (addrs : Allowed allowPrivate)
  /-- About to publish a session. -/
  | inserting (addrs : Allowed allowPrivate)
  | sending (addrs : Allowed allowPrivate)
  /-- About to take the followers. -/
  | taking
  /-- About to complete the claim. -/
  | finishing
  /-- About to give up the cancellation flag. -/
  | leaving

/-- The task behind a claim of the gate. It delivers the payload that started it, and then the
payloads parked behind it. -/
structure Waiter (allowPrivate : Bool) where
  session : UInt32
  host : String
  port : UInt16
  generation : UInt32
  cancelled : Bool
  /-- The payload in hand is the one that started the task. -/
  own : Bool
  payload : Bytes
  followers : List Bytes
  outcome : DeliveryOutcome
  stage : WaiterStage allowPrivate

/-- Where the task of a domain open stands. -/
inductive LookupStage (allowPrivate : Bool) where
  | resolving
  | creating (addrs : Allowed allowPrivate)
  | inserting (addrs : Allowed allowPrivate)
  | sending (addrs : Allowed allowPrivate)
  /-- About to send the payloads of repeated opens. -/
  | draining (addrs : Allowed allowPrivate)
  | installing (addrs : Allowed allowPrivate)
  /-- About to give up the pending entry. -/
  | leaving

/-- The task of a domain open. Its cancellation flag is in the pending entry. -/
structure Lookup (allowPrivate : Bool) where
  session : UInt32
  id : UInt32
  host : String
  port : UInt16
  payload : Bytes
  stage : LookupStage allowPrivate

/-- What the reader is about to do. -/
inductive Reader where
  | idle
  /-- Park a follower behind a claim that was in flight. -/
  | parking (key : UInt64) (nowMs : Nat) (payload : Bytes)
  /-- Flag the waiters of a session that is being closed. -/
  | cancelling (sess : UInt32)
  | removing (sess : UInt32)
  deriving DecidableEq

/-- A payload handed to a session's socket, or staged for it. -/
structure Sent where
  sess : UInt32
  target : TargetAddr
  dst : SocketAddr
  payload : Bytes

structure ServerConn (allowPrivate : Bool) where
  wire : Wire
  sessions : SessTable
  registry : Map UInt32 FlowBinding
  ids : FlowIds
  pins : PinCache
  gate : DnsGate
  opens : PendingOpens
  waiters : Map Nat (Waiter allowPrivate)
  lookups : Map Nat (Lookup allowPrivate)
  nextTask : Nat
  reasm : Reassembler
  reader : Reader
  sent : List Sent

/-- What a send to an address comes to. -/
inductive SendVerdict where
  | sent
  | noRoute
  | failed
  deriving DecidableEq

/-- What the surroundings decide while one payload is handled. -/
structure Env extends Knowledge where
  /-- The fast table has a live slot for the session. -/
  fastLive : Bool
  /-- The worker's memo has a live socket of the session. -/
  cachedSock : Bool
  /-- A new session is granted its share, its permit and its socket. -/
  grant : Bool
  permit : Bool
  verdict : SocketAddr → SendVerdict

/-- A destination to remember with a session: name, port, address and remaining life. -/
structure Named where
  host : String
  port : UInt16
  addr : SocketAddr
  life : Nat

namespace ServerConn

variable {allowPrivate : Bool}

def new (allowPrivate : Bool) (wire : Wire) : ServerConn allowPrivate where
  wire := wire
  sessions := ∅
  registry := ∅
  ids := .new true
  pins := .empty
  gate := .new
  opens := .new
  waiters := ∅
  lookups := ∅
  nextTask := 0
  reasm := .new
  reader := .idle
  sent := []

variable (e : Env) (c : ServerConn allowPrivate) (sess : UInt32)

/-- Hand a payload to a session's socket. The socket is dual-stack. -/
def send (target : TargetAddr) (dst : SocketAddr) (payload : Bytes) : ServerConn allowPrivate :=
  { c with sent := c.sent ++ [⟨sess, target, mapForDual dst, payload⟩] }

/-- Remember a destination with a session that is there. -/
def storeDest (nowMs : Nat) (sess : UInt32) (dest : Option Named) : ServerConn allowPrivate :=
  match dest with
  | none => c
  | some d =>
    { c with sessions := c.sessions.sessDestStore nowMs sess d.host d.port d.addr d.life }

/-- The entry of a new session. -/
def freshEntry (nowMs : Nat) (dest : Option Named) : SessEntry where
  dest := match dest with
    | none => .empty
    | some d =>
      if destKeyBytes < (utf8 d.host).length then .empty
      else ⟨d.host, d.port, d.addr, nowMs + pinLifeMs d.life⟩
  flows := .empty

/-- A session that is used as it is: the worker's memo has its socket, or it is in the table.
Session zero is none. -/
def adopts : Bool :=
  sess ≠ 0 && (e.cachedSock || (c.sessions.lookup sess).isSome)

/-- Find or create a session on the reader. -/
def getOrCreateSess (dest : Option Named) : Bool × ServerConn allowPrivate :=
  if c.adopts e sess then (true, c.storeDest e.nowMs sess dest)
  else if sess ≠ 0 && e.grant then
    (true, { c with sessions := c.sessions.insert sess (freshEntry e.nowMs dest) })
  else (false, c)

/-- Install an accepted flow in the registry and in its session's reverse table. An id that is
bound to the same session and target stays as it is. -/
def install (id : UInt32) (target : TargetAddr) (resolved : List SocketAddr) :
    ServerConn allowPrivate :=
  match c.sessions.lookup sess with
  | none => c
  | some entry =>
    if entry.flows.isFull && (entry.flows.findId id).isNone then c
    else
      let fresh := ((FlowBinding.new id sess target).setResolved resolved).markOpen
      let inserted := match c.registry.lookup id with
        | some old => if old.session = sess ∧ old.target = target then some old else none
        | none => if c.registry.size < maxFlowsPerConn then some fresh else none
      match inserted with
      | none => c
      | some b =>
        match entry.flows.insert b with
        -- The reverse table is full after all: the registry entry goes again.
        | none => { c with registry := c.registry.erase id }
        | some flows =>
          { c with
            registry := c.registry.insert id b
            sessions := c.sessions.insert sess { entry with flows := flows } }

end ServerConn

end MyQuic2
