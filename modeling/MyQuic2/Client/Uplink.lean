import MyQuic2.Client.Dispatch
import MyQuic2.Mqp.FlowRegistry
import MyQuic2.Udp.FrameSet
import MyQuic2.Udp.Stage

/-!
# Uplink payloads on the client

An association keeps the flows of its targets in a table of its own and sends each
payload under a flow id, or with its full address where no id can be had. Bindings
are shared with the registry of the connection: what happens to the registry's
binding is seen in every table that holds it, and one that leaves the registry is
closed.
-/

namespace MyQuic2

/-- Largest payload that is staged. -/
def batchSmallMax : Nat := 512

namespace FlowBinding

variable (b : FlowBinding)

def isOpen : Bool := b.state = .opened

/-- Take one of the binding frames of a rev3 window; the last one opens the flow. -/
def takeContextSlot : Bool × FlowBinding :=
  if b.state ≠ .opening then (false, b)
  else if b.contextLeft ≤ 1 then (true, { b with state := .opened, contextLeft := 0 })
  else (true, { b with contextLeft := b.contextLeft - 1 })

/-- Start the window again; a closed binding is not revived. -/
def rearmContext : FlowBinding :=
  if b.state = .closed then b
  else { b with contextLeft := r3ContextRepeats, state := .opening }

/-- What a table sees of a binding it shares. A binding without its registry entry is closed, and
a closed one stays so when its id is bound again. -/
def follow : Option FlowBinding → FlowBinding
  | none => b.markClosed
  | some shared =>
    if b.state = .closed then b
    else { shared with wireId := b.wireId, session := b.session, target := b.target }

end FlowBinding

def SessionFlows.find (t : SessionFlows) (addr : TargetAddr) : Option FlowBinding :=
  t.live.find? fun b => b.target = addr

/-- The client's flows of one connection. -/
structure ClientFlows where
  wire : Wire
  conn : ClientConn
  ids : FlowIds
  /-- Ids handed out so far, each with the session and the target it was for. -/
  issued : List (UInt32 × UInt32 × TargetAddr)

/-- The uplink of one application. -/
structure Assoc where
  sess : UInt32
  flows : SessionFlows
  last : Option (TargetAddr × FlowBinding)
  frag : Fragmenter

namespace Assoc

def new (wire : Wire) (sess nextId : UInt32) : Assoc :=
  ⟨sess, .empty, none, ⟨nextId, false, wire⟩⟩

/-- Bring the tables in step with the registry. -/
def refresh (registry : Map UInt32 FlowBinding) (a : Assoc) : Assoc :=
  { a with
    flows := a.flows.map (Option.map fun b => b.follow (registry.lookup b.wireId))
    last := a.last.map fun m => (m.1, m.2.follow (registry.lookup m.2.wireId)) }

end Assoc

namespace ClientFlows

section

variable (f : ClientFlows) (wireId : UInt32)

def new (wire : Wire) (cap : Nat) : ClientFlows := ⟨wire, ⟨∅, cap⟩, .new false, []⟩

/-- The registry; the indexes beside the map are not looked at. -/
def registry (f : ClientFlows) : FlowRegistry := ⟨f.conn.cap, f.conn.registry, ∅, 0⟩

def setRegistry (registry : Map UInt32 FlowBinding) : ClientFlows :=
  { f with conn := { f.conn with registry := registry } }

def remove : ClientFlows :=
  f.setRegistry (f.conn.registry.erase wireId)

def modify (g : FlowBinding → FlowBinding) : ClientFlows :=
  f.setRegistry (f.conn.registry.mapValues fun id b => if id = wireId then g b else b)

end

variable (f : ClientFlows) (rejected : Bool) (a : Assoc) (addr : TargetAddr)

/-- A flow that the server opened for a session and a target. -/
def findServerFlow (sess : UInt32) (addr : TargetAddr) : Option FlowBinding :=
  (f.conn.registry.entries.map Sigma.snd).find? fun b =>
    Wire.wireIdServerOwned b.wireId && b.session = sess && b.target = addr

/-- Allocate an id and install its binding. -/
def insertNewFor (f : ClientFlows) (sess : UInt32) (addr : TargetAddr) :
    Option FlowBinding × ClientFlows :=
  let (out, r, ids) := f.registry.insertNewFor f.wire f.ids sess addr
  (out.toOption,
    { f.setRegistry r.map with
      ids := ids
      issued := f.issued ++ (f.registry.allocFor f.wire f.ids).1.toList.map (·, sess, addr) })

def newFlow : Option FlowBinding × ClientFlows × Assoc :=
  if f.conn.cap ≤ f.conn.registry.size then (none, f, a)
  else
    match f.insertNewFor a.sess addr with
    | (none, f) => (none, f, a)
    | (some b, f) =>
      match a.flows.insert b with
      | none => (none, f.remove b.wireId, a)
      | some flows => (some b, f, { a with flows := flows, last := some (addr, b) })

/-- Take over a flow that the server opened for the target, or open one. A target that the server
rejected lately gets none. -/
def openFlow : Option FlowBinding × ClientFlows × Assoc :=
  if a.flows.isFull || rejected then (none, f, a)
  else
    match f.findServerFlow a.sess addr with
    | none => f.newFlow a addr
    | some server =>
      if server.isOpen then
        match a.flows.insert server with
        | none => (none, f, a)
        | some flows => (some server, f, { a with flows := flows, last := some (addr, server) })
      else if server.state = .closed then (f.remove server.wireId).newFlow a addr
      else f.newFlow a addr

/-- Find the binding of a target, opening a flow when needed. -/
def ensureBinding : Option FlowBinding × ClientFlows × Assoc :=
  match a.last.filter fun m => m.1 = addr && m.2.session = a.sess && m.2.state ≠ .closed with
  | some (_, cached) => (some cached, f, a)
  | none =>
    let a := { a with last := none }
    match a.flows.find addr with
    | none => f.openFlow rejected a addr
    | some existing =>
      if existing.state ≠ .closed then
        (some existing, f, { a with last := some (addr, existing) })
      else
        (f.remove existing.wireId).openFlow rejected
          { a with flows := a.flows.remove existing.wireId } addr

end ClientFlows

/-- Whether a payload carries the binding form, and the binding after it: rev2 repeats it until
the flow is open, rev3 for a window, and before the end of the handshake at no cost. -/
def usesBindingContext (w : Wire) (handshakeDone : Bool) (b : FlowBinding) : Bool × FlowBinding :=
  match w with
  | .rev2 => (!b.isOpen, b)
  | .rev3 => if !handshakeDone then (true, b) else b.takeContextSlot

/-- The same addressing for a payload that is fragmented. -/
def R2StageKind.flow : R2StageKind → FragFlow
  | steady id => .steady id
  | opening id sess addr src => .opening id sess addr src
  | inline sess addr src => .inline sess addr src

/-- What the surroundings decide while one payload is sent. -/
structure SendEnv where
  rejected : Bool
  handshakeDone : Bool
  admitted : Bool
  limit : Nat
  /-- The connection's answer to a frame of its own. -/
  verdict : DatagramSend
  space : Nat
  fragVerdict : Nat → DatagramSend

/-- How a payload leaves its association. -/
inductive Leaving where
  | nothing
  | stage (item : R2StageItem)
  | single (frame : Bytes)
  | fragments (key : FragKey) (frames : List Bytes) (frag : Fragmenter)

/-- A payload up to the largest staged one waits for a drain; a longer one is sent at once, as one
frame or in fragments. -/
def leave (w : Wire) (frag : Fragmenter) (item : R2StageItem) (e : SendEnv) : Leaving :=
  if !e.admitted then .nothing
  else if item.payload.length ≤ batchSmallMax then .stage item
  else
    match encodeStandaloneItemFor w item e.limit, e.verdict with
    | some frame, .sent => .single frame
    | some _, .unsupported => .nothing
    | some _, .connectionLost => .nothing
    | _, _ =>
      let out := frag.send e.space e.fragVerdict e.limit item.kind.flow item.payload
      .fragments (item.kind.flow.key frag.nextId) out.1 out.2.2

/-- The client's side of a connection. -/
structure Uplink where
  flows : ClientFlows
  assocs : Map Nat Assoc
  /-- Every item that was staged, whether it still waits or not. -/
  staged : List R2StageItem
  /-- Every datagram that was handed to the connection. -/
  air : List Bytes

namespace Uplink

def new (wire : Wire) (cap : Nat) : Uplink := ⟨.new wire cap, ∅, [], []⟩

variable (u : Uplink) (key : Nat) (a : Assoc) (addr : TargetAddr) (payload : Bytes) (e : SendEnv)

/-- The registry has changed: every association sees it. -/
def withFlows (flows : ClientFlows) : Uplink :=
  { u with
    flows := flows
    assocs := u.assocs.mapValues fun _ a => a.refresh flows.conn.registry }

/-- Address a payload: the association and the flows after that, and the form of the payload. -/
def address (f : ClientFlows) (a : Assoc) (addr : TargetAddr) (e : SendEnv) :
    R2StageKind × ClientFlows × Assoc :=
  match f.ensureBinding e.rejected a addr with
  | (none, f, a) => (.inline a.sess addr false, f, a)
  | (some b, f, a) =>
    let (context, b') := usesBindingContext f.wire e.handshakeDone b
    (if context then .opening b.wireId a.sess addr false else .steady b.wireId,
      f.modify b.wireId fun shared => shared.follow (some b'), a)

/-- How a payload of an association leaves. -/
def leaving : Leaving :=
  let (kind, _, a) := address u.flows a addr e
  leave u.flows.wire { a.frag with wire := u.flows.wire } ⟨a.sess, kind, payload, u.staged.length⟩ e

/-- Send one payload of an association. An address that cannot be written is given up. -/
def sendUplink : Uplink :=
  match addr.header with
  | .error _ => u
  | .ok _ =>
    let (_, flows, after) := address u.flows a addr e
    let keep (frag : Fragmenter) : Uplink :=
      ({ u with assocs := u.assocs.insert key { after with frag := frag } }).withFlows flows
    match u.leaving a addr payload e with
    | .nothing => keep after.frag
    | .stage item => { keep after.frag with staged := u.staged ++ [item] }
    | .single frame => { keep after.frag with air := u.air ++ [frame] }
    | .fragments _ frames frag => { keep frag with air := u.air ++ frames }

/-- Send a frame of items that were staged. -/
def emit (shape : FrameShape) (run : List Nat) (limit : Nat) : Uplink :=
  let items := run.filterMap fun i => u.staged[i]?
  match PackedFrames.encodeFrame ⟨[], items, u.flows.wire⟩ ⟨none, shape, 0, items.length⟩ limit with
  | none => u
  | some frame => { u with air := u.air ++ [frame] }

/-- The server confirms a flow. -/
def flowAck (wireId : UInt32) : Uplink :=
  u.withFlows (u.flows.modify wireId .markOpen)

/-- The server asks for the context of a flow. -/
def needContext (wireId : UInt32) : Uplink :=
  u.withFlows (u.flows.modify wireId .rearmContext)

/-- The server closes or rejects a flow. -/
def flowClose (wireId : UInt32) : Uplink := u.withFlows (u.flows.remove wireId)

def sessClose (sess : UInt32) : Uplink :=
  u.withFlows (u.flows.setRegistry (u.flows.conn.registry.retain fun _ b => b.session ≠ sess))

/-- An association takes up that the server closed its session, and forgets its flows. -/
def sync : Uplink :=
  match u.assocs.lookup key with
  | none => u
  | some a =>
    ({ u with assocs := u.assocs.insert key { a with flows := .empty, last := none } }).withFlows
      (a.flows.live.foldl (fun f (b : FlowBinding) => f.remove b.wireId) u.flows)

/-- An application comes. -/
def openAssoc (sess nextId : UInt32) : Uplink :=
  if (u.assocs.lookup key).isSome then u
  else { u with assocs := u.assocs.insert key (.new u.flows.wire sess nextId) }

/-- An application goes: the flows of its session are released. -/
def closeAssoc : Uplink :=
  match u.assocs.lookup key with
  | none => u
  | some a => ({ u with assocs := u.assocs.erase key }).sessClose a.sess

end Uplink

end MyQuic2
