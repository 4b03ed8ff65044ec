import MyQuic2.Mqp.Adapter
import MyQuic2.Server.Conn

/-!
# Forwarding on the reader

The reader routes each payload of a datagram: an open and an inline frame name
their target, a steady item goes where its flow was bound to. What can be sent at
once is sent; a name that is not known yet starts a task, or waits behind one.
-/

namespace MyQuic2

/-- The gate hashes a session, a port and a name with a seed of its own. -/
abbrev GateHasher := UInt32 → UInt16 → Bytes → UInt64

namespace ServerConn

variable {allowPrivate : Bool}

section

variable (hasher : GateHasher) (e : Env)

variable (c : ServerConn allowPrivate) (sess : UInt32) (host : String) (port : UInt16)
  (generation : UInt32) (payload : Bytes)

def gateKey : UInt64 :=
  hasher sess port (normalizeHost host)

/-- Start the task behind a claim, with its cancellation flag. -/
def spawnWaiter : ServerConn allowPrivate :=
  { c with
    waiters := c.waiters.insert c.nextTask
      ⟨sess, host, port, generation, false, true, payload, [], .notDelivered, .resolving⟩
    nextTask := c.nextTask + 1 }

/-- A name that has no usable address here: claim its lookup, or wait behind it. -/
def claimLookup : ServerConn allowPrivate :=
  if !e.permit then c
  else
    let key := gateKey hasher sess host port
    match c.gate.claim key e.nowMs with
    | (.proceed generation, gate) =>
      ({ c with gate := gate }).spawnWaiter sess host port generation payload
    | (.inFlight, gate) => { c with gate := gate, reader := .parking key e.nowMs payload }
    | (.unusable, gate) => { c with gate := gate }

section

variable (target : TargetAddr) (payload : Bytes) (asked : TargetAddr) (staged : Bool)

/-- Relay one payload to its target. The result is the address used and the life of its source;
`staged` payloads leave with the burst, so their verdict is not known here. -/
def forwardServerDgram : Option (SocketAddr × Nat) × ServerConn allowPrivate :=
  match target with
  | .ip dst =>
    if !fastAllow allowPrivate dst then (none, c)
    else
      match c.getOrCreateSess e sess none with
      | (false, c) => (none, c)
      | (true, c) => (some (dst, dnsCacheTtlMs), c.send sess asked dst payload)
  | .domain host port =>
    match resolveForwardTarget e.toKnowledge allowPrivate c.sessions sess host port with
    | .negative => (none, c)
    | .addr dst life =>
      match c.getOrCreateSess e sess (some ⟨host, port, dst, life⟩) with
      | (false, c) => (none, c)
      | (true, c) =>
        let c := c.send sess asked dst payload
        (if !staged && e.verdict dst = .noRoute then none else some (dst, life), c)
    | .unresolved => (none, c.claimLookup hasher e sess host port payload)

/-- Stage a payload through the fast table. -/
def tryStage (dst : SocketAddr) (payload : Bytes) : Option (ServerConn allowPrivate) :=
  if e.fastLive && sess ≠ 0 && fastAllow allowPrivate dst then
    some (c.send sess asked dst payload)
  else none

/-- Relay a payload that names its own target. -/
def forwardV3Item : ServerConn allowPrivate :=
  let (want, pins) := resolveFast e.toKnowledge allowPrivate c.sessions c.pins sess target
  let c := { c with pins := pins }
  match want.bind fun dst => c.tryStage e sess target dst payload with
  | some c => c
  | none =>
    match c.forwardServerDgram hasher e sess target payload target false, target with
    | (some (dst, life), c), .domain host port =>
      { c with pins := c.pins.pinCache e.nowMs sess host port dst life }
    | (_, c), _ => c

end

/-- Relay a payload of a flow. A flow towards a name uses the first address of its install. -/
def forwardFlow (binding : Option FlowBinding) (payload : Bytes) : ServerConn allowPrivate :=
  match binding.filter fun b => b.state ≠ .closed with
  | none => c
  | some b =>
    match b.target.socketAddr <|> b.resolvedFirst with
    | none => c
    | some dst =>
      match c.tryStage e b.session b.target dst payload with
      | some c => c
      | none => (c.forwardServerDgram hasher e b.session (.ip dst) payload b.target true).2

/-- Start the task of a domain open. -/
def spawnLookup (id : UInt32) (host : String) (port : UInt16) (payload : Bytes) :
    ServerConn allowPrivate :=
  { c with
    lookups := c.lookups.insert c.nextTask ⟨sess, id, host, port, payload, .resolving⟩
    nextTask := c.nextTask + 1 }

/-- The first frame of a flow towards a name. -/
def openDomain (id sess : UInt32) (host : String) (port : UInt16) (payload : Bytes) :
    ServerConn allowPrivate :=
  let target : TargetAddr := .domain host port
  match c.opens.queuePendingOpenPayload sess id target payload with
  | (.notPending, _) =>
    match resolveForwardTarget e.toKnowledge allowPrivate c.sessions sess host port with
    | .addr dst life =>
      match c.getOrCreateSess e sess (some ⟨host, port, dst, life⟩) with
      | (false, c) => c
      | (true, c) =>
        let c := c.send sess target dst payload
        let c := { c with pins := c.pins.pinCache e.nowMs sess host port dst life }
        c.install sess id target [dst]
    | _ =>
      match c.opens.beginPendingOpen sess id target with
      | (.started, opens) => ({ c with opens := opens }).spawnLookup sess id host port payload
      | (.full, _) => c
      | (.duplicate, _) =>
        match c.opens.queuePendingOpenPayload sess id target payload with
        | (.notPending, _) => c.forwardV3Item hasher e sess target payload
        | (_, opens) => { c with opens := opens }
  | (_, opens) => { c with opens := opens }

/-- The first frame of a flow. A client opens ids of its own half, and an id keeps its session
and target for the connection's life. -/
def ingressOpen (id sess : UInt32) (target : TargetAddr) (payload : Bytes) :
    ServerConn allowPrivate :=
  if sess = 0 || Wire.wireIdServerOwned id then c
  else if (c.registry.lookup id).any fun b => b.session ≠ sess || b.target ≠ target then c
  else
    match target with
    | .ip dst =>
      if !fastAllow allowPrivate dst then c
      else
        match c.forwardServerDgram hasher e sess target payload target false with
        | (some _, c) => c.install sess id target []
        | (none, c) => c
    | .domain host port => c.openDomain hasher e id sess host port payload

/-- Route a payload by what came with it: an open, an inline frame, or the id of a flow. -/
def route (wireId sess : Option UInt32) (addr : Option TargetAddr) (payload : Bytes) :
    ServerConn allowPrivate :=
  match wireId, sess, addr with
  | some id, some sess, some target => c.ingressOpen hasher e id sess target payload
  | none, some sess, some target => c.forwardV3Item hasher e sess target payload
  | some id, none, none => c.forwardFlow hasher e (c.registry.lookup id) payload
  | _, _, _ => c

end

section

variable (hasher : GateHasher)

/-- Relay the items of a train. The flows are looked up before the first one is relayed. -/
def forwardItems : List (Option FlowBinding × Bytes) → (Nat → Env) → ServerConn allowPrivate →
    ServerConn allowPrivate
  | [], _, c => c
  | (binding, payload) :: items, env, c =>
    forwardItems items (fun i => env (i + 1)) (c.forwardFlow hasher (env 0) binding payload)

variable (z : Sizes) (env : Nat → Env) (c : ServerConn allowPrivate) (d : Bytes)

/-- One DATA frame. A frame with the source mark is refused. -/
def ingressData : ServerConn allowPrivate :=
  match c.wire.decodeData d with
  | .error _ => c
  | .ok f => if f.src then c else c.route hasher (env 0) f.wireId f.sess f.addr f.payload

/-- One TRAIN frame. -/
def ingressTrain : ServerConn allowPrivate :=
  match c.wire.decodeTrain d with
  | .error _ => c
  | .ok view =>
    forwardItems hasher (view.toList.map fun item => (c.registry.lookup item.1, item.2)) env c

/-- One FRAG frame; a payload is routed when its last fragment arrives. -/
def ingressFrag : ServerConn allowPrivate :=
  match c.wire.decodeFrag d with
  | .error _ => c
  | .ok f =>
    match c.reasm.pushFrame z d f (env 0).nowMs with
    | (none, reasm) => { c with reasm := reasm }
    | (some whole, reasm) =>
      let c := { c with reasm := reasm }
      if whole.src then c
      else c.route hasher (env 0) whole.wireId whole.sess whole.addr whole.payload

/-- One datagram of the client. -/
def ingress : ServerConn allowPrivate :=
  match c.wire.kind d with
  | some .data => c.ingressData hasher env d
  | some .train => c.ingressTrain hasher env d
  | some .frag => c.ingressFrag hasher z env d
  -- A control frame is handled as a message.
  | some .ctl => c
  | none => c

end

end ServerConn

end MyQuic2
