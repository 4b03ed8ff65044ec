import MyQuic2.Server.Forward

/-!
# Tasks, closes and the steps of a connection

A task goes from one lock section to the next; between them the reader and the
other tasks move on. The close of a session flags the tasks of the session before
it removes the session, and a task reads its flag in the same section in which it
would publish one.
-/

namespace MyQuic2

/-- What the surroundings decide in one stage of a task. -/
structure TaskEnv extends Env where
  /-- The resolver's answer, or how long its failure counts. -/
  answer : Except Nat (List SocketAddr)
  filteredTtl : Nat
  entryLife : Nat
  /-- The reply reader of a new session is up when the session is published. -/
  readerAlive : Bool

namespace Waiter

variable {allowPrivate : Bool} (w : Waiter allowPrivate)

/-- The close of the session stops the own payload; followers are not asked. -/
def stopped : Bool := w.own && w.cancelled

/-- Go on with the next follower, if there is one. -/
def nextFollower : Waiter allowPrivate :=
  match w.followers with
  | [] => { w with stage := .finishing }
  | payload :: followers =>
    { w with own := false, payload := payload, followers := followers, stage := .resolving }

/-- Go on after a delivery. A name without a usable address leaves the followers alone. -/
def settle (outcome : DeliveryOutcome) : Waiter allowPrivate :=
  if w.own then
    match outcome with
    | .unusable _ => { w with outcome := outcome, stage := .finishing }
    | _ => { w with outcome := outcome, stage := .taking }
  else w.nextFollower

/-- The destination that a session remembers for the waiter's name. -/
def named (a : TaskEnv) (addr : SocketAddr) : Named := ⟨w.host, w.port, addr, a.entryLife⟩

end Waiter

namespace ServerConn

variable {allowPrivate : Bool}

section

variable (hasher : GateHasher) (a : TaskEnv)

variable (c : ServerConn allowPrivate) (t : Nat) (w : Waiter allowPrivate)

/-- Try the addresses in order until one takes the payload. An address that lately had no route
is skipped, except the first. -/
def trySend (sess : UInt32) (target : TargetAddr) (payload : Bytes) :
    List SocketAddr → Bool → ServerConn allowPrivate → Option SocketAddr × ServerConn allowPrivate
  | [], _, c => (none, c)
  | addr :: rest, first, c =>
    if !first && a.unreachable addr then trySend sess target payload rest false c
    else
      let c := c.send sess target addr payload
      match a.verdict addr with
      | .sent => (some addr, c)
      | .noRoute => trySend sess target payload rest false c
      | .failed => (none, c)

def putWaiter : ServerConn allowPrivate :=
  { c with waiters := c.waiters.insert t w }

/-- One stage of a waiter. -/
def runWaiter : ServerConn allowPrivate :=
  let key := gateKey hasher w.session w.host w.port
  match w.stage with
  | .resolving =>
    match a.answer with
    | .error ttl => c.putWaiter t (w.settle (.unusable ttl))
    | .ok addrs =>
      match Allowed.ofAnswer allowPrivate addrs with
      | none => c.putWaiter t (w.settle (.unusable a.filteredTtl))
      | some addrs =>
        if w.stopped then c.putWaiter t (w.settle .notDelivered)
        else c.putWaiter t { w with stage := .creating addrs }
  | .creating addrs =>
    if c.adopts a.toEnv w.session then
      (c.storeDest a.nowMs w.session (some (w.named a addrs.first))).putWaiter t
        { w with stage := .sending addrs }
    else if w.session ≠ 0 && a.grant then c.putWaiter t { w with stage := .inserting addrs }
    else c.putWaiter t (w.settle .notDelivered)
  | .inserting addrs =>
    if (c.sessions.lookup w.session).isSome then
      (c.storeDest a.nowMs w.session (some (w.named a addrs.first))).putWaiter t
        { w with stage := .sending addrs }
    else if w.stopped then c.putWaiter t (w.settle .notDelivered)
    else if a.readerAlive then
      let entry := freshEntry a.nowMs (some (w.named a addrs.first))
      ({ c with sessions := c.sessions.insert w.session entry }).putWaiter t
        { w with stage := .sending addrs }
    else c.putWaiter t (w.settle .notDelivered)
  | .sending addrs =>
    if w.stopped then c.putWaiter t (w.settle .notDelivered)
    else
      match trySend a w.session (.domain w.host w.port) w.payload addrs.all true c with
      | (none, c) => c.putWaiter t (w.settle .notDelivered)
      | (some sent, c) =>
        -- A later address that worked replaces the preferred one.
        let c := if sent ≠ addrs.first then
          c.storeDest a.nowMs w.session (some (w.named a sent)) else c
        c.putWaiter t (w.settle .delivered)
  | .taking =>
    let (followers, gate) := c.gate.takeParked key w.generation
    ({ c with gate := gate }).putWaiter t { w with followers := followers }.nextFollower
  | .finishing =>
    let (_, gate) := c.gate.finish key w.generation w.outcome.refusal a.nowMs
    ({ c with gate := gate }).putWaiter t { w with stage := .leaving }
  | .leaving => { c with waiters := c.waiters.erase t }

def putLookup (l : Lookup allowPrivate) (stage : LookupStage allowPrivate) :
    ServerConn allowPrivate :=
  { c with lookups := c.lookups.insert t { l with stage := stage } }

/-- One stage of the task of a domain open. -/
def runLookup (l : Lookup allowPrivate) : ServerConn allowPrivate :=
  let target : TargetAddr := .domain l.host l.port
  let cancelled := c.opens.isCancelled l.session l.id
  let named : SocketAddr → Named := fun addr => ⟨l.host, l.port, addr, a.entryLife⟩
  match l.stage with
  | .resolving =>
    if !a.permit then c.putLookup t l .leaving
    else
      match a.answer with
      | .error _ => c.putLookup t l .leaving
      | .ok addrs =>
        match Allowed.policyResolved allowPrivate addrs with
        | none => c.putLookup t l .leaving
        | some addrs =>
          if cancelled then c.putLookup t l .leaving else c.putLookup t l (.creating addrs)
  | .creating addrs =>
    if c.adopts a.toEnv l.session then
      (c.storeDest a.nowMs l.session (some (named addrs.first))).putLookup t l (.sending addrs)
    else if l.session ≠ 0 && a.grant then c.putLookup t l (.inserting addrs)
    else c.putLookup t l .leaving
  | .inserting addrs =>
    if (c.sessions.lookup l.session).isSome then
      (c.storeDest a.nowMs l.session (some (named addrs.first))).putLookup t l (.sending addrs)
    else if cancelled then c.putLookup t l .leaving
    else if a.readerAlive then
      let entry := freshEntry a.nowMs (some (named addrs.first))
      ({ c with sessions := c.sessions.insert l.session entry }).putLookup t l (.sending addrs)
    else c.putLookup t l .leaving
  | .sending addrs =>
    if cancelled then c.putLookup t l .leaving
    else (c.send l.session target addrs.first l.payload).putLookup t l (.draining addrs)
  | .draining addrs =>
    let (queued, opens) := c.opens.takePendingPayloads l.session l.id
    let c := { c with opens := opens }
    let c := if cancelled then c
      else queued.foldl (fun c payload => c.send l.session target addrs.first payload) c
    c.putLookup t l (.installing addrs)
  | .installing addrs =>
    (c.install l.session l.id target addrs.all).putLookup t l .leaving
  | .leaving =>
    { c with
      opens := c.opens.dropPending l.session l.id
      lookups := c.lookups.erase t }

end

section

variable (c : ServerConn allowPrivate) (sess : UInt32) (src : SocketAddr)

/-- Flag every waiter of a session. -/
def cancelWaiters : ServerConn allowPrivate :=
  { c with waiters := c.waiters.mapValues fun _ w =>
      if w.session = sess then { w with cancelled := true } else w }

def removeSession : ServerConn allowPrivate :=
  { c with
    sessions := c.sessions.erase sess
    registry := c.registry.retain fun _ b => b.session ≠ sess }

/-- Remove a flow from both tables and drop its fragments. -/
def removeFlow (id : UInt32) : ServerConn allowPrivate :=
  match c.registry.lookup id with
  | none => c
  | some b =>
    { c with
      registry := c.registry.erase id
      sessions := match c.sessions.lookup b.session with
        | none => c.sessions
        | some entry => c.sessions.insert b.session { entry with flows := entry.flows.remove id }
      reasm := c.reasm.dropFlow id }

/-- Open a flow of the server's own for an unsolicited source. -/
def installUnsolicited : ServerConn allowPrivate :=
  match c.sessions.lookup sess with
  | none => c
  | some entry =>
    if entry.flows.isFull || maxFlowsPerConn ≤ c.registry.size then c
    else
      match c.ids.allocWireId c.wire with
      | (none, ids) => { c with ids := ids }
      | (some id, ids) =>
        let c := { c with ids := ids }
        let b := ((FlowBinding.new id sess (.ip src)).setReplySrc src).markOpen
        match c.registry.lookup id, entry.flows.insert b with
        | none, some flows =>
          { c with
            registry := c.registry.insert id b
            sessions := c.sessions.insert sess { entry with flows := flows } }
        | _, _ => c

end

/-- One atomic step on the server's side of a connection. -/
inductive Event where
  /-- The reader handles a datagram; a train has one environment per item. -/
  | datagram (d : Bytes) (env : Nat → Env)
  | park
  /-- The reader takes up the close of a session and flags its domain opens. -/
  | sessClose (sess : UInt32)
  | closeStep
  | flowClose (id : UInt32)
  | unsolicited (sess : UInt32) (src : SocketAddr)
  | reap (sess : UInt32)
  | waiter (t : Nat) (a : TaskEnv)
  | lookup (t : Nat) (a : TaskEnv)

/-- The connection after a step. What the reader does out of turn is not done. -/
def next (hasher : GateHasher) (z : Sizes) (c : ServerConn allowPrivate) :
    Event → ServerConn allowPrivate
  | .datagram d env =>
    match c.reader with
    | .idle => c.ingress hasher z env d
    | _ => c
  | .park =>
    match c.reader with
    | .parking key nowMs payload =>
      { c with gate := (c.gate.park key nowMs payload).2, reader := .idle }
    | _ => c
  | .sessClose sess =>
    match c.reader with
    | .idle => { c with opens := c.opens.cancelSession sess, reader := .cancelling sess }
    | _ => c
  | .closeStep =>
    match c.reader with
    | .cancelling sess =>
      { c.cancelWaiters sess with
        reasm := c.reasm.dropSession sess
        reader := .removing sess }
    | .removing sess => { c.removeSession sess with reader := .idle }
    | _ => c
  | .flowClose id =>
    match c.reader with
    | .idle => c.removeFlow id
    | _ => c
  | .unsolicited sess src => c.installUnsolicited sess src
  | .reap sess => c.removeSession sess
  | .waiter t a =>
    match c.waiters.lookup t with
    | some w => c.runWaiter hasher a t w
    | none => c
  | .lookup t a =>
    match c.lookups.lookup t with
    | some l => c.runLookup a t l
    | none => c

end ServerConn

end MyQuic2
