import MyQuic2.Mqp.RegistryCalls
import MyQuic2.Server.SessionReader

/-!
# The two flow tables of a connection

A flow of the server is in the registry of the connection, by its id, and in the
reverse table of its session, where the reply reader looks for it. Both hold the
same shared binding. Flows are installed by the peer's frames and by the reply
readers; they go one by one, with their session when the peer closes it, and with
a batch of sessions that were idle for too long. Every function is one step. A
reader that has lost its session is stopped some time later, not at once.
-/

namespace MyQuic2

open Function

/-- The flow tables of a connection. A session is made with a reply reader and a reverse table; one
number stands for the three of them. -/
structure FlowTables where
  wire : Wire
  ids : FlowIds
  /-- Every binding that was made, by the order in which they were made. -/
  heap : Nat → FlowBinding
  allocated : Nat
  /-- Forward table, with the bindings as they were inserted. -/
  registry : FlowRegistry
  /-- The shared binding behind an id of the registry. -/
  ref : UInt32 → Nat
  tables : Nat → List (Option Nat)
  readers : Nat
  owner : Nat → UInt32
  finished : Nat → Bool
  sessions : Map UInt32 Nat
  /-- Sessions that a sweep has taken out and not closed the bindings of yet. -/
  reaped : List Nat

/-- The functions that change the tables. -/
inductive TablesEvent where
  /-- A datagram asks for a session. The sweep under the lock finds some others idle; `published`
  says whether the new session was neither cancelled nor without a reader by then. -/
  | create (s : UInt32) (idle : List UInt32) (published : Bool)
  | install (sess wireId : UInt32) (target : TargetAddr) (resolved : List SocketAddr)
  /-- A reply reader has a datagram from a source without a flow. -/
  | unsolicited (reader : Nat) (src : SocketAddr)
  | removeFlow (wireId : UInt32)
  | closeSession (sess : UInt32)
  | sweep (idle : List UInt32)
  | markReaped (reader : Nat)
  | exit (reader : Nat)
  | stop (reader : Nat)

namespace FlowTables

section

variable (t : FlowTables) (h : Nat)

def new (wire : Wire) (cap : Nat) : FlowTables where
  wire := wire
  ids := .new true
  heap := fun _ => .new 0 0 (.domain "" 0)
  allocated := 0
  registry := .new cap
  ref := fun _ => 0
  tables := fun _ => List.replicate maxFlowsPerSession none
  readers := 0
  owner := fun _ => 0
  finished := fun _ => false
  sessions := ∅
  reaped := []

/-- The reverse table of a session, with the bindings as they are. -/
def table : ReplyReader where
  heap := t.heap
  entries := t.tables h
  snapshot := 0
  memo := .default

/-- The session of an id, while its reader runs. -/
def sessionR2Flows (s : UInt32) : Option Nat :=
  (t.sessions.lookup s).filter fun h => !t.finished h

def close (refs : List Nat) : FlowTables :=
  { t with heap := fun b => if b ∈ refs then (t.heap b).markClosed else t.heap b }

def alloc (b : FlowBinding) : FlowTables :=
  { t with heap := update t.heap t.allocated b, allocated := t.allocated + 1 }

section

variable (sess wireId : UInt32)

/-- Take an id out of the registry and mark its binding closed. -/
def forget : FlowTables :=
  match t.registry.remove wireId with
  | (none, _) => t
  | (some _, registry) => { t.close [t.ref wireId] with registry := registry }

/-- Put a binding of the registry into a reverse table. When that has no slot for it the registry
forgets it again. -/
def list (b : Nat) (wireId : UInt32) : Except RegistryError Nat × FlowTables :=
  match (t.table h).insertFlow b with
  | some entries => (.ok b, { t with tables := update t.tables h entries })
  | none => (.error .full, t.forget wireId)

/-- Put a binding into both tables. -/
def publish (b : FlowBinding) : Except RegistryError Nat × FlowTables :=
  match t.registry.insert b with
  | (.error e, _) => (.error e, t.alloc b)
  | (.ok _, registry) =>
    -- An id that was bound already keeps its binding.
    let ref := if (t.registry.map.lookup b.wireId).isSome then t.ref b.wireId else t.allocated
    list { t.alloc b with registry := registry, ref := update t.ref b.wireId ref }
      h ref b.wireId

/-- Install a flow that the peer has opened. -/
def r2Install (target : TargetAddr) (resolved : List SocketAddr) :
    Except RegistryError Nat × FlowTables :=
  match t.sessionR2Flows sess with
  | none => (.error .full, t)
  | some h =>
    if (t.table h).isFull && ((t.table h).findId wireId).isNone then (.error .full, t)
    else t.publish h ((FlowBinding.new wireId sess target).setResolved resolved).markOpen

/-- Install a flow of the server's own. The reader uses the table it was made with, whether or not
the session is still there. -/
def installUnsolicited (src : SocketAddr) : Option Nat × FlowTables :=
  if (t.table h).isFull then (none, t)
  else if t.registry.cap ≤ t.registry.map.size then (none, t)
  else
    match t.ids.allocWireId t.wire with
    | (none, ids) => (none, { t with ids := ids })
    | (some wireId, ids) =>
      match publish { t with ids := ids } h
          ((FlowBinding.new wireId (t.owner h) (.ip src)).setReplySrc src).markOpen with
      | (.ok b, t) => (some b, t)
      | (.error _, t) => (none, t)

/-- Drop a flow from both tables. -/
def r2RemoveFlow : FlowTables :=
  match t.registry.map.lookup wireId with
  | none => t
  | some b =>
    let t := t.forget wireId
    match t.sessionR2Flows b.session with
    | none => t
    | some h =>
      { t with
        tables := update t.tables h ((t.table h).without wireId (t.tables h)) }

/-- The tables after a purge of the registry: what it has removed is marked closed. -/
def purged (out : List (UInt32 × FlowBinding) × FlowRegistry) : FlowTables :=
  { t.close (out.1.map fun c => t.ref c.2.wireId) with registry := out.2 }

/-- Mark the bindings of a reverse table closed and empty it. -/
def r2MarkReapedEntryClosed : FlowTables :=
  { t.close (t.table h).refs with
    tables := update t.tables h (List.replicate maxFlowsPerSession none) }

/-- The peer closes a session. The bindings of the id go even where the session is not there. -/
def r2CloseSession : FlowTables :=
  let t' := purged { t with sessions := t.sessions.erase sess } (t.registry.removeSession sess)
  match t.sessions.lookup sess with
  | none => t'
  | some h => t'.r2MarkReapedEntryClosed h

end

/-- Take the sessions among some ids out. -/
def takeIdle (sessions : Map UInt32 Nat) : List UInt32 → List (UInt32 × Nat) × Map UInt32 Nat
  | [] => ([], sessions)
  | s :: idle =>
    match sessions.lookup s with
    | none => takeIdle sessions idle
    | some h =>
      ((s, h) :: (takeIdle (sessions.erase s) idle).1, (takeIdle (sessions.erase s) idle).2)

/-- Take idle sessions out, with the bindings they have in the registry. -/
def sweep (idle : List UInt32) : FlowTables :=
  let (evicted, sessions) := takeIdle t.sessions idle
  { purged { t with sessions := sessions } (t.registry.removeSessions (evicted.map Prod.fst)) with
    reaped := t.reaped ++ evicted.map Prod.snd }

/-- Start a reply reader. -/
def spawn (s : UInt32) : FlowTables :=
  { t with
    tables := update t.tables t.readers (List.replicate maxFlowsPerSession none)
    readers := t.readers + 1
    owner := update t.owner t.readers s
    finished := update t.finished t.readers false }

/-- The session of an id, made when there is none. One whose reader has ended is replaced. -/
def getOrCreateSess (s : UInt32) (idle : List UInt32) (published : Bool) : FlowTables :=
  if s = 0 then t
  else
    match t.sessionR2Flows s with
    | some _ => t
    | none =>
      let t := t.sweep (s :: idle)
      if published then { t.spawn s with sessions := t.sessions.insert s t.readers }
      else t.spawn s

/-- A reply reader ends. It takes its session out, unless another has come in its place. -/
def readerExit : FlowTables :=
  let t' := { t with finished := update t.finished h true }
  if t.sessions.lookup (t.owner h) = some h then
    (purged { t' with sessions := t.sessions.erase (t.owner h) }
      (t.registry.removeSession (t.owner h))).r2MarkReapedEntryClosed h
  else t'

/-- The reader is there to run. -/
def Running : Prop := h < t.readers ∧ t.finished h = false

end

instance (t : FlowTables) (h : Nat) : Decidable (t.Running h) :=
  inferInstanceAs (Decidable (_ ∧ _))

def next (t : FlowTables) : TablesEvent → FlowTables
  | .create s idle published => t.getOrCreateSess s idle published
  | .install sess wireId target resolved => (t.r2Install sess wireId target resolved).2
  | .unsolicited h src => if t.Running h then (t.installUnsolicited h src).2 else t
  | .removeFlow wireId => t.r2RemoveFlow wireId
  | .closeSession sess => t.r2CloseSession sess
  | .sweep idle => t.sweep idle
  | .markReaped h =>
    if h ∈ t.reaped then { t.r2MarkReapedEntryClosed h with reaped := t.reaped.erase h } else t
  | .exit h => if t.Running h then t.readerExit h else t
  | .stop h => { t with finished := update t.finished h true }

/-- The registry has the binding under the id. -/
def Registers (t : FlowTables) (wireId : UInt32) (b : Nat) : Prop :=
  (t.registry.map.lookup wireId).isSome ∧ t.ref wireId = b

/-- The two tables agree. -/
structure Agrees (t : FlowTables) : Prop where
  /-- The bindings in the reverse table of a session that are not closed are those the registry has
  of it. -/
  same : ∀ s h, t.sessions.lookup s = some h → ∀ b,
    (b ∈ (t.table h).refs ∧ (t.heap b).state ≠ .closed) ↔
      ∃ wireId, t.Registers wireId b ∧ (t.heap b).session = s
  unclosed : ∀ wireId b, t.Registers wireId b → (t.heap b).state ≠ .closed
  /-- None in the registry is of a session that is gone. -/
  live : ∀ wireId b, t.Registers wireId b → ∃ h, t.sessions.lookup (t.heap b).session = some h

/-- A reader that installs a flow is the one of the session that is there under its id. -/
def Attached (t : FlowTables) : TablesEvent → Prop
  | .unsolicited h _ => t.sessions.lookup (t.owner h) = some h
  | _ => True

instance (t : FlowTables) (ev : TablesEvent) : Decidable (t.Attached ev) := by
  cases ev <;> unfold Attached <;> infer_instance

end FlowTables

end MyQuic2
