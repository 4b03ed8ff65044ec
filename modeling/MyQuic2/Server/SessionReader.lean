import MyQuic2.Server.Reply
import MyQuic2.Server.ReplyMemo

/-!
# The reply reader of a rev3 session

Rev3 confirms nothing: the reader repeats the context of a flow for a number of
frames and then trusts the source it taught. The window is counted by flow id in
the reader, while the source, its confirmation and the state of the flow are shared
with the tasks that open and close flows. Between the classification of a reply and
the verdict of its send those tasks go on.
-/

namespace MyQuic2

/-- Repairs that the mailbox of a connection holds. -/
def ctxNeedCap : Nat := 64

/-- What happened to the context of a flow. -/
inductive WindowEntry where
  | learned (wireId : UInt32) (src : SocketAddr)
  /-- The peer's request for the context was taken up. -/
  | repaired (wireId : UInt32)
  | context (wireId : UInt32) (src : SocketAddr)
  /-- A frame with the id alone was handed over for a reply from the source. -/
  | steady (wireId : UInt32) (src : SocketAddr)

/-- A reply that is classified and not sent yet. -/
structure PendingReply where
  src : SocketAddr
  verdict : Option SourceVerdict
  installed : Bool

namespace ReplyReader

section

variable (r : ReplyReader)

/-- The bindings that the table lists. -/
def refs : List Nat := r.entries.filterMap id

def reclaimable : Option Nat → Bool
  | none => true
  | some b => (r.heap b).state = .closed

def isFull : Bool := !r.entries.any r.reclaimable

def findId (wireId : UInt32) : Option Nat :=
  r.refs.find? fun b => (r.heap b).wireId = wireId

/-- Put a binding into the first slot that is free. -/
def placeIn (free : Option Nat → Bool) (b : Nat) : List (Option Nat) → Option (List (Option Nat))
  | [] => none
  | slot :: rest =>
    if free slot then some (some b :: rest) else (placeIn free b rest).map (slot :: ·)

/-- The table with a binding more; an id that is there already counts as inserted. -/
def insertFlow (b : Nat) : Option (List (Option Nat)) :=
  if (r.findId (r.heap b).wireId).isSome then some r.entries
  else placeIn r.reclaimable b r.entries

end

/-- Empty the first slot of an id. -/
def without (r : ReplyReader) (wireId : UInt32) : List (Option Nat) → List (Option Nat)
  | [] => []
  | slot :: rest =>
    if slot.any fun b => (r.heap b).wireId = wireId then none :: rest
    else slot :: without r wireId rest

end ReplyReader

structure SessionReader extends ReplyReader where
  sess : UInt32
  allocated : Nat
  /-- Counter of the server's ids, which all sessions of the connection share. -/
  ids : FlowIds
  /-- Mailbox of the repairs that the peer asks for. -/
  ctxNeed : List UInt32
  ctxNeedEpoch : Nat
  /-- Epoch of the mailbox that the reader has seen. -/
  ctxEpoch : Nat
  /-- Context frames sent so far, for the flows inside their window. -/
  ctxSent : Map UInt32 Nat
  repaired : List UInt32
  pending : Option PendingReply
  /-- What happened to the contexts, the latest first. -/
  log : List WindowEntry

/-- What happens to a reader and around it. -/
inductive SessionEvent where
  /-- The peer opens a flow and the registry takes it. -/
  | openFlow (wireId : UInt32) (target : TargetAddr) (resolved : List SocketAddr)
  | closeFlow (wireId : UInt32)
  | removeFlow (wireId : UInt32)
  | needContext (wireId : UInt32)
  /-- Another session opens a flow of the server's own. -/
  | allocElsewhere
  /-- A reply arrives; `grant` says whether an unknown source may get a flow: full cone, and room in
  the registry. -/
  | reply (grant : Bool) (src : SocketAddr)
  | sent (handoff : Handoff)

namespace SessionReader

variable (s : SessionReader) (wireId : UInt32) (target : TargetAddr)

def new (sess : UInt32) : SessionReader where
  heap := fun _ => .new 0 sess (.domain "" 0)
  entries := List.replicate maxFlowsPerSession none
  snapshot := 0
  memo := .default
  sess := sess
  allocated := 0
  ids := .new true
  ctxNeed := []
  ctxNeedEpoch := 0
  ctxEpoch := 0
  ctxSent := ∅
  repaired := []
  pending := none
  log := []

/-- Make a binding. -/
def alloc (b : FlowBinding) : SessionReader :=
  { s with heap := Function.update s.heap s.allocated b, allocated := s.allocated + 1 }

def publish (entries : List (Option Nat)) : SessionReader :=
  { s with entries := entries, snapshot := s.snapshot + 1 }

def openFlow (resolved : List SocketAddr) : SessionReader :=
  -- The decoder lets no id of the server's half through.
  if Wire.wireIdServerOwned wireId then s
  else if s.isFull && (s.findId wireId).isNone then s
  else
    let s' := s.alloc ((FlowBinding.new wireId s.sess target).setResolved resolved).markOpen
    match s'.insertFlow s.allocated with
    | some entries => s'.publish entries
    | none => s'

def closeFlow : SessionReader :=
  match s.findId wireId with
  | some b => { s with heap := Function.update s.heap b (s.heap b).markClosed }
  | none => s

def removeFlow : SessionReader :=
  s.publish (s.without wireId s.entries)

/-- Ask for the context of a flow. A full mailbox is emptied first. -/
def noteNeedContext : SessionReader :=
  let ids := if ctxNeedCap ≤ s.ctxNeed.length then [] else s.ctxNeed
  { s with
    ctxNeed := if ids.contains wireId then ids else ids ++ [wireId]
    ctxNeedEpoch := s.ctxNeedEpoch + 1 }

/-- Take the mailbox up when it has changed: the windows are those of its list. -/
def syncCtxRepairs : SessionReader :=
  if s.ctxNeedEpoch = s.ctxEpoch then s
  else
    { s with
      ctxEpoch := s.ctxNeedEpoch
      ctxSent := s.ctxNeed.foldl (fun m id => m.insert id 0) ∅
      repaired := s.ctxNeed
      log := s.ctxNeed.map .repaired ++ s.log }

def contextDue : Bool :=
  (s.ctxSent.lookup wireId).any fun sent => sent < r3ContextK

section

variable (grant : Bool) (src : SocketAddr)

/-- Count a context frame; the last one of the window confirms the source. -/
def noteCtxSent (b : Nat) : SessionReader :=
  let sent := min ((s.ctxSent.lookup (s.heap b).wireId).getD 0 + 1) 255
  if r3ContextK ≤ sent then
    { s with
      ctxSent := s.ctxSent.erase (s.heap b).wireId
      heap := Function.update s.heap b (s.heap b).markReplySrcAcked }
  else { s with ctxSent := s.ctxSent.insert (s.heap b).wireId sent }

/-- Open a flow of the server's own for a source without one. -/
def installUnsolicited : Option Nat × SessionReader :=
  if s.isFull then (none, s)
  else
    match s.ids.allocWireId .rev3 with
    | (none, ids) => (none, { s with ids := ids })
    | (some id, ids) =>
      let s' := { s.alloc ((FlowBinding.new id s.sess (.ip src)).setReplySrc src).markOpen with
        ids := ids
        log := .learned id src :: s.log }
      match s'.insertFlow s.allocated with
      | some entries => (some s.allocated, s'.publish entries)
      | none => (none, s')

/-- The flow of a reply: the table's, or a new one. -/
def resolve : Option SourceVerdict × Bool × SessionReader :=
  match s.classifyReplySource src with
  | (some v, r) => (some v, false, { s with toReplyReader := r })
  | (none, r) =>
    if grant then
      match installUnsolicited { s with toReplyReader := r } src with
      | (some b, s) => (some ⟨b, false⟩, true, s)
      | (none, s) => (none, false, s)
    else (none, false, { s with toReplyReader := r })

/-- A flow inside its window gets a context frame even where the table would compress. -/
def forceContext (v : SourceVerdict) : SourceVerdict :=
  if v.exact && s.contextDue (s.heap v.binding).wireId then ⟨v.binding, false⟩ else v

/-- Classify a reply. -/
def classify : SessionReader :=
  let out := s.resolve grant src
  let s := out.2.2.syncCtxRepairs
  { s with pending := some ⟨src, out.1.map s.forceContext, out.2.1⟩ }

/-- A context frame was sent: its source is learned. -/
def learn (b : Nat) (src : SocketAddr) : SessionReader :=
  let id := (s.heap b).wireId
  let news := if (s.heap b).replySrc = some src then [] else [WindowEntry.learned id src]
  noteCtxSent
    { s with
      heap := Function.update s.heap b ((s.heap b).setReplySrc src)
      log := .context id src :: (news ++ s.log) } b

/-- Act on the fate of a frame. -/
def deliver (p : PendingReply) (handoff : Handoff) : SessionReader :=
  match p.verdict with
  | none => s
  | some v =>
    if v.exact then
      if handoff = .dropped then s
      else { s with log := .steady (s.heap v.binding).wireId p.src :: s.log }
    else if handoff = .taken then s.learn v.binding p.src
    else s

/-- Take a reply, unless the last one is still being sent. -/
def takeReply : SessionReader :=
  if s.pending.isSome then s else s.classify grant src

end

/-- The send of the pending reply ends. -/
def finish (handoff : Handoff) : SessionReader :=
  match s.pending with
  | none => s
  | some p => { s with pending := none }.deliver p handoff

def next : SessionEvent → SessionReader
  | .openFlow wireId target resolved => s.openFlow wireId target resolved
  | .closeFlow wireId => s.closeFlow wireId
  | .removeFlow wireId => s.removeFlow wireId
  | .needContext wireId => s.noteNeedContext wireId
  | .allocElsewhere => { s with ids := (s.ids.allocWireId .rev3).2 }
  | .reply grant src => s.takeReply grant src
  | .sent handoff => s.finish handoff

end SessionReader

end MyQuic2
