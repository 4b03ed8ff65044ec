import MyQuic2.Core.Map
import MyQuic2.Udp.Fragmenter

/-!
# The stager

Payloads wait for the wire in one FIFO queue per session, under a bound on their
number and their bytes. A drain claims the heads of the queues frame by frame,
builds the frame bodies outside the stager's lock, hands them to the connection in
order, and puts back what stands behind a refused frame.
-/

namespace MyQuic2

/-- Addressing shape of one staged item. -/
inductive R2StageKind where
  | steady (wireId : UInt32)
  | opening (wireId sess : UInt32) (addr : TargetAddr) (src : Bool)
  | inline (sess : UInt32) (addr : TargetAddr) (src : Bool)
  deriving DecidableEq

/-- Flow the item belongs to, if its frame names one. -/
def R2StageKind.wireId? : R2StageKind → Option UInt32
  | steady id => some id
  | opening id _ _ _ => some id
  | inline _ _ _ => none

def R2StageKind.isSteady : R2StageKind → Bool
  | steady _ => true
  | opening _ _ _ _ => false
  | inline _ _ _ => false

/-- One payload that is ready to be sent. The serial number tells equal payloads apart: it says
which push brought the item, and no function of the stager reads it. -/
structure R2StageItem where
  session : UInt32
  kind : R2StageKind
  payload : Bytes
  serial : Nat
  deriving DecidableEq

/-- Whether the item names a flow. -/
def R2StageItem.names (item : R2StageItem) (wireId : UInt32) : Bool :=
  item.kind.wireId? == some wireId

def payloadBytes (items : List R2StageItem) : Nat := (items.map fun i => i.payload.length).sum

/-- Counters under which a payload is given up. -/
inductive DgramDrop where
  | egressDead
  | bufferFull
  | tooLarge

/-- Queues of one connection, with the cursors of the two round robins over their sessions. -/
structure R2Stager where
  wire : Wire
  sessions : Map UInt32 (List R2StageItem)
  order : List UInt32
  steadyOrder : List UInt32
  steadyMark : List UInt32
  queuedItems : Nat
  queuedBytes : Nat
  maxItems : Nat
  maxBytes : Nat
  maxTrainItems : Nat

namespace R2Stager

variable (st : R2Stager) (session : UInt32)

def withCapacityWire (maxItems maxBytes : Nat) (wire : Wire) : R2Stager where
  wire := wire
  sessions := ∅
  order := []
  steadyOrder := []
  steadyMark := []
  queuedItems := 0
  queuedBytes := 0
  maxItems := maxItems
  maxBytes := maxBytes
  maxTrainItems := Rev2.maxTrainItems

def isEmpty : Bool := st.queuedItems == 0

/-- Whether a session has items queued. -/
def hasSession : Bool := !(st.sessions.queue session).isEmpty

/-- Whether one more item of that length could be queued. The bytes of payloads that are in
memory together stay below the largest length, so the sum does not saturate. -/
def accepts (len : Nat) : Bool :=
  decide (st.queuedItems < st.maxItems) && decide (st.queuedBytes + len ≤ st.maxBytes)

/-- The number of items of a train both ends agreed on, where the peer named one. -/
def setMaxTrainItems (n : UInt8) : R2Stager :=
  if n > 0 then { st with maxTrainItems := min n.toNat Rev2.maxTrainItems } else st

/-- Whether the head of a session's queue can join a train. -/
def steadyHead : Bool :=
  (st.sessions.queue session).head?.any fun item => item.kind.isSteady

def addSteadyHead : R2Stager :=
  if st.steadyHead session && !st.steadyMark.contains session then
    { st with
      steadyMark := session :: st.steadyMark
      steadyOrder := st.steadyOrder ++ [session] }
  else st

def forgetSteady : R2Stager :=
  if st.steadyMark.contains session then
    { st with
      steadyMark := st.steadyMark.erase session
      steadyOrder := st.steadyOrder.filter fun s => s != session }
  else st

/-- Bring the steady cursor in step with a queue whose head may have changed. -/
def reseatSteady : R2Stager :=
  if st.steadyHead session then st.addSteadyHead session else st.forgetSteady session

/-- Move the steady cursor past a session. -/
def rotateSteadyPast : R2Stager :=
  if st.steadyOrder.getLast? = some session then st
  else
    match st.steadyOrder.idxOf? session with
    | none => st
    | some pos => { st with steadyOrder := st.steadyOrder.rotateLeft (pos + 1) }

/-- Queue one item, unless the queue is full. -/
def push (item : R2StageItem) : Option R2Stager :=
  if st.queuedItems ≥ st.maxItems ∨ st.queuedBytes + item.payload.length > st.maxBytes then none
  else
    let wasEmpty := (st.sessions.queue item.session).isEmpty
    let st' :=
      { st with
        order := if wasEmpty then st.order ++ [item.session] else st.order
        sessions := st.sessions.insert item.session (st.sessions.queue item.session ++ [item])
        queuedItems := st.queuedItems + 1
        queuedBytes := st.queuedBytes + item.payload.length }
    some (if wasEmpty then st'.addSteadyHead item.session else st')

/-- Put one item back at the head of its session's queue, unless the queue is full. -/
def pushFront (item : R2StageItem) : Option R2Stager :=
  if st.queuedItems ≥ st.maxItems ∨ st.queuedBytes + item.payload.length > st.maxBytes then none
  else
    let wasEmpty := (st.sessions.queue item.session).isEmpty
    let st' :=
      { st with
        sessions := st.sessions.insert item.session (item :: st.sessions.queue item.session)
        order := if wasEmpty then item.session :: st.order else st.order
        queuedItems := st.queuedItems + 1
        queuedBytes := st.queuedBytes + item.payload.length }
    some (st'.reseatSteady item.session)

/-- How many items of a burst fit, counted from those queued. -/
def fitting (st : R2Stager) : Nat → Nat → List R2StageItem → Nat
  | accepted, _, [] => accepted
  | accepted, bytes, item :: items =>
    if st.queuedItems + accepted ≥ st.maxItems ∨ bytes + item.payload.length > st.maxBytes then
      accepted
    else fitting st (accepted + 1) (bytes + item.payload.length) items

/-- Queue the items that a pass over the burst found to fit; the others stay with the caller. -/
def pushBatch (items : List R2StageItem) : R2Stager × List R2StageItem :=
  let accepted := st.fitting 0 st.queuedBytes items
  ((items.take accepted).foldl (fun st item => (st.push item).getD st) st, items.drop accepted)

/-- Drop everything, and say how many items the caller must account for. -/
def clear : R2Stager × Nat :=
  ({ st with
      sessions := ∅
      order := []
      steadyOrder := []
      steadyMark := []
      queuedItems := 0
      queuedBytes := 0 }, st.queuedItems)

/-- Drop what is queued for a closed session, and say what that was. -/
def dropSession : R2Stager × List R2StageItem :=
  match st.sessions.lookup session with
  | none => (st, [])
  | some queue =>
    (forgetSteady
      { st with
        sessions := st.sessions.erase session
        queuedItems := st.queuedItems - queue.length
        queuedBytes := st.queuedBytes - payloadBytes queue } session, queue)

/-- Drop what is queued for a closed flow in any session. The numbers are counted afresh and the
steady cursor is rebuilt from the heads that are left. -/
def dropFlow (wireId : UInt32) : R2Stager × List R2StageItem :=
  let removed := st.sessions.contents.filter fun item => item.names wireId
  if removed.isEmpty then (st, [])
  else
    let touched := st.sessions.keys.filter fun s =>
      (st.sessions.queue s).any fun item => item.names wireId
    let sessions := st.sessions.mapValues fun _ q => q.filter fun item => !item.names wireId
    let st' :=
      { st with
        sessions := sessions
        queuedItems := sessions.contents.length
        queuedBytes := payloadBytes sessions.contents }
    let steadyOrder := st.steadyOrder.filter st'.steadyHead
    let st' := { st' with steadyOrder := steadyOrder, steadyMark := steadyOrder.dedup }
    ((touched.mergeSort fun a c => a ≤ c).foldl addSteadyHead st', removed)

/-- Drop what is queued for a closed flow in one session. -/
def dropFlowScoped (wireId : UInt32) : R2Stager × List R2StageItem :=
  match st.sessions.lookup session with
  | none => (st, [])
  | some queue =>
    let removed := queue.filter fun item => item.names wireId
    if removed.isEmpty then (st, [])
    else
      (reseatSteady
        { st with
          sessions := st.sessions.insert session (queue.filter fun item => !item.names wireId)
          queuedItems := st.queuedItems - removed.length
          queuedBytes := st.queuedBytes - payloadBytes removed } session, removed)

/-- Take the head of a session's queue. -/
def popOne : Option (R2StageItem × R2Stager) :=
  match st.sessions.queue session with
  | [] => none
  | item :: rest =>
    let st' :=
      if rest.isEmpty then { st with sessions := st.sessions.erase session }
      else addSteadyHead { st with sessions := st.sessions.insert session rest } session
    some (item,
      { st' with
        queuedItems := st'.queuedItems - 1
        queuedBytes := st'.queuedBytes - item.payload.length })

/-- Walk the round robin to the next session with items, forgetting those without. -/
def skipEmpty (st : R2Stager) : List UInt32 → Option UInt32 × R2Stager
  | [] => (none, { st with order := [] })
  | session :: order =>
    if st.hasSession session then (some session, { st with order := order ++ [session] })
    else skipEmpty st order

def nextSession : Option UInt32 × R2Stager := st.skipEmpty st.order

/-- Walk the steady round robin to the next session whose head can join a train. -/
def skipUnsteady (st : R2Stager) : List UInt32 → Option UInt32 × R2Stager
  | [] => (none, { st with steadyOrder := [] })
  | session :: order =>
    if st.steadyHead session then
      (some session, { st with steadyOrder := order ++ [session] })
    else skipUnsteady { st with steadyMark := st.steadyMark.erase session } order

def nextSteadySession : Option UInt32 × R2Stager := st.skipUnsteady st.steadyOrder

end R2Stager

/-- Length of the length field of an item of a rev3 train. -/
def r3ItemLenLen (n : Nat) : Nat := if n < 0xFF then 1 else 3

/-- Length of the frame that a run and one more steady item are encoded to. -/
def packedSteadyLen (wire : Wire) (run : List R2StageItem) (candidate : R2StageItem)
    (wireId : UInt32) (flows : List UInt32) (newFlow : Bool) : Nat :=
  let candLen := candidate.payload.length
  match run with
  | [] =>
    match wire with
    | .rev2 => 1 + Rev2.varintLen wireId + candLen
    | .rev3 => Rev3.dataSteadyLen candLen
  | first :: _ =>
    if wire = .rev3 ∧ flows.length + newFlow.toNat = 1 then
      let itemLen := first.payload.length
      if candLen = itemLen ∧ run.all (fun i => i.payload.length == itemLen) then
        4 + r3ItemLenLen itemLen + (run.length + 1) * itemLen
      else
        4 + r3ItemLenLen candLen + candLen +
          (run.map fun i => r3ItemLenLen i.payload.length + i.payload.length).sum
    else
      let named := if newFlow then flows ++ [wireId] else flows
      match wire with
      | .rev2 =>
        4 + (named.map Rev2.varintLen).sum +
          ((run ++ [candidate]).map fun i =>
            1 + i.payload.length + Rev2.varintLen (UInt32.ofNat i.payload.length)).sum
      | .rev3 =>
        3 + (named.map fun _ => 2).sum +
          ((run ++ [candidate]).map fun i =>
            1 + i.payload.length + r3ItemLenLen i.payload.length).sum

/-- Which encoder a claimed frame needs. -/
inductive FrameShape where
  | standalone
  | steady
  deriving DecidableEq

/-- One claimed datagram: its encoder, where its items sit in the batch, and its body once it is
encoded. -/
structure PackedFrame where
  body : Option Bytes
  shape : FrameShape
  itemOff : Nat
  itemLen : Nat

/-- A claimed batch. -/
structure PackedFrames where
  frames : List PackedFrame
  items : List R2StageItem
  wire : Wire

/-- Batch without frames. -/
def PackedFrames.empty (wire : Wire) : PackedFrames := ⟨[], [], wire⟩

/-- Add a frame that holds the given items. -/
def PackedFrames.addFrame (q : PackedFrames) (shape : FrameShape) (run : List R2StageItem) :
    PackedFrames :=
  { q with
    items := q.items ++ run
    frames := q.frames ++ [⟨none, shape, q.items.length, run.length⟩] }

namespace R2Stager

section

variable (st : R2Stager) (session : UInt32) (limit : Nat) (run : List R2StageItem)
  (unique : List UInt32)

/-- Whether a steady head joins a run: there is room for one more item, its flow has an index,
and the frame stays within the limit. -/
def joinsRun (front : R2StageItem) (wireId : UInt32) : Bool :=
  let newFlow := !unique.contains wireId
  run.length < st.maxTrainItems && !(newFlow && unique.length ≥ 255) &&
    packedSteadyLen st.wire run front wireId unique newFlow ≤ limit

/-- Move the head of a session's queue into the run of a train, if the train takes it. -/
def takeSteadyHead : Option (R2Stager × List R2StageItem × List UInt32) := do
  let front ← (st.sessions.queue session).head?
  let .steady wireId := front.kind | none
  guard (st.joinsRun limit run unique front wireId)
  let (item, st') ← st.popOne session
  some (st'.rotateSteadyPast session, run ++ [item],
    if unique.contains wireId then unique else unique ++ [wireId])

end

/-- Continue a run with the sessions of the steady round robin. A run takes no more items than a
train has, so that many rounds are enough. -/
def steadyRun (limit : Nat) : Nat → R2Stager → List R2StageItem → List UInt32 →
    R2Stager × List R2StageItem
  | 0, st, run, _ => (st, run)
  | rounds + 1, st, run, unique =>
    match st.nextSteadySession with
    | (none, st') => (st', run)
    | (some next, st') =>
      match st'.takeSteadyHead next limit run unique with
      | none => (st', run)
      | some (st'', run', unique') => steadyRun limit rounds st'' run' unique'

end R2Stager

/-- Stager and batch while frames are claimed, with the items given up on the way. -/
structure Claim where
  stager : R2Stager
  q : PackedFrames
  booked : List R2StageItem

namespace Claim

section

variable (limit : Nat) (c : Claim) (session : UInt32)

/-- Claim the frame of a head that is sent alone. -/
def standalone (c : Claim) (session : UInt32) : Claim :=
  match c.stager.popOne session with
  | none => c
  | some (item, st) => { c with stager := st, q := c.q.addFrame .standalone [item] }

/-- Give up a steady head that no frame can carry. -/
def dropHead : Claim :=
  if c.stager.steadyHead session then
    match c.stager.popOne session with
    | none => c
    | some (item, st) => { c with stager := st, booked := c.booked ++ [item] }
  else c

def steadyFrame : Claim :=
  match c.stager.takeSteadyHead session limit [] [] with
  | none => c.dropHead session
  | some (st, run, unique) =>
    let (st', run') := R2Stager.steadyRun limit st.maxTrainItems st run unique
    { c with stager := st', q := c.q.addFrame .steady run' }

/-- Claim the items of one datagram; the answer says whether the queue had any. -/
def claimOneFrame : Bool × Claim :=
  match c.stager.nextSession with
  | (none, st) => (false, { c with stager := st, q := { c.q with wire := st.wire } })
  | (some session, st) =>
    let c := { c with stager := st, q := { c.q with wire := st.wire } }
    (true, if st.steadyHead session then c.steadyFrame limit session else c.standalone session)

end

/-- Claim frames up to two bounds. Every round takes an item out of the queue or finds it empty,
so the rounds are counted by the items. -/
def claimLoop (limit maxFrames maxItems : Nat) : Nat → Claim → Claim
  | 0, c => c
  | rounds + 1, c =>
    if c.q.frames.length < maxFrames ∧ c.q.items.length < maxItems then
      match c.claimOneFrame limit with
      | (false, c') => c'
      | (true, c') => claimLoop limit maxFrames maxItems rounds c'
    else c

end Claim

/-- Claim at most so many frames, and no further frame once so many items have moved. -/
def R2Stager.claimBatch (st : R2Stager) (limit maxFrames maxItems : Nat) (q : PackedFrames) :
    Claim :=
  Claim.claimLoop limit (q.frames.length + maxFrames) (q.items.length + maxItems)
    (st.queuedItems + 1) ⟨st, { q with wire := st.wire }, []⟩

/-- Encode one item that describes itself. -/
def encodeStandaloneItemFor (wire : Wire) (item : R2StageItem) (limit : Nat) : Option Bytes :=
  match item.kind with
  | .opening wireId sess addr src =>
    wire.encodeDataOpen wireId sess addr src item.payload limit
  | .inline sess addr src => wire.encodeDataInline sess addr src item.payload limit
  | .steady wireId => wire.encodeDataSteady wireId item.payload limit

/-- Flow dictionary of a run, and every item with the index of its flow. A run holds steady items
only, and no more than a train takes. -/
def trainViews : List UInt32 → List R2StageItem → Option (List UInt32 × List (UInt8 × Bytes))
  | flows, [] => some (flows, [])
  | flows, item :: run => do
      let .steady wireId := item.kind | none
      match flows.idxOf? wireId with
      | some idx =>
        let (flows', views) ← trainViews flows run
        some (flows', (UInt8.ofNat idx, item.payload) :: views)
      | none =>
        if flows.length ≥ Rev2.maxTrainItems then none
        else
          let (flows', views) ← trainViews (flows ++ [wireId]) run
          some (flows', (UInt8.ofNat flows.length, item.payload) :: views)

/-- Body of the train of one flow on rev3, the form of equal lengths first. -/
def encodeTrainOneFlow (wire : Wire) (wireId : UInt32) (payloads : List Bytes) (limit : Nat) :
    Option Bytes :=
  if payloads.all fun p => p.length == payloads.headI.length then
    (wire.encodeTrainSameEqual wireId payloads limit).or
      (wire.encodeTrainSame wireId payloads limit)
  else wire.encodeTrainSame wireId payloads limit

def encodeTrainRun (wire : Wire) (run : List R2StageItem) (limit : Nat) : Option Bytes := do
  let (flows, views) ← trainViews [] run
  let dict := wire.encodeTrainDict flows views limit
  match wire, flows with
  | .rev3, [wireId] =>
    (encodeTrainOneFlow .rev3 wireId (run.map fun i => i.payload) limit).or dict
  | _, _ => dict

namespace PackedFrames

variable (q : PackedFrames) (i : Nat) (f : PackedFrame)

def run : List R2StageItem :=
  (q.items.drop f.itemOff).take f.itemLen

/-- Body of one claimed frame. -/
def encodeFrame (limit : Nat) : Option Bytes :=
  match f.shape, q.run f with
  | _, [] => none
  | .standalone, item :: _ => encodeStandaloneItemFor q.wire item limit
  | .steady, [item] => do
      let .steady wireId := item.kind | none
      q.wire.encodeDataSteady wireId item.payload limit
  | .steady, item :: next :: rest => encodeTrainRun q.wire (item :: next :: rest) limit

/-- Take a frame and its items out of the batch; the frames behind it move up. -/
def removeFrame : PackedFrames :=
  { q with
    items := q.items.take f.itemOff ++ q.items.drop (f.itemOff + f.itemLen)
    frames := q.frames.take i ++
      (q.frames.drop (i + 1)).map fun g => { g with itemOff := g.itemOff - f.itemLen } }

/-- Encode the frames from one index on; a frame that does not fit the limit leaves the batch and
its items are given up. Every round leaves one frame less to do. -/
def encodeFrom (limit : Nat) : Nat → Nat → PackedFrames × List R2StageItem →
    PackedFrames × List R2StageItem
  | 0, _, out => out
  | rounds + 1, i, (q, booked) =>
    match q.frames[i]? with
    | none => (q, booked)
    | some f =>
      match q.encodeFrame f limit with
      | some body =>
        encodeFrom limit rounds (i + 1)
          ({ q with frames := q.frames.set i { f with body := some body } }, booked)
      | none => encodeFrom limit rounds i (q.removeFrame i f, booked ++ q.run f)

/-- Encode every claimed frame; the second component is given up as too large. -/
def encodeClaimed (limit : Nat) : PackedFrames × List R2StageItem :=
  encodeFrom limit q.frames.length 0 (q, [])

def unsent (k : Nat) : List R2StageItem :=
  match q.frames[k]? with
  | some first => q.items.drop first.itemOff
  | none => []

end PackedFrames

/-- Put items back at the heads of their queues, the last one first, so that each queue has them
in their order again; the second component found the queue full. -/
def R2Stager.putBack (items : List R2StageItem) (st : R2Stager) : R2Stager × List R2StageItem :=
  items.foldr
    (fun item out =>
      match out.1.pushFront item with
      | some st' => (st', out.2)
      | none => (out.1, item :: out.2))
    (st, [])

/-- Put back the items of every frame behind the refused one. -/
def R2Stager.requeueUnsent (st : R2Stager) (q : PackedFrames) (failedFrame : Nat) :
    R2Stager × List R2StageItem :=
  st.putBack (q.unsent (failedFrame + 1))

/-- Counter of the items of a refused frame. -/
def DatagramSend.bookedAs : DatagramSend → DgramDrop
  | .blocked => .bufferFull
  | .tooLarge => .tooLarge
  | .sent | .unsupported | .connectionLost => .egressDead

end MyQuic2
