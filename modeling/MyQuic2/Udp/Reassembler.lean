import Mathlib.Data.List.Sort
import MyQuic2.Core.Map
import MyQuic2.Udp.Fragmenter

/-!
# The reassembler

Fragments of one payload meet in a partial, found by flow id (or session, for the
inline form) and fragment id. A fragment's place follows from the length of the
first fragment and the common length of the middle ones; a fragment that arrives
before these are known waits. Partials, their octets and the queue that remembers
their age are held under one budget.

The sizes of the program's own records enter the budget as parameters, and a
buffer's capacity is the size it was reserved or resized to.
-/

namespace MyQuic2

/-- Most partials at a time. -/
def fragMaxPartials : Nat := 256

/-- Budget of one connection, in octets. -/
def fragMaxHeldBytes : Nat := 256 * 1024

/-- Age at which a partial is given up, in milliseconds. -/
def fragTimeoutMs : Nat := 2000

/-- Charge for a waiting chunk beside its octets. -/
def pendingChunkCost : Nat := 48

/-- Slack of the age queue. -/
def orderSlotLimit : Nat := 64

/-- Sizes of the program's records in memory. -/
structure Sizes where
  node : Nat
  chunk : Nat
  slot : Nat

/-- What names a partial. -/
structure FragKey where
  /-- The self-describing form, which has no flow id. -/
  inline : Bool
  /-- The flow id, or the session of the inline form. -/
  id : UInt32
  fragId : UInt32
  deriving DecidableEq

/-- The binding context a fragment carries. -/
structure FragCtx where
  sess : UInt32
  addr : TargetAddr
  src : Bool
  deriving DecidableEq

/-- A chunk that cannot be placed yet. -/
structure PendingChunk where
  idx : UInt8
  bytes : Bytes
  deriving DecidableEq

/-- Charge for one more waiting chunk: a slot array that has to grow is charged whole. -/
def pendingCharge (z : Sizes) (pendingLen pendingCap n : Nat) : Nat :=
  let slots :=
    if pendingLen < pendingCap then 0
    else saturatingMul (if pendingCap = 0 then 4 else saturatingMul pendingCap 2) z.chunk
  saturatingAdd (saturatingAdd n pendingChunkCost) slots

/-- A payload whose fragments have not all arrived. -/
structure Partial where
  total : UInt8
  ctx : Option FragCtx
  buf : Bytes
  cap : Nat
  /-- Bit `i` is set when fragment `i` has arrived. -/
  got : BitVec 64
  firstLen : Option Nat
  unit : Option Nat
  pending : List PendingChunk
  /-- Capacity of the slot array of the waiting chunks. -/
  pendingCap : Nat
  bytes : Nat
  retained : Nat
  firstMs : Nat
  deriving DecidableEq

namespace Partial

def new (total : UInt8) (ctx : Option FragCtx) (nowMs : Nat) : Partial where
  total := total
  ctx := ctx
  buf := []
  cap := 0
  got := 0
  firstLen := none
  unit := none
  pending := []
  pendingCap := 0
  bytes := 0
  retained := 0
  firstMs := nowMs

/-- Where chunk `idx` goes, as soon as the lengths it depends on are known. -/
def posOf (firstLen unit : Option Nat) (idx : UInt8) : Option Nat :=
  if idx = 0 then some 0
  else do
    let head ← firstLen
    let steps := idx.toNat - 1
    let width ← if steps = 0 then some 0 else unit
    checkedAdd head (← checkedMul steps width)

/-- Write a chunk into the buffer, unless it would end behind the largest payload. -/
def bufWrite (p : Partial) (pos : Nat) (bytes : Bytes) : Partial :=
  if pos + bytes.length ≤ fragMaxPayload then
    let buf := writeAt p.buf pos bytes
    { p with buf := buf, cap := max p.cap buf.length }
  else p

/-- Remove an entry and put the last one in its place. -/
def swapRemove (l : List PendingChunk) (i : Nat) : List PendingChunk :=
  match l.getLast? with
  | none => []
  | some last => (l.set i last).dropLast

/-- The drain loop from entry `i` on. Every round passes an entry or removes one, so the
number of entries bounds the rounds. -/
def drainLoop : Nat → Nat → Partial → Partial
  | 0, _, p => p
  | left + 1, i, p =>
    match p.pending[i]? with
    | none => p
    | some c =>
      match posOf p.firstLen p.unit c.idx with
      | none => drainLoop left (i + 1) p
      | some pos =>
        if pos + c.bytes.length ≤ fragMaxPayload then
          drainLoop left i ({ p with pending := swapRemove p.pending i }.bufWrite pos c.bytes)
        else drainLoop left (i + 1) p

/-- Place every waiting chunk whose place is known now. -/
def drainPending (p : Partial) : Partial := drainLoop p.pending.length 0 p

/-- Let a chunk wait. -/
def pushPending (p : Partial) (c : PendingChunk) : Partial :=
  { p with
    pending := p.pending ++ [c]
    pendingCap :=
      if p.pending.length < p.pendingCap then p.pendingCap
      else if p.pendingCap = 0 then 4 else p.pendingCap * 2 }

/-- Derive the charge again. -/
def recomputeRetained (z : Sizes) (p : Partial) : Partial :=
  { p with
    retained := p.cap + ((p.pending.map fun c => c.bytes.length + pendingChunkCost).sum +
      p.pendingCap * z.chunk) + z.node }

/-- Neither the first nor the last fragment. -/
def isMiddle (f : Wire.FragView) : Bool := 1 ≤ f.idx && f.idx != f.total - 1

section

variable (z : Sizes) (p : Partial) (f : Wire.FragView)

/-- What the first chunk to be placed reserves. -/
def reserveFor : Nat := min (f.total.toNat * f.chunk.length) fragMaxPayload

/-- Two contexts that are both known are the same. -/
def ctxAgrees : Option FragCtx → Option FragCtx → Bool
  | some old, some new => old = new
  | _, _ => true

/-- The checks a fragment passes before it joins a live partial, the budget apart. -/
def accepts (incoming : Option FragCtx) : Bool :=
  p.total = f.total &&
    ctxAgrees p.ctx incoming &&
    p.got &&& BitVec.twoPow 64 f.idx.toNat = 0 &&
    !(isMiddle f && p.unit.any fun w => w ≠ f.chunk.length) &&
    saturatingAdd p.bytes f.chunk.length ≤ fragMaxPayload

/-- What a fragment of a live partial is charged before it is admitted. -/
def charge : Nat :=
  if (posOf p.firstLen p.unit f.idx).isSome then
    max f.chunk.length (if p.cap = 0 then reserveFor f else 0)
  else pendingCharge z p.pending.length p.pendingCap f.chunk.length

/-- Length of the first chunk with this fragment counted in. -/
def firstAfter : Option Nat :=
  if f.idx = 0 then some f.chunk.length else p.firstLen

/-- Length of the middle chunks with this fragment counted in. -/
def unitAfter : Option Nat :=
  if isMiddle f && p.unit.isNone then some f.chunk.length else p.unit

/-- Where this fragment goes, as far as it is known with the fragment itself counted in. -/
def place : Option Nat :=
  posOf (p.firstAfter f) (p.unitAfter f) f.idx

/-- Count an admitted fragment in. -/
def note : Partial :=
  { p with
    bytes := p.bytes + f.chunk.length
    firstLen := p.firstAfter f
    unit := p.unitAfter f
    got := p.got ||| BitVec.twoPow 64 f.idx.toNat }

/-- Put a counted fragment's chunk into the buffer or let it wait. -/
def store (pos : Option Nat) : Partial :=
  match pos with
  | some pos =>
    ({ p with cap := if p.cap = 0 then reserveFor f else p.cap }).bufWrite pos f.chunk
  | none => p.pushPending ⟨f.idx, f.chunk⟩

/-- Take an admitted fragment in: count it, store its chunk, and place the chunks that waited
for a length it brought. -/
def absorb : Partial :=
  let stored := (p.note f).store f (p.place f)
  let drained :=
    if stored.firstLen ≠ p.firstLen ∨ stored.unit ≠ p.unit then stored.drainPending else stored
  drained.recomputeRetained z

end

/-- All of the first `total` bits. -/
def want (total : UInt8) : BitVec 64 :=
  if total.toNat < 64 then BitVec.twoPow 64 total.toNat - 1 else BitVec.allOnes 64

end Partial
/-- A reassembled payload. -/
structure Assembled where
  /-- Absent on the inline form. -/
  wireId : Option UInt32
  /-- Session and address are there when a fragment carried them. -/
  sess : Option UInt32
  addr : Option TargetAddr
  src : Bool
  payload : Bytes
  deriving DecidableEq

/-- Reassembly state of one connection. -/
structure Reassembler where
  parts : Map FragKey Partial
  /-- Keys in the order their partials were opened; a slot outlives its partial. -/
  order : List (FragKey × Nat)
  held : Nat
  orderBytes : Nat

namespace Reassembler

def new : Reassembler := ⟨∅, [], 0, 0⟩

section

variable (z : Sizes) (r : Reassembler)

def heldBytes : Nat := r.held + r.orderBytes

/-- Drop a partial and its charge. -/
def discard (key : FragKey) (p : Partial) : Reassembler :=
  { r with parts := r.parts.erase key, held := r.held - p.retained }

/-- Drop the oldest slot of the queue. -/
def popSlot : Reassembler :=
  { r with order := r.order.tail, orderBytes := r.orderBytes - z.slot }

/-- Evict the partial of the first live slot among the given ones; without one, any. -/
def evictFrom (z : Sizes) : List (FragKey × Nat) → Reassembler → Reassembler × Bool
  | [], r =>
    match r.parts.entries with
    | [] => (r, false)
    | ⟨key, p⟩ :: _ => (r.discard key p, true)
  | (key, firstMs) :: rest, r =>
    let r := r.popSlot z
    match r.parts.lookup key with
    | some p => if p.firstMs = firstMs then (r.discard key p, true) else evictFrom z rest r
    | none => evictFrom z rest r

/-- Evict the oldest live partial; `false` when none is left. -/
def evictOldest : Reassembler × Bool := evictFrom z r.order r

/-- There is room for a new partial of the given charge. -/
def hasRoom (est : Nat) : Bool :=
  r.parts.size < fragMaxPartials && saturatingAdd r.heldBytes est ≤ fragMaxHeldBytes

/-- Evict until there is room. Every round but the last evicts one partial. -/
def makeRoomLoop (z : Sizes) (est : Nat) : Nat → Reassembler → Reassembler × Bool
  | 0, r => (r, false)
  | left + 1, r =>
    if r.hasRoom est then (r, true)
    else
      match r.evictOldest z with
      | (r, true) => makeRoomLoop z est left r
      | (r, false) => (r, false)

def makeRoom (est : Nat) (r : Reassembler) : Reassembler × Bool :=
  makeRoomLoop z est (r.parts.size + 1) r

/-- Oldest first, with the key as a tie-break. -/
def slotLe (a b : FragKey × Nat) : Bool :=
  if a.2 ≠ b.2 then a.2 < b.2
  else if a.1.inline ≠ b.1.inline then !a.1.inline
  else if a.1.id ≠ b.1.id then a.1.id < b.1.id
  else a.1.fragId ≤ b.1.fragId

/-- Rebuild the queue from the live partials once stale slots outgrow them. -/
def pruneOrders : Reassembler :=
  if r.order.length ≤ saturatingAdd (saturatingMul r.parts.size 2) orderSlotLimit then r
  else
    let live := r.parts.entries.map fun e => (e.1, e.2.firstMs)
    let order := live.insertionSort fun a b => slotLe a b
    { r with order := order, orderBytes := saturatingMul order.length z.slot }

variable (d : Bytes) (f : Wire.FragView)

/-- The key of a fragment. -/
def keyOf : Option FragKey :=
  match f.wireId, f.sess with
  | some id, _ => if id ≠ 0 then some ⟨false, id, f.fragId⟩ else none
  | none, some sess => some ⟨true, sess, f.fragId⟩
  | none, none => none

/-- The context of a fragment; session and address come together or not at all. -/
def contextOf : Option (Option FragCtx) :=
  match f.sess, f.addr with
  | some sess, some addr => some (some ⟨sess, addr, f.src⟩)
  | none, none => some none
  | _, _ => none

/-- The shape checks, and the key and context of a fragment that passes them. -/
def identify : Option (FragKey × Option FragCtx) :=
  if f.total < 1 ∨ f.total.toNat > fragMaxTotal ∨ f.total ≤ f.idx ∨ f.chunk = [] then none
  else if f.chunk.length > fragMaxPayload then none
  else if checkedAdd f.chunkOff f.chunk.length ≠ some d.length then none
  else do
    let key ← keyOf f
    let incoming ← contextOf f
    if key.inline && incoming.isNone then none else some (key, incoming)

/-- Footprint of the partial a fragment opens. -/
def estimate : Nat :=
  (if f.idx = 0 then Partial.reserveFor f else pendingCharge z 0 0 f.chunk.length) + z.node + z.slot

section

variable (key : FragKey) (p : Partial) (isNew : Bool) (f : Wire.FragView)
  (incoming : Option FragCtx) (nowMs : Nat)

/-- The payload a complete partial yields. -/
def assembled : Assembled where
  wireId := if key.inline then none else some key.id
  sess := p.ctx.map FragCtx.sess
  addr := p.ctx.map FragCtx.addr
  src := (p.ctx.map FragCtx.src).getD f.src
  payload := p.buf

/-- Queue the slot of a partial that was just opened. -/
def queueSlot : Reassembler :=
  { r with order := r.order ++ [(key, nowMs)], orderBytes := saturatingAdd r.orderBytes z.slot }

/-- Replace a partial and its charge. -/
def update (old p : Partial) : Reassembler :=
  { r with
    parts := r.parts.insert key p
    held := saturatingAdd (r.held - old.retained) p.retained }

/-- Take a fragment into its partial. A place behind the largest payload is refused, with the
context already taken over. -/
def land : Option Assembled × Reassembler :=
  let p := { p with ctx := p.ctx <|> incoming }
  if (p.place f).any fun pos => saturatingAdd pos f.chunk.length > fragMaxPayload then
    if p.got = 0 then (none, { r with parts := r.parts.erase key })
    else (none, { r with parts := r.parts.insert key p })
  else
    let q := p.absorb z f
    let r := r.update key p q
    let r := if isNew then r.queueSlot z key nowMs else r
    let r := r.pruneOrders z
    if q.got = Partial.want f.total then (some (assembled key q f), r.discard key q) else (none, r)

end

/-- Push a fragment that was decoded from the buffer `d`. -/
def pushFrame (nowMs : Nat) : Option Assembled × Reassembler :=
  match identify d f with
  | none => (none, r)
  | some (key, incoming) =>
    if f.total = 1 then
      (some ⟨f.wireId, incoming.map FragCtx.sess, incoming.map FragCtx.addr, f.src,
        d.drop f.chunkOff⟩, r)
    else
      match r.parts.lookup key with
      | some p =>
        if p.accepts f incoming &&
            saturatingAdd r.heldBytes (p.charge z f) ≤ fragMaxHeldBytes then
          r.land z key p false f incoming nowMs
        else (none, r)
      | none =>
        match r.makeRoom z (estimate z f) with
        | (r, true) => r.land z key (Partial.new f.total incoming nowMs) true f incoming nowMs
        | (r, false) => (none, r)

end

/-- The ways a push goes. -/
inductive Pushed (z : Sizes) (r : Reassembler) (d : Bytes) (f : Wire.FragView) (nowMs : Nat) :
    Option Assembled × Reassembler → Prop where
  | malformed (hid : identify d f = none) : Pushed z r d f nowMs (none, r)
  | whole {key incoming} (a : Assembled) (hid : identify d f = some (key, incoming))
      (hone : f.total = 1) : Pushed z r d f nowMs (some a, r)
  | refused {key incoming p} (hid : identify d f = some (key, incoming)) (hmany : f.total ≠ 1)
      (hget : r.parts.lookup key = some p)
      (hno : ¬(p.accepts f incoming = true ∧
        saturatingAdd r.heldBytes (p.charge z f) ≤ fragMaxHeldBytes)) :
      Pushed z r d f nowMs (none, r)
  | joined {key incoming p} (hid : identify d f = some (key, incoming)) (hmany : f.total ≠ 1)
      (hget : r.parts.lookup key = some p) (haccepts : p.accepts f incoming = true)
      (hbudget : saturatingAdd r.heldBytes (p.charge z f) ≤ fragMaxHeldBytes) :
      Pushed z r d f nowMs (r.land z key p false f incoming nowMs)
  | crowded {key incoming r'} (hid : identify d f = some (key, incoming)) (hmany : f.total ≠ 1)
      (hget : r.parts.lookup key = none) (hroom : r.makeRoom z (estimate z f) = (r', false)) :
      Pushed z r d f nowMs (none, r')
  | opened {key incoming r'} (hid : identify d f = some (key, incoming)) (hmany : f.total ≠ 1)
      (hget : r.parts.lookup key = none) (hroom : r.makeRoom z (estimate z f) = (r', true)) :
      Pushed z r d f nowMs
        (r'.land z key (Partial.new f.total incoming nowMs) true f incoming nowMs)

variable (z : Sizes) (r : Reassembler) (d : Bytes) (f : Wire.FragView) (nowMs : Nat)

lemma pushed_pushFrame : Pushed z r d f nowMs (r.pushFrame z d f nowMs) := by
  cases hid : identify d f with
  | none =>
    simp only [pushFrame, hid]
    exact .malformed hid
  | some found =>
    obtain ⟨key, incoming⟩ := found
    by_cases hone : f.total = 1
    · simp only [pushFrame, hid, hone, if_true]
      exact .whole _ hid hone
    cases hget : r.parts.lookup key with
    | some p =>
      by_cases hok : (p.accepts f incoming &&
          decide (saturatingAdd r.heldBytes (p.charge z f) ≤ fragMaxHeldBytes)) = true
      · simp only [pushFrame, hid, if_neg hone, hget, if_pos hok]
        rw [Bool.and_eq_true, decide_eq_true_eq] at hok
        exact .joined hid hone hget hok.1 hok.2
      simp only [pushFrame, hid, if_neg hone, hget, if_neg hok]
      rw [Bool.and_eq_true, decide_eq_true_eq] at hok
      exact .refused hid hone hget hok
    | none =>
      rcases hroom : r.makeRoom z (estimate z f) with ⟨r', _ | _⟩
      · simp only [pushFrame, hid, if_neg hone, hget, hroom]
        exact .crowded hid hone hget hroom
      · simp only [pushFrame, hid, if_neg hone, hget, hroom]
        exact .opened hid hone hget hroom

/-- Drop every partial that belongs to a session. -/
def dropSession (session : UInt32) : Reassembler :=
  let isOf : FragKey → Partial → Bool := fun key p =>
    (p.ctx.any fun c => c.sess = session) || (key.inline && key.id = session)
  { r with
    parts := r.parts.retain fun key p => !isOf key p
    held := r.held -
      ((r.parts.entries.filter fun e => isOf e.1 e.2).map fun e => e.2.retained).sum }

/-- Drop every partial of a flow; the inline ones have none. -/
def dropFlow (wireId : UInt32) : Reassembler :=
  if wireId = 0 then r
  else
    let isOf : FragKey → Bool := fun key => !key.inline && key.id = wireId
    { r with
      parts := r.parts.retain fun key _ => !isOf key
      held := r.held - ((r.parts.entries.filter fun e => isOf e.1).map fun e => e.2.retained).sum }

/-- Sweep the queue from its front up to the first partial that is young enough. -/
def expireFrom (z : Sizes) (nowMs : Nat) : List (FragKey × Nat) → Reassembler → Reassembler
  | [], r => r
  | (key, firstMs) :: rest, r =>
    match r.parts.lookup key with
    | some p =>
      if p.firstMs = firstMs then
        if nowMs - firstMs < fragTimeoutMs then r
        else expireFrom z nowMs rest ((r.popSlot z).discard key p)
      else expireFrom z nowMs rest (r.popSlot z)
    | none => expireFrom z nowMs rest (r.popSlot z)

/-- Drop the partials that are too old. -/
def expire : Reassembler :=
  (expireFrom z nowMs r.order r).pruneOrders z

/-- A partial with the context of a fragment, if it had none. -/
abbrev named (p : Partial) (incoming : Option FragCtx) : Partial :=
  { p with ctx := p.ctx <|> incoming }

end Reassembler

end MyQuic2
