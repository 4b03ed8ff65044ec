import MyQuic2.Client.Uplink
import MyQuic2.Udp.StageDrain

/-!
# Payloads held for a connection

While there is no connection to send on, an association holds a few payloads, each
for half a second. When there is one again they go through the usual path: small ones
into the association's burst, which is pushed to the stager of the connection when it
is full, large ones out at once behind a drain of the stager. A payload for which the
connection turns out to be gone goes back to the front of the hold.

Payloads are numbered as they come in. Every connection, by its generation, has a
stager of its own, where other tasks go on. A payload that comes in is sent behind what
is held if the flush before it emptied the hold; the two look for a connection separately.
-/

namespace MyQuic2

/-- Payloads that are held. -/
def pendingMaxItems : Nat := 64

/-- Bytes that are held. -/
def pendingMaxBytes : Nat := 64 * 1024

/-- Milliseconds for which a payload is held. -/
def pendingTtlMs : Nat := 500

namespace PayloadSend

/-- The connection is gone. -/
def lost (out : PayloadSend) : Bool := out.failed.any DatagramSend.dead

def rank (out : PayloadSend) : Nat :=
  match out.failed with
  | none | some .sent => 0
  | some .blocked | some .tooLarge => 1
  | some .unsupported => 2
  | some .connectionLost => 3

/-- The more severe of two verdicts. -/
def preferSevere (first second : PayloadSend) : PayloadSend :=
  if first.rank < second.rank then second else first

end PayloadSend

/-- A payload that waits for a connection. -/
structure HeldPayload where
  number : Nat
  target : TargetAddr
  payload : Bytes
  enqueuedMs : Nat

structure UplinkPending where
  items : List HeldPayload
  bytes : Nat

namespace UplinkPending

variable (q : UplinkPending) (p : HeldPayload)

/-- Hold one payload more, within both bounds. -/
def tryPush : Option UplinkPending :=
  if pendingMaxItems ≤ q.items.length ∨ pendingMaxBytes < q.bytes + p.payload.length then none
  else some ⟨q.items ++ [p], q.bytes + p.payload.length⟩

/-- Without the first payload. -/
def popFront : UplinkPending :=
  match q.items with
  | [] => q
  | p :: items => ⟨items, q.bytes - p.payload.length⟩

def pushFront : UplinkPending :=
  ⟨p :: q.items, q.bytes + p.payload.length⟩

/-- The payloads that were held for too long; they are at the front. -/
def expired (nowMs : Nat) : List HeldPayload → List HeldPayload :=
  List.takeWhile fun p => decide (pendingTtlMs ≤ nowMs - p.enqueuedMs)

def expire (nowMs : Nat) : UplinkPending :=
  ⟨q.items.drop (expired nowMs q.items).length,
    q.bytes - ((expired nowMs q.items).map fun p => p.payload.length).sum⟩

end UplinkPending

/-- One association with the stagers of the connections it has sent on, and a record of where its
payloads went. -/
structure UplinkHold where
  sess : UInt32
  stages : Nat → StageTasks
  epoch : Nat
  stageBatch : List (Nat × StagePayload)
  pending : UplinkPending
  frag : Fragmenter
  made : Nat
  /-- Payloads that a stager has taken, with the generation and the number of the item there. -/
  entered : List (Nat × Nat × Nat)
  sent : List Nat
  given : List Nat

/-- What the surroundings decide while one payload is sent. -/
structure SendTurn where
  closed : Bool
  /-- The form that the flow table gives the payload. -/
  kind : R2StageKind
  admitted : Bool
  limit : Nat
  /-- The drain for a burst that found the stager full. -/
  retry : DrainCall
  /-- The drain of a stager with a train's worth of items. -/
  train : DrainCall
  /-- The drain before a frame of the payload's own. -/
  before : DrainCall
  verdict : DatagramSend
  space : Nat
  /-- Its answers to the fragments; what is not listed is sent. -/
  fragVerdicts : List DatagramSend

namespace UplinkHold

def new (sess : UInt32) (maxItems maxBytes : Nat) (wire : Nat → Wire) : UplinkHold where
  sess := sess
  stages := fun g => .new maxItems maxBytes (wire g)
  epoch := 0
  stageBatch := []
  pending := ⟨[], 0⟩
  frag := ⟨0, false, wire 0⟩
  made := 0
  entered := []
  sent := []
  given := []

def giveUp (s : UplinkHold) (numbers : List Nat) : UplinkHold :=
  { s with given := s.given ++ numbers }

def dropStageBatch (s : UplinkHold) : UplinkHold :=
  { s.giveUp (s.stageBatch.map Prod.fst) with stageBatch := [] }

variable (s : UplinkHold) (g limit : Nat) (call : DrainCall)

/-- Catch up with the connection: a burst for another generation or for a closed session goes. -/
def sync (closed : Bool) : UplinkHold :=
  if s.epoch ≠ g then { s.dropStageBatch with epoch := g }
  else if closed then s.dropStageBatch
  else s

/-- The numbers that the stager gives to payloads it takes. -/
def entries (g first : Nat) : List Nat → List (Nat × Nat × Nat)
  | [] => []
  | number :: numbers => (number, g, first) :: entries g (first + 1) numbers

/-- Push the burst to the stager, as far as it has room. -/
def pushStageBatch : UplinkHold :=
  let t := s.stages g
  let t' := t.pushBatch (s.stageBatch.map Prod.snd)
  let taken := t'.accepted.length - t.accepted.length
  { s with
    stages := Function.update s.stages g t'
    stageBatch := s.stageBatch.drop taken
    entered := s.entered ++ entries g t.accepted.length ((s.stageBatch.take taken).map Prod.fst) }

def drainConnStage : PayloadSend × UplinkHold :=
  let out := (s.stages g).drainStaged limit call
  (out.1, { s with stages := Function.update s.stages g out.2 })

/-- The burst is in the stager; a train's worth of items is drained. -/
def burstQueued (drained : PayloadSend) (train : DrainCall) : PayloadSend × UplinkHold :=
  if Rev2.maxTrainItems ≤ (s.stages g).stager.queuedItems then
    let out := s.drainConnStage g limit train
    let drained := drained.preferSevere out.1
    (⟨if drained.failed.isNone then max drained.frames 1 else drained.frames, drained.failed⟩,
      out.2)
  else (⟨if drained.failed.isNone then max drained.frames 1 else drained.frames, drained.failed⟩, s)

/-- Push the burst to the stager, with one drain if that is full. What finds no room after it is
given up. -/
def flushStage (retry train : DrainCall) : PayloadSend × UplinkHold :=
  if s.stageBatch.isEmpty then (⟨0, none⟩, s)
  else if s.epoch ≠ g then (⟨0, none⟩, s.dropStageBatch)
  else
    let first := s.pushStageBatch g
    if first.stageBatch.isEmpty then first.burstQueued g limit ⟨0, none⟩ train
    else
      let out := first.drainConnStage g limit retry
      let drained := PayloadSend.preferSevere ⟨0, none⟩ out.1
      let second := out.2.pushStageBatch g
      if second.stageBatch.isEmpty then second.burstQueued g limit drained train
      else (⟨drained.frames, drained.failed <|> some .blocked⟩, second.dropStageBatch)

/-- Put one small payload into the burst; a burst of a train's worth is pushed. -/
def stageOrCount (number : Nat) (item : StagePayload) (e : SendTurn) : PayloadSend × UplinkHold :=
  if !e.admitted then (⟨0, none⟩, s.giveUp [number])
  else
    let s := { s with stageBatch := s.stageBatch ++ [(number, item)] }
    if Rev2.maxTrainItems ≤ s.stageBatch.length then s.flushStage g e.limit e.retry e.train
    else (⟨1, none⟩, s)

/-- Send a payload as one frame or in fragments. -/
def sendStandalone (payload : Bytes) (e : SendTurn) : PayloadSend × Fragmenter :=
  let wire := (s.stages g).stager.wire
  let frag := { s.frag with wire := wire }
  match encodeStandaloneItemFor wire ⟨s.sess, e.kind, payload, 0⟩ e.limit, e.verdict with
  | some _, .sent => (⟨1, none⟩, frag)
  | some _, .unsupported => (⟨0, some .unsupported⟩, frag)
  | some _, .connectionLost => (⟨0, some .connectionLost⟩, frag)
  | _, _ =>
    (frag.send e.space (fun i => e.fragVerdicts.getD i .sent) e.limit e.kind.flow payload).2

section

variable (number : Nat) (target : TargetAddr) (payload : Bytes) (e : SendTurn)

/-- Note what became of a payload that was sent past the stager. One that meets a connection that is
gone is left to the caller. -/
def settle (out : PayloadSend) : UplinkHold :=
  if out.failed.isNone then { s with sent := s.sent ++ [number] }
  else if out.lost then s
  else s.giveUp [number]

/-- Send a payload past the stager, behind what waits there. -/
def sendLarge : PayloadSend × UplinkHold :=
  if e.admitted then
    let out := s.sendStandalone g payload e
    (out.1, { s with frag := out.2 }.settle number out.1)
  else (⟨0, none⟩, s.giveUp [number])

/-- The burst and then the stager are sent ahead of a payload. -/
def sendAhead : PayloadSend × UplinkHold :=
  let flushed := s.flushStage g e.limit e.retry e.train
  let drained := flushed.2.drainConnStage g e.limit e.before
  (flushed.1.preferSevere drained.1, drained.2)

def sendUplink : PayloadSend × UplinkHold :=
  let s := s.sync g e.closed
  match target.header with
  | .error _ =>
    let ahead := s.sendAhead g e
    (ahead.1.preferSevere ⟨0, some .tooLarge⟩, ahead.2.giveUp [number])
  | .ok _ =>
    if payload.length ≤ batchSmallMax then s.stageOrCount g number ⟨s.sess, e.kind, payload⟩ e
    else
      let ahead := s.sendAhead g e
      let out := ahead.2.sendLarge g number payload e
      (ahead.1.preferSevere out.1, out.2)

/-- Take the first payload out of the hold. -/
def popPending : UplinkHold := { s with pending := s.pending.popFront }

def putBack (p : HeldPayload) : UplinkHold :=
  { s with pending := s.pending.pushFront p }

section

variable (nowMs : Nat) (handle : Option Nat) (turn : Nat → SendTurn)

/-- Send the held payloads on one connection, up to the first for which it is gone. -/
def flushItems (g : Nat) (turn : Nat → SendTurn) : List HeldPayload → Nat → PayloadSend →
    UplinkHold → PayloadSend × UplinkHold
  | [], _, aggregate, s => (aggregate, s)
  | p :: items, i, aggregate, s =>
    let out := s.popPending.sendUplink g p.number p.target p.payload (turn i)
    let aggregate : PayloadSend :=
      ⟨min (aggregate.frames + out.1.frames) 255, (aggregate.preferSevere out.1).failed⟩
    if out.1.lost then (aggregate, out.2.putBack p)
    else flushItems g turn items (i + 1) aggregate out.2

def flushPendingOn : PayloadSend × UplinkHold :=
  flushItems g turn s.pending.items 0 ⟨0, none⟩ s

/-- Give up the payloads that were held for too long. -/
def expirePending : UplinkHold :=
  { s.giveUp ((UplinkPending.expired nowMs s.pending.items).map HeldPayload.number) with
    pending := s.pending.expire nowMs }

/-- Send what is held, if there is a connection; `handle` is its generation. -/
def flushPendingUplink : UplinkHold :=
  let s := s.expirePending nowMs
  if s.pending.items.isEmpty then s
  else
    match handle with
    | none => s
    | some g => (s.flushPendingOn g turn).2

/-- A payload comes in. Without a connection it is held, or given up when the hold is full. -/
def sendPayloadUplink (e : SendTurn) : UplinkHold :=
  let number := s.made
  let s := { s with made := s.made + 1 }
  match handle with
  | some g =>
    let out := s.sendUplink g number target payload e
    if out.1.lost then out.2.giveUp [number] else out.2
  | none =>
    match s.pending.tryPush ⟨number, target, payload, nowMs⟩ with
    | some pending => { s with pending := pending }
    | none => s.giveUp [number]

end

/-- The end of a burst of the application. -/
def drainAssocStage : UplinkHold :=
  (s.sendAhead g e).2

end

/-- The association ends. -/
def clearPending : UplinkHold :=
  { s.giveUp (s.pending.items.map HeldPayload.number) with pending := ⟨[], 0⟩ }

end UplinkHold

/-- What can happen to an association. -/
inductive HoldEvent where
  | stage (g : Nat) (ev : StageEvent)
  | payload (target : TargetAddr) (payload : Bytes) (nowMs : Nat) (handle : Option Nat)
      (e : SendTurn)
  | flush (nowMs : Nat) (handle : Option Nat) (turn : Nat → SendTurn)
  | burstEnd (g : Nat) (e : SendTurn)
  | exit

namespace UplinkHold

section

variable (s : UplinkHold) (number : Nat)

def next (s : UplinkHold) : HoldEvent → UplinkHold
  | .stage g ev => { s with stages := Function.update s.stages g ((s.stages g).next ev) }
  | .payload target payload nowMs handle e => s.sendPayloadUplink target payload nowMs handle e
  | .flush nowMs handle turn => s.flushPendingUplink nowMs handle turn
  | .burstEnd g e => s.drainAssocStage g e
  | .exit => s.clearPending

def held : Nat :=
  (s.pending.items.map HeldPayload.number).count number

def batched : Nat := (s.stageBatch.map Prod.fst).count number

/-- Times a stager has taken the payload, whether or not its item was sent since. -/
def staged : Nat := (s.entered.map Prod.fst).count number

/-- Times the payload was handed over. -/
def handed : Nat :=
  s.batched number + s.staged number + s.sent.count number

/-- A payload is held and nowhere else, or it is not held and was handed over once or given up. -/
def Placed : Prop :=
  (s.held number = 1 ∧ s.handed number = 0) ∨
    (s.held number = 0 ∧ (s.handed number = 1 ∨ (s.handed number = 0 ∧ number ∈ s.given)))

end

instance (s : UplinkHold) (number : Nat) : Decidable (s.Placed number) :=
  inferInstanceAs (Decidable ((_ ∧ _) ∨ (_ ∧ (_ ∨ (_ ∧ _)))))

end UplinkHold

/-- No drain that is made for the payload finds the connection gone. -/
def SendTurn.Alive (e : SendTurn) : Prop := e.retry.Alive ∧ e.train.Alive ∧ e.before.Alive

instance (e : SendTurn) : Decidable e.Alive := inferInstanceAs (Decidable (_ ∧ _ ∧ _))

namespace UplinkHold

/-- No drain that is made for a held payload finds the connection gone, or the payload stays behind:
it cannot be addressed, it is small and the burst is not full with it, or it is large and the
connection is gone for its own frames too. -/
def Clean (s : UplinkHold) (g : Nat) (p : HeldPayload) (e : SendTurn) : Prop :=
  e.Alive ∨ p.target.header.isOk = false ∨
    (p.payload.length ≤ batchSmallMax ∧
      (s.sync g e.closed).stageBatch.length + 1 < Rev2.maxTrainItems) ∨
    (batchSmallMax < p.payload.length ∧ e.verdict.dead = true ∧
      (e.fragVerdicts.getD 0 .sent).dead = true)

instance (s : UplinkHold) (g : Nat) (p : HeldPayload) (e : SendTurn) : Decidable (s.Clean g p e) :=
  inferInstanceAs (Decidable (_ ∨ _ ∨ (_ ∧ _) ∨ (_ ∧ _ ∧ _)))

/-- The same for every payload that a flush comes to. -/
def CleanItems (g : Nat) (turn : Nat → SendTurn) : List HeldPayload → Nat → UplinkHold → Prop
  | [], _, _ => True
  | p :: items, i, s =>
    let out := s.popPending.sendUplink g p.number p.target p.payload (turn i)
    s.popPending.Clean g p (turn i) ∧ (out.1.lost = false → CleanItems g turn items (i + 1) out.2)

instance decidableCleanItems (g : Nat) (turn : Nat → SendTurn) :
    ∀ items i s, Decidable (CleanItems g turn items i s)
  | [], _, _ => inferInstanceAs (Decidable True)
  | p :: items, i, s =>
    have := decidableCleanItems g turn items (i + 1)
      (s.popPending.sendUplink g p.number p.target p.payload (turn i)).2
    inferInstanceAs (Decidable (_ ∧ ((s.popPending.sendUplink g p.number p.target p.payload
      (turn i)).1.lost = false → CleanItems g turn items (i + 1) _)))

def CleanFlush (s : UplinkHold) : HoldEvent → Prop
  | .flush nowMs (some g) turn =>
    CleanItems g turn (s.expirePending nowMs).pending.items 0 (s.expirePending nowMs)
  | _ => True

instance (s : UplinkHold) (ev : HoldEvent) : Decidable (s.CleanFlush ev) :=
  match ev with
  | .flush _ (some _) _ => decidableCleanItems ..
  | .flush _ none _ | .stage _ _ | .payload _ _ _ _ _ | .burstEnd _ _
  | .exit => inferInstanceAs (Decidable True)

end UplinkHold

open List UplinkPending HeldPayload

/-- The hold with a record of what came in and what left. -/
structure PendingQueue where
  queue : UplinkPending
  arrived : List HeldPayload
  left : List HeldPayload
  clock : Nat

/-- The calls on the queue of held payloads. -/
inductive PendingOp where
  | tryPush (number : Nat) (target : TargetAddr) (payload : Bytes)
  | expire
  | popFront
  /-- The first payload is taken out and, as it could not be sent, put back. -/
  | putBack
  | clear

def heldBytes (items : List HeldPayload) : Nat := (items.map fun p => p.payload.length).sum

namespace PendingQueue

def empty : PendingQueue := ⟨⟨[], 0⟩, [], [], 0⟩

def next (s : PendingQueue) : Nat × PendingOp → PendingQueue
  | (nowMs, .tryPush number target payload) =>
    let p : HeldPayload := ⟨number, target, payload, nowMs⟩
    match s.queue.tryPush p with
    | some queue => { s with queue := queue, arrived := s.arrived ++ [p], clock := nowMs }
    | none => { s with clock := nowMs }
  | (nowMs, .expire) =>
    ⟨s.queue.expire nowMs, s.arrived, s.left ++ expired nowMs s.queue.items, nowMs⟩
  | (nowMs, .popFront) =>
    ⟨s.queue.popFront, s.arrived, s.left ++ s.queue.items.take 1, nowMs⟩
  | (nowMs, .putBack) =>
    match s.queue.items with
    | [] => { s with clock := nowMs }
    | p :: _ => { s with queue := s.queue.popFront.pushFront p, clock := nowMs }
  | (nowMs, .clear) => ⟨⟨[], 0⟩, s.arrived, s.left ++ s.queue.items, nowMs⟩

variable {s : PendingQueue}

lemma items_eq_expired (nowMs : Nat) (items : List HeldPayload) :
    items = expired nowMs items ++ items.drop (expired nowMs items).length := by
  conv_lhs => rw [← take_append_drop (expired nowMs items).length items]
  rw [← prefix_iff_eq_take.mp (show expired nowMs items <+: items from
    takeWhile_prefix _)]

/-- What came in has left or is held, in this order. -/
def Ordered (s : PendingQueue) : Prop := s.arrived = s.left ++ s.queue.items

lemma Ordered.next (h : s.Ordered) (op : Nat × PendingOp) : (s.next op).Ordered := by
  obtain ⟨nowMs, op⟩ := op
  unfold Ordered at h ⊢
  cases op with
  | tryPush number target payload =>
    simp only [PendingQueue.next, tryPush]
    by_cases hfull : pendingMaxItems ≤ s.queue.items.length ∨
        pendingMaxBytes < s.queue.bytes + payload.length
    · simpa [hfull] using h
    · simp [hfull, h]
  | expire =>
    simp only [PendingQueue.next]
    rw [append_assoc]
    exact h.trans (congrArg _ (items_eq_expired nowMs _))
  | popFront => cases hq : s.queue.items <;> simp_all [PendingQueue.next, popFront]
  | putBack =>
    cases hq : s.queue.items <;>
      simp_all [PendingQueue.next, popFront, pushFront]
  | clear => simpa [PendingQueue.next] using h

structure Exact (s : PendingQueue) : Prop where
  items : s.queue.items.length ≤ pendingMaxItems
  bytes : s.queue.bytes = heldBytes s.queue.items
  room : s.queue.bytes ≤ pendingMaxBytes
  aged : s.queue.items.Pairwise fun p p' => p.enqueuedMs ≤ p'.enqueuedMs
  past : ∀ p ∈ s.queue.items, p.enqueuedMs ≤ s.clock

lemma Exact.leave (h : s.Exact) {gone items left : List HeldPayload} {nowMs : Nat}
    (hitems : s.queue.items = gone ++ items) (hclock : s.clock ≤ nowMs) :
    Exact ⟨⟨items, s.queue.bytes - heldBytes gone⟩, s.arrived, left, nowMs⟩ := by
  obtain ⟨hmax, hbytes, hroom, haged, hpast⟩ := h
  rw [hitems] at hmax hbytes haged hpast
  rw [length_append] at hmax
  have hsum : heldBytes (gone ++ items) = heldBytes gone + heldBytes items := by simp [heldBytes]
  refine ⟨(Nat.le_add_left ..).trans hmax, ?_, (Nat.sub_le ..).trans hroom,
    (pairwise_append.mp haged).2.1, fun p hp => (hpast p (mem_append_right _ hp)).trans hclock⟩
  simp only
  omega

lemma Exact.next (h : s.Exact) {op : Nat × PendingOp} (hclock : s.clock ≤ op.1) :
    (s.next op).Exact := by
  obtain ⟨nowMs, op⟩ := op
  have hlater : Exact { s with clock := nowMs } :=
    { h with past := fun p hp => (h.past p hp).trans hclock }
  cases op with
  | tryPush number target payload =>
    simp only [PendingQueue.next, tryPush]
    by_cases hfull : pendingMaxItems ≤ s.queue.items.length ∨
        pendingMaxBytes < s.queue.bytes + payload.length
    · simpa [hfull] using hlater
    simp only [hfull, if_false]
    refine ⟨by simp; omega, by simp [heldBytes, h.bytes], by simp only; omega, ?_, ?_⟩
    · refine pairwise_append.mpr ⟨h.aged, pairwise_singleton .., fun p hp p' hp' => ?_⟩
      rw [mem_singleton.mp hp']
      exact hlater.past p hp
    · intro p hp
      rcases mem_append.mp hp with hp | hp
      · exact hlater.past p hp
      · exact (congrArg enqueuedMs (mem_singleton.mp hp)).le
  | expire => exact h.leave (items_eq_expired nowMs _) hclock
  | popFront =>
    cases hq : s.queue.items with
    | nil => simpa [PendingQueue.next, UplinkPending.popFront, hq] using hlater
    | cons p items =>
      simpa [PendingQueue.next, UplinkPending.popFront, hq, heldBytes] using
        h.leave (show _ = [p] ++ items from hq) hclock
  | putBack =>
    cases hq : s.queue.items with
    | nil => simpa [PendingQueue.next, hq] using hlater
    | cons p items =>
      have hbytes := h.bytes
      have hback : s.queue.popFront.pushFront p = s.queue := by
        obtain ⟨⟨items', bytes⟩, _⟩ := s
        subst hq
        simp only [heldBytes, map_cons, sum_cons] at hbytes
        simp only [UplinkPending.popFront, UplinkPending.pushFront, UplinkPending.mk.injEq, true_and]
        omega
      simpa [PendingQueue.next, hq, hback] using hlater
  | clear => exact ⟨Nat.zero_le _, rfl, Nat.zero_le _, .nil, by simp [PendingQueue.next]⟩

lemma exact_empty : Exact .empty :=
  ⟨by decide, rfl, by decide, .nil, by simp [empty]⟩

end PendingQueue

/-- In a queue by age the expired payloads are those at the front. -/
lemma expire_eq_filter (nowMs : Nat) {items : List HeldPayload}
    (h : items.Pairwise fun p p' => p.enqueuedMs ≤ p'.enqueuedMs) :
    items.drop (UplinkPending.expired nowMs items).length =
      items.filter fun p => decide (nowMs - p.enqueuedMs < pendingTtlMs) := by
  induction items with
  | nil => rfl
  | cons p items ih =>
    obtain ⟨hp, hitems⟩ := pairwise_cons.mp h
    by_cases hold : pendingTtlMs ≤ nowMs - p.enqueuedMs
    · simpa [UplinkPending.expired, takeWhile_cons, hold, Nat.not_lt.mpr hold] using ih hitems
    have hyoung : ∀ p' ∈ p :: items, decide (nowMs - p'.enqueuedMs < pendingTtlMs) = true := by
      intro p' hp'
      rcases mem_cons.mp hp' with rfl | hp'
      · exact decide_eq_true (Nat.lt_of_not_le hold)
      · have := hp p' hp'
        exact decide_eq_true (by omega)
    rw [filter_eq_self.mpr hyoung]
    simp [expired, hold]

/-- The bounds and the counter of the hold are exact, payloads leave it in the order of their
arrival, and those that expire are those that were held for too long. -/
theorem pending_exact (ops : List (Nat × PendingOp))
    (hclock : Along PendingQueue.next (fun s op => s.clock ≤ op.1) .empty ops) :
    let s := after PendingQueue.next .empty ops
    s.queue.items.length ≤ pendingMaxItems ∧ s.queue.bytes = heldBytes s.queue.items ∧
      s.queue.bytes ≤ pendingMaxBytes ∧ s.arrived = s.left ++ s.queue.items ∧
      ∀ nowMs, (s.queue.expire nowMs).items =
        s.queue.items.filter fun p => decide (nowMs - p.enqueuedMs < pendingTtlMs) := by
  have h := after_of_invariant (fun s op (h : s.Exact) hop => h.next hop)
    PendingQueue.exact_empty hclock
  have horder := after_of_kept (fun s op (h : s.Ordered) => h.next op)
    (show PendingQueue.empty.Ordered from rfl) ops
  exact ⟨h.items, h.bytes, h.room, horder, fun nowMs => expire_eq_filter nowMs h.aged⟩

/-- A payload is held, put back, joined by a second one and expires before it. -/
theorem pending_exact_put_back :
    let s := after PendingQueue.next .empty [(0, .tryPush 0 (.domain "a" 53) [1, 2]), (1, .putBack),
      (400, .tryPush 1 (.domain "a" 53) [3]), (600, .expire)]
    s.queue.bytes = heldBytes s.queue.items :=
  (pending_exact _ (by decide)).2.1

/-- One association. A call of `sendUplink` is recorded with the payloads that were held before and
had been handed over, expired or cleared by then. -/
structure AssocUplink where
  hold : PendingQueue
  made : Nat
  calls : List (Nat × List HeldPayload)

inductive UplinkEvent where
  /-- A payload comes in. The flush before it and its own sending find a connection or not. -/
  | payload (target : TargetAddr) (payload : Bytes) (nowMs : Nat) (flushHandle : Bool)
      (lost : Nat → Bool) (handle : Bool) (heldMs : Nat)
  | flush (nowMs : Nat) (handle : Bool) (lost : Nat → Bool)
  | exit (nowMs : Nat)

namespace AssocUplink

def new : AssocUplink := ⟨.empty, 0, []⟩

variable (s : AssocUplink)

def sendUplink (number : Nat) : AssocUplink :=
  { s with calls := s.calls ++ [(number, s.hold.left)] }

def op (nowMs : Nat) (op : PendingOp) : AssocUplink := { s with hold := s.hold.next (nowMs, op) }

/-- Send what is held, up to the first payload for which the connection is gone. -/
def flushPendingOn (nowMs : Nat) (lost : Nat → Bool) : List HeldPayload → Nat → AssocUplink →
    AssocUplink
  | [], _, s => s
  | p :: items, i, s =>
    let s := s.sendUplink p.number
    if lost i then s.op nowMs .putBack
    else flushPendingOn nowMs lost items (i + 1) (s.op nowMs .popFront)

def flushPendingUplink (nowMs : Nat) (handle : Bool) (lost : Nat → Bool) : AssocUplink :=
  let s := s.op nowMs .expire
  if handle then flushPendingOn nowMs lost s.hold.queue.items 0 s else s

def sendPayloadUplink (target : TargetAddr) (payload : Bytes) (handle : Bool) (heldMs : Nat) :
    AssocUplink :=
  let number := s.made
  let s := { s with made := s.made + 1 }
  if handle then s.sendUplink number else s.op heldMs (.tryPush number target payload)

def next (s : AssocUplink) : UplinkEvent → AssocUplink
  | .payload target payload nowMs flushHandle lost handle heldMs =>
    (s.flushPendingUplink nowMs flushHandle lost).sendPayloadUplink target payload handle heldMs
  | .flush nowMs handle lost => s.flushPendingUplink nowMs handle lost
  | .exit nowMs => s.op nowMs .clear

/-- When a payload finds a connection, the flush ahead of it finds one too and does not lose it, for
each payload that is held and not too old. -/
def ClearAhead (s : AssocUplink) : UplinkEvent → Prop
  | .payload _ _ nowMs flushHandle lost handle _ =>
    handle = true → ∀ i < (s.hold.queue.expire nowMs).items.length,
      flushHandle = true ∧ lost i = false
  | _ => True

/-- When the call was made, every older payload that was held had left the hold. -/
def Behind (c : Nat × List HeldPayload) : Prop := ∀ p ∈ s.hold.arrived, p.number < c.1 → p ∈ c.2

structure InOrder (s : AssocUplink) : Prop where
  ordered : s.hold.Ordered
  sorted : (s.hold.arrived.map number).Pairwise (· < ·)
  lt : ∀ p ∈ s.hold.arrived, p.number < s.made
  calls : ∀ c ∈ s.calls, c.1 < s.made ∧ s.Behind c

variable {s}

/-- A flush that loses no connection sends everything. -/
lemma flushPendingOn_items {nowMs : Nat} {lost : Nat → Bool} {items : List HeldPayload} {i : Nat}
    (hitems : s.hold.queue.items = items) (hkept : ∀ k < items.length, lost (i + k) = false) :
    (flushPendingOn nowMs lost items i s).hold.queue.items = [] := by
  induction items generalizing i s with
  | nil => exact hitems
  | cons p items ih =>
    have hfirst : lost i = false := hkept 0 (Nat.zero_lt_succ _)
    rw [flushPendingOn, hfirst]
    refine ih ?_ fun k hk => ?_
    · simp [AssocUplink.op, PendingQueue.next, popFront, sendUplink, hitems]
    · rw [Nat.add_assoc, Nat.add_comm 1]
      exact hkept (k + 1) (Nat.succ_lt_succ hk)

lemma flushPendingUplink_items {nowMs : Nat} {handle : Bool} {lost : Nat → Bool}
    (h : ∀ i < (s.hold.queue.expire nowMs).items.length, handle = true ∧ lost i = false) :
    (s.flushPendingUplink nowMs handle lost).hold.queue.items = [] := by
  cases handle with
  | true => exact flushPendingOn_items rfl fun k hk => by rw [Nat.zero_add]; exact (h k hk).2
  | false =>
    have hnone : (s.hold.queue.expire nowMs).items.length = 0 :=
      Nat.eq_zero_of_not_pos fun hpos => absurd (h 0 hpos).1 Bool.false_ne_true
    exact eq_nil_of_length_eq_zero hnone

variable (nowMs : Nat) (lost : Nat → Bool) (h : s.InOrder)
include h

lemma InOrder.call {number : Nat} (hlt : number < s.made)
    (hbehind : s.Behind (number, s.hold.left)) : (s.sendUplink number).InOrder :=
  { h with
    calls := by
      intro c hc
      rcases mem_append.mp hc with hc | hc
      · exact h.calls c hc
      · rw [mem_singleton.mp hc]
        exact ⟨hlt, hbehind⟩ }

/-- Nothing comes in with the operation. -/
lemma InOrder.op {nowMs : Nat} {o : PendingOp}
    (hsame : (s.hold.next (nowMs, o)).arrived = s.hold.arrived) : (s.op nowMs o).InOrder where
  ordered := h.ordered.next _
  sorted := hsame ▸ h.sorted
  lt := fun p hp => h.lt p (hsame ▸ hp)
  calls := fun c hc => ⟨(h.calls c hc).1, fun p hp => (h.calls c hc).2 p (hsame ▸ hp)⟩

/-- The newest payload is held, or refused. -/
lemma InOrder.push {number : Nat} (hlt : number < s.made)
    (hnew : ∀ p ∈ s.hold.arrived, p.number < number) (hcalls : ∀ c ∈ s.calls, c.1 ≤ number)
    (target : TargetAddr) (payload : Bytes) (nowMs : Nat) :
    (s.op nowMs (.tryPush number target payload)).InOrder := by
  have harrived : (s.hold.next (nowMs, .tryPush number target payload)).arrived = s.hold.arrived ∨
      (s.hold.next (nowMs, .tryPush number target payload)).arrived =
        s.hold.arrived ++ [⟨number, target, payload, nowMs⟩] := by
    simp only [PendingQueue.next]
    split
    · exact .inr rfl
    · exact .inl rfl
  rcases harrived with hsame | hone
  · exact h.op hsame
  refine ⟨h.ordered.next _, ?_, ?_, fun c hc => ⟨(h.calls c hc).1, ?_⟩⟩
  · simpa [AssocUplink.op, hone, pairwise_append, h.sorted] using hnew
  · simpa [AssocUplink.op, hone, or_imp, forall_and, hlt] using h.lt
  · simpa [Behind, AssocUplink.op, hone, or_imp, forall_and, Nat.not_lt.mpr (hcalls c hc)] using
      (h.calls c hc).2

lemma InOrder.flushOn {items : List HeldPayload} {i : Nat} (hitems : s.hold.queue.items = items) :
    (flushPendingOn nowMs lost items i s).InOrder := by
  induction items generalizing i s with
  | nil => exact h
  | cons p items ih =>
    have hsplit := h.ordered
    have hsorted := h.sorted
    unfold PendingQueue.Ordered at hsplit
    rw [hsplit, hitems, map_append, map_cons] at hsorted
    -- the payload is the oldest of those that are held
    have hcall : (s.sendUplink p.number).InOrder := by
      refine h.call (h.lt p (by simp [hsplit, hitems])) fun q hq hlt => ?_
      rw [hsplit, hitems] at hq
      refine (mem_append.mp hq).resolve_right fun hq => ?_
      rcases mem_cons.mp hq with rfl | hq
      · exact Nat.lt_irrefl _ hlt
      · exact Nat.lt_asymm hlt ((pairwise_cons.mp (pairwise_append.mp hsorted).2.1).1 _
          (mem_map_of_mem hq))
    simp only [flushPendingOn]
    split
    · exact hcall.op (by simp [PendingQueue.next, sendUplink, hitems])
    · refine ih (hcall.op rfl) ?_
      simp [AssocUplink.op, PendingQueue.next, popFront, sendUplink, hitems]

lemma InOrder.flush (nowMs : Nat) (handle : Bool) (lost : Nat → Bool) :
    (s.flushPendingUplink nowMs handle lost).InOrder := by
  unfold flushPendingUplink
  split
  · exact (h.op rfl).flushOn nowMs lost rfl
  · exact h.op rfl

lemma InOrder.next {ev : UplinkEvent} (hev : s.ClearAhead ev) : (s.next ev).InOrder := by
  cases ev with
  | payload target payload nowMs flushHandle lost handle heldMs =>
    have hf := h.flush nowMs flushHandle lost
    have hempty := fun hhandle : handle = true => flushPendingUplink_items (hev hhandle)
    simp only [AssocUplink.next]
    generalize s.flushPendingUplink nowMs flushHandle lost = s at hf hempty
    have hmade : InOrder { s with made := s.made + 1 } :=
      { hf with
        lt := fun p hp => Nat.lt_succ_of_lt (hf.lt p hp)
        calls := fun c hc => ⟨Nat.lt_succ_of_lt (hf.calls c hc).1, (hf.calls c hc).2⟩ }
    simp only [sendPayloadUplink]
    split
    · rename_i hhandle
      refine hmade.call (Nat.lt_succ_self _) fun p hp _ => ?_
      have hall : s.hold.arrived = s.hold.left ++ s.hold.queue.items := hf.ordered
      rw [hempty hhandle, append_nil] at hall
      exact hall ▸ hp
    · exact hmade.push (Nat.lt_succ_self _) hf.lt (fun c hc => (hf.calls c hc).1.le) target payload
        heldMs
  | flush nowMs handle lost => exact h.flush nowMs handle lost
  | exit nowMs => exact h.op rfl

end AssocUplink

/-- If no payload finds a connection that the flush ahead of it lacked or lost, a payload is handed
over only when every older one that was held has been handed over, has expired or was cleared. -/
theorem held_not_overtaken (events : List UplinkEvent)
    (hclear : Along AssocUplink.next AssocUplink.ClearAhead .new events) :
    ∀ c ∈ (after AssocUplink.next .new events).calls,
      (after AssocUplink.next .new events).Behind c := by
  have h := after_of_invariant (fun s ev (h : s.InOrder) hev => h.next hev)
    (show AssocUplink.new.InOrder from
      ⟨rfl, .nil, by simp [AssocUplink.new, PendingQueue.empty], by simp [AssocUplink.new]⟩) hclear
  exact fun c hc => (h.calls c hc).2

/-- The flush of the second payload finds no connection, and its sending does. -/
theorem held_overtaken :
    let s := after AssocUplink.next .new
      [.payload (.domain "a" 53) [] 0 false (fun _ => false) false 0,
        .payload (.domain "a" 53) [] 1 false (fun _ => false) true 1]
    s.calls.map Prod.fst = [1] ∧ s.hold.queue.items.map HeldPayload.number = [0] := by
  decide

/-- A payload is held, and the second one finds a connection for both. -/
theorem held_not_overtaken_flushed :
    let s := after AssocUplink.next .new
      [.payload (.domain "a" 53) [] 0 false (fun _ => false) false 0,
        .payload (.domain "a" 53) [] 1 true (fun _ => false) true 1]
    s.calls.map Prod.fst = [0, 1] ∧ ∀ c ∈ s.calls, s.Behind c :=
  ⟨by decide, held_not_overtaken _ ⟨nofun, fun _ _ _ => ⟨rfl, rfl⟩, trivial⟩⟩

end MyQuic2
