import MyQuic2.Core.Run
import MyQuic2.Net.Stream
import MyQuic2.Tcp.Vectored

/-!
# Copying between a TCP connection and a stream

Two directions run side by side. The way up reads into one of two buffers, takes
what is readable at once with it, and writes the result to the stream. The way
down receives batches of segments and writes them to the socket. The first
failure, or the idle watchdog, ends both; how each end learns of it depends on
what had been completed by then.
-/

namespace MyQuic2

open List Vectored

/-- Bytes that are read before they are written. -/
def copyChunk : Nat := 16 * 1024

/-- Writes of this size hand their buffer over. -/
def zerocopyMinWrite : Nat := 8 * 1024

/-- Least time between two stamps of progress, in milliseconds. -/
def idleStampThrottleMs : Nat := 100

inductive QuicReadKind where
  | reset
  | connectionLost
  | other

inductive StallDir where
  | both
  | c2s
  | s2c

/-- Why a copy ended, with the bytes copied until then. -/
inductive PumpError where
  | tcpRead (up : Nat)
  | quicWrite (up : Nat)
  | ack
  | quicRead (kind : QuicReadKind) (down : Nat)
  | tcpWrite (down : Nat)
  | stall (dir : StallDir) (up down : Nat)
  | idle (up down : Nat)

/-- Store a stamp unless the last one is recent: the stamp, and what was last observed. -/
def touchStamp (last since now throttle : Nat) : Nat × Nat :=
  if throttle ≤ now - since then (now, now) else (last, since)

/-- The result of a read; no bytes mean the end of the stream. -/
inductive TcpRead where
  | got (b : Bytes)
  | failed

inductive FoldEnd where
  | paused
  | eof
  | failed
  deriving DecidableEq

/-- Take what is readable without waiting, up to a chunk: the bytes, and the count so far. -/
def foldReads (n : Nat) : List (Option TcpRead) → Bytes × Nat × FoldEnd
  | [] => ([], n, .paused)
  | poll :: polls =>
    if copyChunk ≤ n then ([], n, .paused)
    else
      match poll with
      | none => ([], n, .paused)
      | some .failed => ([], n, .failed)
      | some (.got b) =>
        if b.isEmpty then ([], n, .eof)
        else
          let (more, n, ending) := foldReads (n + b.length) polls
          (b ++ more, n, ending)

/-- What a direction waits for. -/
inductive UpPhase where
  | reading
  /-- The rest of a write of some bytes; the buffer was handed over or is kept. -/
  | writing (left : Bytes) (n : Nat) (handedOver : Bool)
  | finished (total : Nat)
  | failed (e : PumpError)

/-- The way up. -/
structure Up where
  bufs : Bytes × Bytes
  cur : Bool
  total : Nat
  eof : Bool
  stamped : Nat
  stampedDir : Nat
  phase : UpPhase

namespace Up

def new : Up := ⟨([], []), false, 0, false, 0, 0, .reading⟩

variable (u : Up) (n : Nat)

def buf : Bytes := if u.cur then u.bufs.2 else u.bufs.1

def setBuf (b : Bytes) : Up :=
  { u with bufs := if u.cur then (u.bufs.1, b) else (b, u.bufs.2) }

/-- Start the write of the leading bytes of the current buffer. A large buffer is handed over, and
the other one becomes current. -/
def startWrite : Up :=
  if zerocopyMinWrite ≤ n then
    { u.setBuf (u.buf.drop n) with cur := !u.cur, phase := .writing (u.buf.take n) n true }
  else { u with phase := .writing (u.buf.take n) n false }

/-- The bytes that a read takes from the socket, with those readable at once. -/
def taken : TcpRead → List (Option TcpRead) → Bytes
  | .failed, _ => []
  | .got b, polls => if b.isEmpty then [] else b ++ (foldReads b.length polls).1

/-- The read meets the end of the stream. -/
def meetsEof : TcpRead → List (Option TcpRead) → Bool
  | .failed, _ => false
  | .got b, polls => b.isEmpty || (foldReads b.length polls).2.2 = .eof

def onRead (first : TcpRead) (polls : List (Option TcpRead)) : Up :=
  match first with
  | .failed => { u with phase := .failed (.tcpRead u.total) }
  | .got b =>
    if b.isEmpty then { u with phase := .finished u.total }
    else
      let (more, n, ending) := foldReads b.length polls
      let u := u.setBuf (u.buf ++ b ++ more)
      match ending with
      | .failed => { u with phase := .failed (.tcpRead u.total) }
      | .eof => { u with eof := true }.startWrite n
      | .paused => u.startWrite n

/-- A write is complete. -/
def onWritten (handedOver : Bool) : Up :=
  let u := if handedOver then u else u.setBuf []
  { u with
    total := u.total + n
    phase := if u.eof then .finished (u.total + n) else .reading }

/-- The stream takes some of the bytes. -/
def onWrote (left : Bytes) (n : Nat) (handedOver : Bool) (k : Nat) : Up :=
  if (left.drop k).isEmpty then u.onWritten n handedOver
  else { u with phase := .writing (left.drop k) n handedOver }

end Up

/-- A batch of received segments, or the end of the stream. -/
inductive ChunksRead where
  | chunks (cs : List Bytes)
  | ended
  | failed (kind : QuicReadKind)

inductive DownPhase where
  | acking
  | receiving
  | writing (rest : List Bytes) (off : Nat) (batchBytes : Nat)
  | finished (total : Nat)
  | failed (e : PumpError)

/-- The way down. -/
structure Down where
  total : Nat
  stamped : Nat
  stampedDir : Nat
  phase : DownPhase

namespace Down

def new (ack : Bool) : Down := ⟨0, 0, 0, if ack then .acking else .receiving⟩

variable (d : Down) (rest : List Bytes) (off batchBytes n : Nat)

def onAck (ok : Bool) : Down :=
  { d with phase := if ok then .receiving else .failed .ack }

/-- Go on with a batch, or count it when it is written. -/
def proceed : Down :=
  match nextWrite rest off with
  | some (rest, off) => { d with phase := .writing rest off batchBytes }
  | none => { d with total := d.total + batchBytes, phase := .receiving }

def onRead : ChunksRead → Down
  | .ended => { d with phase := .finished d.total }
  | .failed kind => { d with phase := .failed (.quicRead kind d.total) }
  | .chunks cs => if cs.flatten.isEmpty then d else d.proceed cs 0 cs.flatten.length

/-- The socket takes some of the bytes it is offered. -/
def onWrote : Down :=
  if n = 0 then { d with phase := .failed (.tcpWrite d.total) }
  else
    let (rest, off) := advance rest off n
    d.proceed rest off batchBytes

end Down

/-- What the copy meets. -/
inductive PumpEvent where
  | tcpRead (first : TcpRead) (polls : List (Option TcpRead))
  | quicWrote (k now : Nat)
  | quicWriteFailed
  | ack (ok : Bool)
  | quicRead (r : ChunksRead)
  | tcpWrote (k now : Nat)
  | tcpWriteFailed
  | idleTick (now : Nat)

/-- A copy with what it did to its two ends, and what its sources gave it so far. -/
structure Pump where
  idleMs : Nat
  up : Up
  down : Down
  lastMs : Nat
  c2sLast : Nat
  s2cLast : Nat
  c2sTotal : Option Nat
  s2cTotal : Option Nat
  outcome : Option (Except PumpError (Nat × Nat))
  send : SendStream
  recvStopped : Bool
  tcpSent : Bytes
  tcpFin : Bool
  tcpRst : Bool
  tcpRead : Bytes
  tcpEof : Bool
  received : Bytes
  quicEof : Bool

namespace Pump

def new (idleMs : Nat) (ack : Bool) (now : Nat) : Pump where
  idleMs := idleMs
  up := .new
  down := .new ack
  lastMs := now
  c2sLast := now
  s2cLast := now
  c2sTotal := none
  s2cTotal := none
  outcome := none
  send := .opened
  recvStopped := false
  tcpSent := []
  tcpFin := false
  tcpRst := false
  tcpRead := []
  tcpEof := false
  received := []
  quicEof := false

/-- The end after a failure: the socket is aborted, and each half that is not complete is reset or
stopped. -/
def abort (p : Pump) (e : PumpError) : Pump :=
  { p with
    outcome := some (.error e)
    tcpRst := true
    send := if p.c2sTotal.isNone then p.send.reset else p.send
    recvStopped := p.recvStopped || p.s2cTotal.isNone }

variable (p : Pump) (now : Nat)

/-- Both directions are complete. -/
def join : Pump :=
  match p.c2sTotal, p.s2cTotal with
  | some up, some down => { p with outcome := some (.ok (up, down)), tcpFin := true }
  | _, _ => p

/-- Take note of how the way up ended, if it did. -/
def settleUp : Pump :=
  match p.up.phase with
  | .finished total => { p with c2sTotal := some total, send := p.send.finish }.join
  | .failed e => p.abort e
  | _ => p

def settleDown : Pump :=
  match p.down.phase with
  | .finished total => { p with s2cTotal := some total, tcpFin := true }.join
  | .failed e => p.abort e
  | _ => p

/-- Stamps of a write that is complete. -/
def stampUp : Pump :=
  let (last, stamped) := touchStamp p.lastMs p.up.stamped now idleStampThrottleMs
  let (c2sLast, stampedDir) := touchStamp p.c2sLast p.up.stampedDir now idleStampThrottleMs
  { p with
    lastMs := last, c2sLast := c2sLast
    up := { p.up with stamped := stamped, stampedDir := stampedDir } }

def stampDown : Pump :=
  let (last, stamped) := touchStamp p.lastMs p.down.stamped now idleStampThrottleMs
  let (s2cLast, stampedDir) := touchStamp p.s2cLast p.down.stampedDir now idleStampThrottleMs
  { p with
    lastMs := last, s2cLast := s2cLast
    down := { p.down with stamped := stamped, stampedDir := stampedDir } }

/-- The watchdog ends a copy in which nothing moved for the whole window. -/
def onIdleTick : Pump :=
  let c2sStalled := p.c2sTotal.isNone && p.idleMs ≤ now - p.c2sLast
  let s2cStalled := p.s2cTotal.isNone && p.idleMs ≤ now - p.s2cLast
  let sharedExpired : Bool := p.idleMs ≤ now - p.lastMs
  let up := p.c2sTotal.getD 0
  let down := p.s2cTotal.getD 0
  if (c2sStalled || s2cStalled) && sharedExpired then
    let dir := if c2sStalled && s2cStalled then .both else if c2sStalled then .c2s else .s2c
    p.abort (.stall dir up down)
  else if sharedExpired then p.abort (.idle up down)
  else p

/-- Windows past this one mean that there is no watchdog. -/
def idleEnabled : Bool := p.idleMs < (4294967295 / 2) * 1000

/-- An event that the direction does not wait for does not happen to it. -/
def step : PumpEvent → Pump
  | .tcpRead first polls =>
    match p.up.phase with
    | .reading =>
      { p with
        up := p.up.onRead first polls
        tcpRead := p.tcpRead ++ Up.taken first polls
        tcpEof := p.tcpEof || Up.meetsEof first polls }.settleUp
    | _ => p
  | .quicWrote k now =>
    match p.up.phase with
    | .writing left n handedOver =>
      let p := { p with
        up := p.up.onWrote left n handedOver k
        send := p.send.write (left.take k) }
      (if (left.drop k).isEmpty then p.stampUp now else p).settleUp
    | _ => p
  | .quicWriteFailed =>
    match p.up.phase with
    | .writing _ _ _ =>
      { p with up := { p.up with phase := .failed (.quicWrite p.up.total) } }.settleUp
    | _ => p
  | .ack ok =>
    match p.down.phase with
    | .acking => { p with down := p.down.onAck ok }.settleDown
    | _ => p
  | .quicRead r =>
    match p.down.phase with
    | .receiving =>
      { p with
        down := p.down.onRead r
        received := p.received ++ match r with
          | .chunks cs => cs.flatten
          | _ => []
        quicEof := p.quicEof || match r with
          | .ended => true
          | _ => false }.settleDown
    | _ => p
  | .tcpWrote k now =>
    match p.down.phase with
    | .writing rest off batchBytes =>
      let sent := (slices rest off).flatten.take k
      let p := { p with
        down := p.down.onWrote rest off batchBytes sent.length
        tcpSent := p.tcpSent ++ sent }
      match p.down.phase with
      | .receiving => p.stampDown now
      | _ => p.settleDown
    | _ => p
  | .tcpWriteFailed =>
    match p.down.phase with
    | .writing _ _ _ =>
      { p with down := { p.down with phase := .failed (.tcpWrite p.down.total) } }.settleDown
    | _ => p
  | .idleTick now => if p.idleEnabled then p.onIdleTick now else p

/-- One turn of the loop; nothing happens once it has ended. -/
def next (ev : PumpEvent) : Pump := if p.outcome.isSome then p else p.step ev

end Pump

lemma count_foldReads (n : Nat) (polls : List (Option TcpRead)) :
    (foldReads n polls).2.1 = n + (foldReads n polls).1.length := by
  induction polls generalizing n with
  | nil => rfl
  | cons poll polls ih =>
    unfold foldReads
    split
    · rfl
    cases poll with
    | none => rfl
    | some r =>
      cases r with
      | failed => rfl
      | got b =>
        dsimp only
        split
        · rfl
        · rw [ih, length_append, Nat.add_assoc]

namespace Up

/-- What was read is what was sent, followed by what is being written. Both buffers are empty when
a read starts. -/
def Forwards (u : Up) (sent read : Bytes) (eof : Bool) : Prop :=
  match u.phase with
  | .reading => u.bufs = ([], []) ∧ u.eof = false ∧ eof = false ∧ sent = read
  | .writing left _ handedOver =>
    (if handedOver then u.bufs = ([], []) else (u.setBuf []).bufs = ([], [])) ∧ u.eof = eof ∧
      sent ++ left = read
  | .finished _ => eof = true ∧ sent = read
  | .failed _ => sent <+: read

variable {u : Up} {sent read : Bytes} {eof : Bool}

lemma Forwards.sent_prefix (h : u.Forwards sent read eof) : sent <+: read := by
  unfold Forwards at h
  generalize u.phase = phase' at h ⊢
  cases phase' with
  | reading =>
    exact h.2.2.2 ▸ prefix_rfl
  | writing left n handedOver =>
    exact ⟨left, h.2.2⟩
  | finished total =>
    exact h.2 ▸ prefix_rfl
  | failed e =>
    exact h

lemma forwards_startWrite {b : Bytes} (hbufs : u.bufs = ([], [])) (heof : u.eof = eof) :
    ((u.setBuf b).startWrite b.length).Forwards sent (sent ++ b) eof := by
  have hbuf : (u.setBuf b).buf = b := by
    unfold setBuf buf
    cases u.cur <;> rfl
  unfold startWrite
  rw [hbuf, take_length, drop_length]
  split
  · refine ⟨?_, heof, rfl⟩
    unfold setBuf
    rw [hbufs]
    cases u.cur <;> rfl
  · refine ⟨?_, heof, rfl⟩
    unfold setBuf
    rw [hbufs]
    cases u.cur <;> rfl

lemma Forwards.onRead (h : u.Forwards sent read eof) (hphase : u.phase = .reading)
    (first : TcpRead) (polls : List (Option TcpRead)) :
    (u.onRead first polls).Forwards sent (read ++ taken first polls)
      (eof || meetsEof first polls) := by
  unfold Forwards at h
  rw [hphase] at h
  obtain ⟨hbufs, hueof, rfl, rfl⟩ := h
  have hempty : u.buf = [] := by
    unfold buf
    rw [hbufs]
    cases u.cur <;> rfl
  cases first with
  | failed => exact prefix_append sent []
  | got b =>
    unfold Up.onRead taken meetsEof
    dsimp only
    split
    · rename_i hb
      exact ⟨by rw [hb]; rfl, (append_nil sent).symm⟩
    rename_i hb
    have hcount := count_foldReads b.length polls
    obtain ⟨⟨more, n, ending⟩, hfold⟩ : ∃ out, foldReads b.length polls = out := ⟨_, rfl⟩
    rw [hfold] at hcount ⊢
    have hn : n = (b ++ more).length := hcount.trans length_append.symm
    rw [hempty, nil_append, Bool.eq_false_iff.mpr hb]
    cases ending with
    | failed => exact prefix_append sent _
    | eof =>
      rw [hn]
      exact forwards_startWrite (u := { u with eof := true }) hbufs rfl
    | paused =>
      rw [hn]
      exact forwards_startWrite hbufs hueof

lemma Forwards.onWrote {left : Bytes} {n : Nat} {handedOver : Bool}
    (h : u.Forwards sent read eof) (hphase : u.phase = .writing left n handedOver) (k : Nat) :
    (u.onWrote left n handedOver k).Forwards (sent ++ left.take k) read eof := by
  unfold Forwards at h
  rw [hphase] at h
  obtain ⟨hbufs, hueof, hread⟩ := h
  unfold Up.onWrote
  split
  · rename_i hdone
    have hsent : sent ++ left.take k = read := by
      rw [← hread, ← take_append_drop k left, isEmpty_iff.mp hdone, append_nil,
        take_take, Nat.min_self]
    obtain ⟨v, hv⟩ : ∃ v, (if handedOver then u else u.setBuf []) = v := ⟨_, rfl⟩
    have hvbufs : v.bufs = ([], []) := by
      rw [← hv]
      cases handedOver with
      | true | false => exact hbufs
    have hveof : v.eof = eof := by
      rw [← hv, ← hueof]
      cases handedOver <;> rfl
    unfold Up.onWritten
    rw [hv]
    cases hend : v.eof with
    | true =>
      simp only [Forwards, hend, if_true]
      exact ⟨hveof.symm.trans hend, hsent⟩
    | false =>
      simp only [Forwards, hend, Bool.false_eq_true, if_false]
      exact ⟨hvbufs, trivial, hveof.symm.trans hend, hsent⟩
  · refine ⟨hbufs, hueof, ?_⟩
    rw [append_assoc, take_append_drop, hread]

end Up

namespace Down

/-- What was received is what was sent, followed by what is left of the batch. -/
def Forwards (d : Down) (sent received : Bytes) (eof : Bool) : Prop :=
  match d.phase with
  | .acking | .receiving => eof = false ∧ sent = received
  | .writing rest off _ =>
    eof = false ∧ Vectored.Valid rest off ∧ sent ++ unwritten rest off = received
  | .finished _ => eof = true ∧ sent = received
  | .failed _ => sent <+: received

variable {d : Down} {sent received : Bytes} {eof : Bool}

lemma Forwards.sent_prefix (h : d.Forwards sent received eof) : sent <+: received := by
  unfold Forwards at h
  generalize d.phase = phase' at h ⊢
  cases phase' with
  | acking | receiving | finished total =>
    exact h.2 ▸ prefix_rfl
  | writing rest off batchBytes =>
    exact ⟨_, h.2.2⟩
  | failed e =>
    exact h

lemma forwards_proceed {rest : List Bytes} {off : Nat} (hvalid : Vectored.Valid rest off)
    (h : sent ++ unwritten rest off = received) (batchBytes : Nat) :
    (d.proceed rest off batchBytes).Forwards sent received false := by
  unfold proceed
  cases hnext : nextWrite rest off with
  | none =>
    refine ⟨rfl, ?_⟩
    rw [← h, unwritten_of_nextWrite_eq_none hvalid hnext, append_nil]
  | some cursor =>
    obtain ⟨hsame, hvalid'⟩ := unwritten_of_nextWrite_eq_some hvalid hnext
    exact ⟨rfl, hvalid', hsame.symm ▸ h⟩

lemma Forwards.onAck (h : d.Forwards sent received eof) (hphase : d.phase = .acking)
    (ok : Bool) : (d.onAck ok).Forwards sent received eof := by
  unfold Forwards at h
  rw [hphase] at h
  cases ok with
  | true => exact h
  | false => exact h.2 ▸ prefix_rfl

lemma Forwards.onWrote {rest : List Bytes} {off batchBytes : Nat}
    (h : d.Forwards sent received eof) (hphase : d.phase = .writing rest off batchBytes) (k : Nat) :
    (d.onWrote rest off batchBytes ((slices rest off).flatten.take k).length).Forwards
      (sent ++ (slices rest off).flatten.take k) received eof := by
  unfold Forwards at h
  rw [hphase] at h
  obtain ⟨rfl, hvalid, hreceived⟩ := h
  obtain ⟨taken, htaken⟩ : ∃ taken, (slices rest off).flatten.take k = taken := ⟨_, rfl⟩
  have hpre : taken <+: unwritten rest off := by
    rw [← htaken]
    exact ( take_prefix _ _).trans ( flatten_slices_prefix hvalid)
  rw [htaken]
  obtain ⟨later, hlater⟩ := hpre
  have hreceived' : sent ++ taken ++ later = received := by
    rw [append_assoc, hlater, hreceived]
  unfold Down.onWrote
  split
  · exact ⟨later, hreceived'⟩
  have hlen : taken.length ≤ (unwritten rest off).length := by
    rw [← hlater, length_append]
    omega
  obtain ⟨hdrop, hvalid'⟩ := advance_spec hvalid hlen
  refine forwards_proceed hvalid' ?_ batchBytes
  rw [hdrop, ← hlater, drop_left, hreceived']

end Down

namespace Pump

variable {p : Pump}

/-- What both directions have done, and which of them are complete. -/
structure Tracks (p : Pump) : Prop where
  up : p.up.Forwards p.send.data p.tcpRead p.tcpEof
  down : p.down.Forwards p.tcpSent p.received p.quicEof
  finished : p.send.finished = p.c2sTotal.isSome
  fin : p.tcpFin = p.s2cTotal.isSome
  upDone : p.c2sTotal.isSome = true → ∃ total, p.up.phase = .finished total
  downDone : p.s2cTotal.isSome = true → ∃ total, p.down.phase = .finished total

/-- Nothing has been reset or aborted. -/
structure Intact (p : Pump) : Prop where
  send : p.send.wasReset = false
  recv : p.recvStopped = false
  tcp : p.tcpRst = false

/-- The loop goes on. -/
structure Running (p : Pump) : Prop extends p.Intact where
  outcome : p.outcome = none
  pending : p.c2sTotal = none ∨ p.s2cTotal = none

/-- The loop has ended with both directions complete. -/
structure Joined (p : Pump) : Prop extends p.Intact where
  outcome : ∃ totals, p.outcome = some (.ok totals)
  upTotal : p.c2sTotal.isSome = true
  downTotal : p.s2cTotal.isSome = true

/-- The loop has ended otherwise. -/
structure Aborted (p : Pump) : Prop where
  outcome : ∃ e, p.outcome = some (.error e)
  pending : p.c2sTotal = none ∨ p.s2cTotal = none
  tcp : p.tcpRst = true
  send : p.send.wasReset = p.c2sTotal.isNone
  recv : p.recvStopped = p.s2cTotal.isNone

/-- What holds of a copy at any time. -/
structure Faithful (p : Pump) : Prop where
  tracks : p.Tracks
  verdict : p.Running ∨ p.Joined ∨ p.Aborted

variable {now : Nat}

lemma faithful_new (idleMs : Nat) (ack : Bool) : (new idleMs ack now).Faithful where
  tracks := by
    refine ⟨⟨rfl, rfl, rfl, rfl⟩, ?_, rfl, rfl, nofun, nofun⟩
    cases ack <;> exact ⟨rfl, rfl⟩
  verdict := .inl ⟨⟨rfl, rfl, rfl⟩, rfl, .inl rfl⟩

section

variable (h : p.Tracks)
include h

lemma faithful_abort (hrun : p.Running) (e : PumpError) : (p.abort e).Faithful where
  tracks := by
    have hdata : (p.abort e).send.data = p.send.data := by
      unfold abort
      split <;> rfl
    have hfinished : (p.abort e).send.finished = p.send.finished := by
      unfold abort
      split <;> rfl
    exact ⟨hdata.symm ▸ h.up, h.down, hfinished.trans h.finished, h.fin, h.upDone, h.downDone⟩
  verdict := by
    refine .inr (.inr ⟨⟨e, rfl⟩, hrun.pending, rfl, ?_, ?_⟩)
    · show (if p.c2sTotal.isNone then p.send.reset else p.send).wasReset = p.c2sTotal.isNone
      cases p.c2sTotal with
      | none => rfl
      | some total => exact hrun.send
    · show (p.recvStopped || p.s2cTotal.isNone) = p.s2cTotal.isNone
      rw [hrun.recv, Bool.false_or]

lemma faithful_join (hintact : p.Intact) (hnone : p.outcome = none) : p.join.Faithful := by
  cases hup : p.c2sTotal with
  | none =>
    rw [join, hup]
    exact ⟨h, .inl ⟨hintact, hnone, .inl hup⟩⟩
  | some up =>
    cases hdown : p.s2cTotal with
    | none =>
      rw [join, hup, hdown]
      exact ⟨h, .inl ⟨hintact, hnone, .inr hdown⟩⟩
    | some down =>
      have hjoin : p.join = { p with outcome := some (.ok (up, down)), tcpFin := true } := by
        rw [join, hup, hdown]
      have hupTotal : p.c2sTotal.isSome = true := by rw [hup]; rfl
      have hdownTotal : p.s2cTotal.isSome = true := by rw [hdown]; rfl
      rw [hjoin]
      exact ⟨⟨h.up, h.down, h.finished, hdownTotal.symm, h.upDone, h.downDone⟩,
        .inr (.inl ⟨⟨hintact.send, hintact.recv, hintact.tcp⟩, ⟨_, rfl⟩, hupTotal, hdownTotal⟩)⟩

lemma faithful_settleUp (hrun : p.Running) (hnone : p.c2sTotal = none) : p.settleUp.Faithful := by
  unfold settleUp
  cases hphase : p.up.phase with
  | reading | writing _ _ _ => exact ⟨h, .inl hrun⟩
  | failed e => exact faithful_abort h hrun e
  | finished total =>
    have hopen : p.send.closed = false := by
      rw [SendStream.closed, h.finished, hnone, hrun.send]
      rfl
    have hsend : p.send.finish = { p.send with finished := true } := by
      rw [SendStream.finish, hopen]
      rfl
    refine faithful_join ?_ ⟨?_, hrun.recv, hrun.tcp⟩ hrun.outcome
    · refine ⟨?_, h.down, ?_, h.fin, fun _ => ⟨total, hphase⟩, h.downDone⟩
      · rw [hsend]
        exact h.up
      · rw [hsend]
        rfl
    · rw [hsend]
      exact hrun.send

lemma faithful_settleDown (hrun : p.Running) : p.settleDown.Faithful := by
  unfold settleDown
  cases hphase : p.down.phase with
  | acking | receiving | writing _ _ _ => exact ⟨h, .inl hrun⟩
  | failed e => exact faithful_abort h hrun e
  | finished total =>
    refine faithful_join ?_ ⟨hrun.send, hrun.recv, hrun.tcp⟩ hrun.outcome
    exact ⟨h.up, h.down, h.finished, rfl, h.upDone, fun _ => ⟨total, hphase⟩⟩

/-- A direction that still runs is not complete. -/
lemma c2sTotal_eq_none (hphase : ∀ total, p.up.phase ≠ .finished total) : p.c2sTotal = none := by
  cases hc : p.c2sTotal with
  | none => rfl
  | some total =>
    obtain ⟨t, ht⟩ := h.upDone (by rw [hc]; rfl)
    exact absurd ht (hphase t)

lemma s2cTotal_eq_none (hphase : ∀ total, p.down.phase ≠ .finished total) : p.s2cTotal = none := by
  cases hc : p.s2cTotal with
  | none => rfl
  | some total =>
    obtain ⟨t, ht⟩ := h.downDone (by rw [hc]; rfl)
    exact absurd ht (hphase t)

lemma tracks_stampUp : (p.stampUp now).Tracks :=
  ⟨h.up, h.down, h.finished, h.fin, h.upDone, h.downDone⟩

lemma tracks_stampDown : (p.stampDown now).Tracks :=
  ⟨h.up, h.down, h.finished, h.fin, h.upDone, h.downDone⟩

end

section

variable (h : p.Tracks) (hrun : p.Running) (k : Nat)
include h hrun

lemma step_tcpRead (first : TcpRead) (polls : List (Option TcpRead)) :
    (p.step (.tcpRead first polls)).Faithful := by
  unfold step
  cases hphase : p.up.phase with
  | reading =>
    have hnone := c2sTotal_eq_none h (by rw [hphase]; nofun)
    refine faithful_settleUp ?_ ⟨⟨hrun.send, hrun.recv, hrun.tcp⟩, hrun.outcome, .inl hnone⟩ hnone
    refine ⟨h.up.onRead hphase first polls, h.down, h.finished, h.fin, fun hsome => ?_, h.downDone⟩
    rw [hnone] at hsome
    cases hsome
  | writing _ _ _ | finished _ | failed _ => exact ⟨h, .inl hrun⟩

lemma step_quicWrote : (p.step (.quicWrote k now)).Faithful := by
  unfold step
  cases hphase : p.up.phase with
  | writing left n handedOver =>
    have hnone := c2sTotal_eq_none h (by rw [hphase]; nofun)
    have hsend : p.send.write (left.take k) =
        { p.send with data := p.send.data ++ left.take k } := by
      refine if_neg ?_
      rw [SendStream.closed, h.finished, hnone, hrun.send]
      decide
    dsimp only
    rw [hsend]
    have htracks : Tracks { p with
        up := p.up.onWrote left n handedOver k
        send := { p.send with data := p.send.data ++ left.take k } } := by
      refine ⟨h.up.onWrote hphase k, h.down, h.finished, h.fin, fun hsome => ?_, h.downDone⟩
      rw [show p.c2sTotal = none from hnone] at hsome
      cases hsome
    split
    · exact faithful_settleUp (tracks_stampUp htracks)
        ⟨⟨hrun.send, hrun.recv, hrun.tcp⟩, hrun.outcome, .inl hnone⟩ hnone
    · exact faithful_settleUp htracks
        ⟨⟨hrun.send, hrun.recv, hrun.tcp⟩, hrun.outcome, .inl hnone⟩ hnone
  | reading | finished _ | failed _ => exact ⟨h, .inl hrun⟩

lemma step_quicWriteFailed : (p.step .quicWriteFailed).Faithful := by
  unfold step
  cases hphase : p.up.phase with
  | writing left n handedOver =>
    have hnone := c2sTotal_eq_none h (by rw [hphase]; nofun)
    refine faithful_settleUp ?_ ⟨⟨hrun.send, hrun.recv, hrun.tcp⟩, hrun.outcome, .inl hnone⟩ hnone
    refine ⟨h.up.sent_prefix, h.down, h.finished, h.fin, fun hsome => ?_, h.downDone⟩
    rw [hnone] at hsome
    cases hsome
  | reading | finished _ | failed _ => exact ⟨h, .inl hrun⟩

/-- A step of the way down that keeps it in order ends like every other one. -/
lemma faithful_down (hphase : ∀ total, p.down.phase ≠ .finished total) {d : Down}
    {sent received : Bytes} {eof : Bool} (hforwards : d.Forwards sent received eof) :
    Tracks { p with down := d, tcpSent := sent, received := received, quicEof := eof } ∧
      Running { p with down := d, tcpSent := sent, received := received, quicEof := eof } := by
  have hnone := s2cTotal_eq_none h hphase
  refine ⟨⟨h.up, hforwards, h.finished, h.fin, h.upDone, fun hsome => ?_⟩,
    ⟨⟨hrun.send, hrun.recv, hrun.tcp⟩, hrun.outcome, .inr hnone⟩⟩
  rw [show p.s2cTotal = none from hnone] at hsome
  cases hsome

lemma step_ack (ok : Bool) : (p.step (.ack ok)).Faithful := by
  unfold step
  cases hphase : p.down.phase with
  | acking =>
    obtain ⟨htracks, hrun'⟩ := faithful_down h hrun (by rw [hphase]; nofun) (h.down.onAck hphase ok)
    exact faithful_settleDown htracks hrun'
  | receiving | writing _ _ _ | finished _ | failed _ => exact ⟨h, .inl hrun⟩

lemma step_quicRead (r : ChunksRead) : (p.step (.quicRead r)).Faithful := by
  unfold step
  cases hphase : p.down.phase with
  | receiving =>
    have hdown := h.down
    unfold Down.Forwards at hdown
    rw [hphase] at hdown
    obtain ⟨heof, hsent⟩ := hdown
    have hsettle : ∀ {d : Down} {received : Bytes} {eof : Bool}, d.Forwards p.tcpSent received eof →
        (settleDown { p with down := d, received := received, quicEof := eof }).Faithful := by
      intro d received eof hforwards
      obtain ⟨htracks, hrun'⟩ := faithful_down h hrun (by rw [hphase]; nofun) hforwards
      exact faithful_settleDown htracks hrun'
    cases r with
    | ended => exact hsettle ⟨Bool.or_true _, hsent.trans (append_nil _).symm⟩
    | failed kind => exact hsettle (hsent ▸ prefix_append _ _)
    | chunks cs =>
      refine hsettle ?_
      rw [Bool.or_false, heof]
      unfold Down.onRead
      dsimp only
      split
      · rename_i hempty
        rw [isEmpty_iff.mp hempty, append_nil]
        exact heof ▸ h.down
      · refine Down.forwards_proceed (valid_zero cs) ?_ _
        rw [unwritten, drop_zero, hsent]
  | acking | writing _ _ _ | finished _ | failed _ => exact ⟨h, .inl hrun⟩

lemma step_tcpWrote : (p.step (.tcpWrote k now)).Faithful := by
  unfold step
  cases hphase : p.down.phase with
  | writing rest off batchBytes =>
    obtain ⟨htracks, hrun'⟩ := faithful_down h hrun (by rw [hphase]; nofun)
      (h.down.onWrote hphase k)
    dsimp only
    split
    · exact ⟨tracks_stampDown htracks,
        .inl ⟨⟨hrun'.send, hrun'.recv, hrun'.tcp⟩, hrun'.outcome, hrun'.pending⟩⟩
    · exact faithful_settleDown htracks hrun'
  | acking | receiving | finished _ | failed _ => exact ⟨h, .inl hrun⟩

lemma step_tcpWriteFailed : (p.step .tcpWriteFailed).Faithful := by
  unfold step
  cases hphase : p.down.phase with
  | writing rest off batchBytes =>
    have hfailed : { p.down with phase := .failed (.tcpWrite p.down.total) }.Forwards
        p.tcpSent p.received p.quicEof := h.down.sent_prefix
    obtain ⟨htracks, hrun'⟩ := faithful_down h hrun (by rw [hphase]; nofun) hfailed
    exact faithful_settleDown htracks hrun'
  | acking | receiving | finished _ | failed _ => exact ⟨h, .inl hrun⟩

lemma step_idleTick : (p.step (.idleTick now)).Faithful := by
  unfold step onIdleTick
  dsimp only
  split
  · split
    · exact faithful_abort h hrun _
    split
    · exact faithful_abort h hrun _
    · exact ⟨h, .inl hrun⟩
  · exact ⟨h, .inl hrun⟩

end

lemma Faithful.next (h : p.Faithful) (ev : PumpEvent) : (p.next ev).Faithful := by
  unfold Pump.next
  split
  · exact h
  rename_i hnone
  have hrun : p.Running := by
    rcases h.verdict with hrun | hjoined | haborted
    · exact hrun
    · obtain ⟨v, hv⟩ := hjoined.outcome
      rw [hv] at hnone
      exact absurd rfl hnone
    · obtain ⟨e, he⟩ := haborted.outcome
      rw [he] at hnone
      exact absurd rfl hnone
  cases ev with
  | tcpRead first polls => exact step_tcpRead h.tracks hrun first polls
  | quicWrote k now => exact step_quicWrote h.tracks hrun k
  | quicWriteFailed => exact step_quicWriteFailed h.tracks hrun
  | ack ok => exact step_ack h.tracks hrun ok
  | quicRead r => exact step_quicRead h.tracks hrun r
  | tcpWrote k now => exact step_tcpWrote h.tracks hrun k
  | tcpWriteFailed => exact step_tcpWriteFailed h.tracks hrun
  | idleTick now => exact step_idleTick h.tracks hrun

/-- At every moment of every copy: what was sent either way is a prefix of what its source gave, in
order; a direction is ended cleanly only after its source ended and everything was forwarded; the
copy succeeds exactly when both directions ended cleanly; and a failure aborts the socket, resets
the stream unless it was finished, and stops the received one unless it was read to its end. -/
theorem relay_faithful (idleMs : Nat) (ack : Bool) (now : Nat) (es : List PumpEvent) :
    let p := after Pump.next (new idleMs ack now) es
    p.send.data <+: p.tcpRead ∧ p.tcpSent <+: p.received ∧
      (p.send.finished = true → p.tcpEof = true ∧ p.send.data = p.tcpRead) ∧
      (p.tcpFin = true → p.quicEof = true ∧ p.tcpSent = p.received) ∧
      ((∃ totals, p.outcome = some (.ok totals)) ↔ p.send.finished = true ∧ p.tcpFin = true) ∧
      (∀ e, p.outcome = some (.error e) → p.tcpRst = true ∧
        p.send.wasReset = !p.send.finished ∧ p.recvStopped = !p.tcpFin) ∧
      ((∀ e, p.outcome ≠ some (.error e)) →
        p.tcpRst = false ∧ p.send.wasReset = false ∧ p.recvStopped = false) := by
  intro p
  have h : p.Faithful := after_of_kept (fun _ ev h => h.next ev) (faithful_new idleMs ack) es
  refine ⟨h.tracks.up.sent_prefix, h.tracks.down.sent_prefix, fun hfin => ?_, fun hfin => ?_,
    ⟨?_, ?_⟩, ?_, ?_⟩
  · rw [h.tracks.finished] at hfin
    obtain ⟨total, hphase⟩ := h.tracks.upDone hfin
    have hup := h.tracks.up
    unfold Up.Forwards at hup
    rw [hphase] at hup
    exact hup
  · rw [h.tracks.fin] at hfin
    obtain ⟨total, hphase⟩ := h.tracks.downDone hfin
    have hdown := h.tracks.down
    unfold Down.Forwards at hdown
    rw [hphase] at hdown
    exact hdown
  · rintro ⟨v, hv⟩
    rw [h.tracks.finished, h.tracks.fin]
    rcases h.verdict with hrun | hjoined | haborted
    · rw [hrun.outcome] at hv
      cases hv
    · exact ⟨hjoined.upTotal, hjoined.downTotal⟩
    · obtain ⟨e, he⟩ := haborted.outcome
      rw [he] at hv
      cases hv
  · rintro ⟨hup, hdown⟩
    rw [h.tracks.finished] at hup
    rw [h.tracks.fin] at hdown
    have hboth : ¬ (p.c2sTotal = none ∨ p.s2cTotal = none) := by
      rintro (hnone | hnone)
      · rw [hnone] at hup
        cases hup
      · rw [hnone] at hdown
        cases hdown
    rcases h.verdict with hrun | hjoined | haborted
    · exact absurd hrun.pending hboth
    · exact hjoined.outcome
    · exact absurd haborted.pending hboth
  · intro e he
    rcases h.verdict with hrun | hjoined | haborted
    · rw [hrun.outcome] at he
      cases he
    · obtain ⟨v, hv⟩ := hjoined.outcome
      rw [hv] at he
      cases he
    · rw [h.tracks.finished, h.tracks.fin, haborted.send, haborted.recv, Option.not_isSome,
        Option.not_isSome]
      exact ⟨haborted.tcp, rfl, rfl⟩
  · intro hne
    rcases h.verdict with hrun | hjoined | haborted
    · exact ⟨hrun.tcp, hrun.send, hrun.recv⟩
    · exact ⟨hjoined.tcp, hjoined.send, hjoined.recv⟩
    · obtain ⟨e, he⟩ := haborted.outcome
      exact absurd he (hne e)

end Pump

end MyQuic2
