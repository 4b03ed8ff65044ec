import MyQuic2.Mqp.Flow
import MyQuic2.Udp.Reassembler

/-!
# Replies on the client

The dispatcher turns an inbound frame into a reply for the application. A frame
with an address names the source itself and teaches it to the flow; a frame with
an id alone takes the source the flow has learned, or else its target.
-/

namespace MyQuic2

open Option FlowBinding

/-- The flows of a client connection, by id. -/
structure ClientConn where
  registry : Map UInt32 FlowBinding
  cap : Nat

/-- A reply for the application. -/
structure StagedReply where
  session : UInt32
  dst : SocketAddr
  payload : Bytes
  deriving DecidableEq

namespace ClientConn

section

-- The thread's cache of resolved names.
variable (cached : String → UInt16 → Option SocketAddr)

/-- The source an address names; a domain only from the cache. -/
def addrDst : TargetAddr → Option SocketAddr
  | .ip dst => some dst
  | .domain host port => cached host port

section

variable (w : Wire) (c : ClientConn) (id : UInt32) (sess : Option UInt32) (addr : Option TargetAddr)

/-- Install a flow of the server's own that a binding frame announces. -/
def installServerFlow : Option FlowBinding × ClientConn :=
  if !Wire.wireIdServerOwned id then (none, c)
  else
    match sess, addr with
    | some sess, some addr =>
      match addrDst cached addr with
      | none => (none, c)
      | some src =>
        let b := ((new id sess (.ip src)).setReplySrc src).markOpen
        if c.registry.size < c.cap then
          (some b, { c with registry := c.registry.insert id b })
        else (none, c)
    | _, _ => (none, c)

/-- The flow of an id. An unknown one is installed when the frame announces it; on rev3 a bare
id of the server's own asks for its context instead. -/
def flowFor : Option FlowBinding × ClientConn :=
  match c.registry.lookup id with
  | some b => (some b, c)
  | none =>
    if w = .rev3 && addr.isNone && Wire.wireIdServerOwned id then (none, c)
    else c.installServerFlow cached id sess addr

/-- The source that a frame teaches. -/
def taught (src : Bool) (addr : Option TargetAddr) : Option SocketAddr :=
  if src then addr.bind (addrDst cached) else none

/-- One DATA frame. -/
def dispatchData (f : Wire.DataView) : Option StagedReply × ClientConn :=
  match f.wireId with
  | none =>
    match f.sess, f.addr with
    | some sess, some addr => ((addrDst cached addr).map fun dst => ⟨sess, dst, f.payload⟩, c)
    | _, _ => (none, c)
  | some id =>
    match c.flowFor cached w id f.sess f.addr with
    | (none, c) => (none, c)
    | (some b, c) =>
      if f.sess.any fun s => s ≠ b.session then (none, c)
      else
        let b := match taught cached f.src f.addr with
          | some src => b.setReplySrc src
          | none => b
        let b := b.markOpen
        (b.replyDst.map fun dst => ⟨b.session, dst, f.payload⟩,
          { c with registry := c.registry.insert id b })

/-- One reassembled payload. -/
def dispatchFrag (a : Assembled) : Option StagedReply × ClientConn :=
  match a.wireId with
  | none =>
    match a.sess, a.addr with
    | some sess, some addr => ((addrDst cached addr).map fun dst => ⟨sess, dst, a.payload⟩, c)
    | _, _ => (none, c)
  | some id =>
    match c.flowFor cached w id a.sess a.addr with
    | (none, c) => (none, c)
    | (some b, c) =>
      if a.sess.any fun s => s ≠ b.session then (none, c)
      else
        let b := b.markOpen
        let b := match taught cached a.src a.addr with
          | some src => b.setReplySrc src
          | none => b
        ((taught cached a.src a.addr <|> b.replyDst).map fun dst => ⟨b.session, dst, a.payload⟩,
          { c with registry := c.registry.insert id b })

/-- A reassembled payload is dispatched as one DATA frame with the same fields would be. -/
lemma dispatchFrag_eq (a : Assembled) :
    c.dispatchFrag cached w a =
      c.dispatchData cached w ⟨a.wireId, a.sess, a.addr, a.src, a.payload⟩ := by
  unfold dispatchFrag dispatchData
  cases a.wireId with
  | none => rfl
  | some id =>
    dsimp only
    cases c.flowFor cached w id a.sess a.addr with
    | mk b? c' =>
      cases b? with
      | none => rfl
      | some b =>
        cases taught cached a.src a.addr with
        | none => rfl
        | some src => simp [markOpen_setReplySrc]

end

/-- The reply carries the source that the flow answers from, and no flow answers from another
one afterwards. -/
structure Reports (c : ClientConn) (id : UInt32) (payload : Bytes)
    (out : Option StagedReply × ClientConn) : Prop where
  staged : ∀ r, out.1 = some r → ∃ b, c.registry.lookup id = some b ∧
    b.replyDst = some r.dst ∧ r.session = b.session ∧ r.payload = payload
  kept : ∀ id' b', out.2.registry.lookup id' = some b' → ∃ b, c.registry.lookup id' = some b ∧
    b'.replyDst = b.replyDst ∧ b'.session = b.session

/-- The reply carries the announced source, and the flow answers from it afterwards. -/
structure Teaches (c : ClientConn) (id sess : UInt32) (src : SocketAddr) (payload : Bytes)
    (out : Option StagedReply × ClientConn) : Prop where
  staged : ∀ r, out.1 = some r → r.dst = src ∧ r.session = sess ∧ r.payload = payload
  other : ∀ id', id' ≠ id → out.2.registry.lookup id' = c.registry.lookup id'
  own : ∀ b, out.2.registry.lookup id = some b → b.replyDst = some src ∧ b.session = sess

lemma dispatchData_steady (w : Wire) (c : ClientConn) (id : UInt32) (payload : Bytes) :
    c.Reports id payload (c.dispatchData cached w ⟨some id, none, none, false, payload⟩) := by
  cases hb : c.registry.lookup id with
  | none =>
    have hflow : c.flowFor cached w id none none = (none, c) := by
      rw [flowFor, hb]
      simp [installServerFlow]
    have hdata : c.dispatchData cached w ⟨some id, none, none, false, payload⟩ = (none, c) := by
      simp [dispatchData, hflow]
    rw [hdata]
    exact ⟨nofun, fun id' b' h => ⟨b', h, rfl, rfl⟩⟩
  | some b =>
    have hflow : c.flowFor cached w id none none = (some b, c) := by rw [flowFor, hb]
    have hdata : c.dispatchData cached w ⟨some id, none, none, false, payload⟩ =
        (b.replyDst.map fun dst => ⟨b.session, dst, payload⟩,
          { c with registry := c.registry.insert id b.markOpen }) := by
      simp [dispatchData, hflow, taught]
    rw [hdata]
    refine ⟨?_, ?_⟩
    · intro r hr
      obtain ⟨dst, hdst, rfl⟩ := map_eq_some_iff.mp hr
      exact ⟨b, hb, hdst, rfl, rfl⟩
    intro id' b' hb'
    rcases Map.lookup_insert_cases hb' with ⟨rfl, rfl⟩ | ⟨-, hb'⟩
    · exact ⟨b, hb, b.replyDst_markOpen, b.session_markOpen⟩
    · exact ⟨b', hb', rfl, rfl⟩

variable {c : ClientConn} {id : UInt32} {s : Option UInt32}

/-- A flow that a source frame finds or installs is of the named session. -/
lemma flowFor_announced {w : Wire} {c' : ClientConn} {sess : UInt32} {src : SocketAddr}
    {b : FlowBinding} (hs : s = none ∨ s = some sess)
    (hknown : ∀ b, c.registry.lookup id = some b → b.session = sess)
    (h : c.flowFor cached w id s (some (.ip src)) = (some b, c')) :
    b.session = sess ∧ ∀ id', id' ≠ id → c'.registry.lookup id' = c.registry.lookup id' := by
  cases hb : c.registry.lookup id with
  | some b₀ =>
    rw [flowFor, hb] at h
    cases h
    exact ⟨hknown b hb, fun _ _ => rfl⟩
  | none =>
    rw [flowFor, hb] at h
    simp only [isNone_some, Bool.and_false, Bool.false_and, Bool.false_eq_true, if_false] at h
    unfold installServerFlow at h
    split at h
    · cases h
    rcases hs with rfl | rfl
    · cases h
    simp only [addrDst] at h
    split at h
    · cases h
      exact ⟨session_markOpen _, fun id' hid => AList.lookup_insert_ne hid⟩
    · cases h

lemma flowFor_refused {w : Wire} {c' : ClientConn} {addr : Option TargetAddr}
    (h : c.flowFor cached w id s addr = (none, c')) : c' = c ∧ c.registry.lookup id = none := by
  cases hb : c.registry.lookup id with
  | some b =>
    rw [flowFor, hb] at h
    cases h
  | none =>
    rw [flowFor, hb] at h
    refine ⟨?_, rfl⟩
    unfold installServerFlow at h
    repeat' split at h
    all_goals cases h
    all_goals rfl

lemma dispatchData_announced {w : Wire} {sess : UInt32} {src : SocketAddr} (payload : Bytes)
    (hs : s = none ∨ s = some sess)
    (hknown : ∀ b, c.registry.lookup id = some b → b.session = sess) :
    c.Teaches id sess src payload
      (c.dispatchData cached w ⟨some id, s, some (.ip src), true, payload⟩) := by
  obtain ⟨b?, c', hflow⟩ : ∃ b? c', c.flowFor cached w id s (some (.ip src)) = (b?, c') :=
    ⟨_, _, rfl⟩
  cases b? with
  | none =>
    obtain ⟨rfl, hnone⟩ := flowFor_refused cached hflow
    have hdata : c'.dispatchData cached w ⟨some id, s, some (.ip src), true, payload⟩ =
        (none, c') := by
      simp [dispatchData, hflow]
    rw [hdata]
    exact ⟨nofun, fun _ _ => rfl, fun b hb => by rw [hnone] at hb; cases hb⟩
  | some b =>
    obtain ⟨hsess, hother⟩ := flowFor_announced cached hs hknown hflow
    have hsame : (s.any fun s => s ≠ b.session) = false := by
      rcases hs with rfl | rfl <;> simp [hsess]
    have hdata : c.dispatchData cached w ⟨some id, s, some (.ip src), true, payload⟩ =
        (some ⟨sess, src, payload⟩,
          { c' with registry := c'.registry.insert id (b.setReplySrc src).markOpen }) := by
      simp only [dispatchData, hflow, hsame, Bool.false_eq_true, if_false, taught, if_true,
        bind_some, addrDst, replyDst_markOpen,
        replyDst_setReplySrc, session_markOpen, map_some]
      rw [← hsess]
      rfl
    rw [hdata]
    refine ⟨?_, ?_, ?_⟩
    · rintro r ⟨⟩
      exact ⟨rfl, rfl, rfl⟩
    · intro id' hid
      exact (AList.lookup_insert_ne hid).trans (hother id' hid)
    · intro b' hb'
      rw [AList.lookup_insert, some.injEq] at hb'
      subst hb'
      exact ⟨replyDst_markOpen _, (session_markOpen _).trans hsess⟩

end

end ClientConn

end MyQuic2
