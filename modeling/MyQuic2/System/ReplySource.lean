import MyQuic2.Client.Dispatch
import MyQuic2.Dns.Policy
import MyQuic2.Server.Reply
import MyQuic2.Udp.FrameSet

/-!
# The source of a reply, from the server to the application

The server turns each reply into one frame and the client turns each frame into
one reply for the application. Frames are delivered in order and without loss, so
both ends move in one step per reply. The source the application sees is the
actual one as long as both ends agree on what a bare id stands for.
-/

namespace MyQuic2

open ClientConn SessionFlows ReplyState

namespace StageKind

/-- The frame of a payload. -/
def encode (w : Wire) (payload : Bytes) (limit : Nat) : StageKind → Option Bytes
  | steady id => w.encodeDataSteady id payload limit
  | opening id sess addr src => w.encodeDataOpen id sess addr src payload limit
  | inline sess addr src => w.encodeDataInline sess addr src payload limit

/-- What the peer decodes from that frame. -/
def view (w : Wire) (payload : Bytes) : StageKind → Wire.DataView
  | steady id => ⟨some id, none, none, false, payload⟩
  | opening id sess addr src => ⟨some id, w.openSess id sess src, some addr.clearFlow, src, payload⟩
  | inline sess addr src => ⟨none, some sess, some addr.clearFlow, w.inlineSrc src, payload⟩

lemma decodeData_encode {w : Wire} {payload frame : Bytes} {limit : Nat} {kind : StageKind}
    (h : kind.encode w payload limit = some frame) :
    w.decodeData frame = .ok (kind.view w payload) := by
  cases kind with
  | steady id => exact Wire.decodeData_of_steady h
  | opening id sess addr src => exact Wire.decodeData_of_open h
  | inline sess addr src => exact Wire.decodeData_of_inline h

end StageKind

/-- The client takes a payload: from one frame, or reassembled from a complete frame set. A set
whose first fragment lacks the session is refused. -/
def ClientConn.receive (cached : String → UInt16 → Option SocketAddr) (w : Wire) (c : ClientConn)
    (kind : StageKind) (fragmented : Bool) (payload : Bytes) : Option StagedReply × ClientConn :=
  if fragmented then
    if kind.flow.Described w then c.dispatchFrag cached w (kind.flow.whole w payload) else (none, c)
  else c.dispatchData cached w (kind.view w payload)

/-- A reply as it reaches the server. -/
structure UdpReply where
  srcRaw : SocketAddr
  payload : Bytes
  /-- Id for an unsolicited source, when the connection grants one. -/
  newId : Option UInt32
  handoff : Handoff
  fragmented : Bool

/-- The actual source, with an embedded address written out. -/
def UdpReply.src (e : UdpReply) : SocketAddr := .new (unmap e.srcRaw.ip) e.srcRaw.port

inductive DownEvent where
  | reply (e : UdpReply)
  /-- The client's confirmation of a source arrives. -/
  | flowAck (wireId : UInt32)
  /-- The client's request for contexts is taken up. -/
  | needContext (ids : List UInt32)

/-- Both ends of one session. -/
structure Downlink where
  server : ReplyState
  client : ClientConn

namespace Downlink

variable (cached : String → UInt16 → Option SocketAddr)

section

variable (d : Downlink) (ev : DownEvent)

/-- One event, with the reply that reaches the application. -/
def step : DownEvent → Option StagedReply × Downlink
  | .reply e =>
    match d.server.handleSessionReply e.newId e.src e.handoff with
    | (none, server) => (none, { d with server := server })
    | (some kind, server) =>
      let out := d.client.receive cached d.server.wire kind e.fragmented e.payload
      (out.1, ⟨server, out.2⟩)
  | .flowAck id =>
    (none, { d with server := { d.server with
      flows := d.server.flows.modify id fun b => b.markOpen.markReplySrcAcked } })
  | .needContext ids => (none, { d with server := d.server.syncCtxRepairs ids })

/-- The two ends after an event. -/
def next : Downlink := (step cached d ev).2

/-- The reply that reaches the application carries the actual source. -/
def Attributed : DownEvent → Prop
  | .reply e => ∀ out, (step cached d (.reply e)).1 = some out →
      out.dst = e.src ∧ out.session = d.server.sess ∧ out.payload = e.payload
  | _ => True

/-- Ids are distinct, and a flow that the client knows answers there from the source it answers
from at the server. -/
structure Agree (answers : List (UInt32 × Option SocketAddr)) (sess : UInt32)
    (registry : Map UInt32 FlowBinding) : Prop where
  distinct : (answers.map Prod.fst).Nodup
  agree : ∀ id dst, (id, dst) ∈ answers → ∀ c, registry.lookup id = some c →
    c.replyDst = dst ∧ c.session = sess

/-- The two ends agree on their flows. -/
def InSync : Prop :=
  Agree d.server.flows.answers d.server.sess d.client.registry

/-- The frame may leave the two ends with different sources: it waits in the stager, so the
server does not learn, or it is a source frame of rev3 in fragments, which the client
refuses. -/
def mayDiverge (e : UdpReply) (b : FlowBinding) : Bool :=
  e.handoff = .queued || (d.server.wire = .rev3 && e.fragmented && !Wire.wireIdServerOwned b.wireId)

/-- A flow whose target is the source of the reply answers from no other source, nor does any
flow of that host when the frame may leave the two ends with different sources. A granted id
is new at both ends. -/
def Steady : DownEvent → Prop
  | .reply e =>
    (∀ b ∈ d.server.flows.live,
      b.target = .ip e.src ∨ (b.reaches e.src = true ∧ d.mayDiverge e b = true) →
        b.replyDst = some e.src) ∧
    ∀ id, e.newId = some id → Wire.wireIdServerOwned id = true ∧
      d.client.registry.lookup id = none ∧ ∀ b ∈ d.server.flows.live, b.wireId ≠ id
  | _ => True

end

namespace Agree

variable {answers : List (UInt32 × Option SocketAddr)} {sess : UInt32} {c : ClientConn}
  {id : UInt32} {src : SocketAddr} {payload : Bytes} {out : Option StagedReply × ClientConn}

lemma of_reports (h : Agree answers sess c.registry) (hout : c.Reports id payload out) :
    Agree answers sess out.2.registry := by
  refine ⟨h.distinct, ?_⟩
  intro id' dst hmem b' hb'
  obtain ⟨b, hb, hdst, hsess⟩ := hout.kept id' b' hb'
  rw [hdst, hsess]
  exact h.agree id' dst hmem b hb

lemma of_teaches (h : Agree answers sess c.registry) (hout : c.Teaches id sess src payload out) :
    Agree (setAnswer id src answers) sess out.2.registry := by
  have hfst : (setAnswer id src answers).map Prod.fst = answers.map Prod.fst := by
    rw [setAnswer, List.map_map]
    apply List.map_congr_left
    intro p _
    simp only [Function.comp_apply]
    split <;> rfl
  refine ⟨hfst ▸ h.distinct, ?_⟩
  intro id' dst hmem b' hb'
  obtain ⟨⟨id₀, dst₀⟩, hmem₀, heq⟩ := List.mem_map.mp hmem
  by_cases hid : id₀ = id
  · rw [if_pos hid, Prod.mk.injEq] at heq
    obtain ⟨rfl, rfl⟩ := heq
    exact hout.own b' (hid ▸ hb')
  rw [if_neg hid, Prod.mk.injEq] at heq
  obtain ⟨rfl, rfl⟩ := heq
  rw [hout.other id₀ hid] at hb'
  exact h.agree id₀ dst₀ hmem₀ b' hb'

lemma insert {t t' : SessionFlows} {b : FlowBinding} (h : Agree t.answers sess c.registry)
    (hins : t.insert b = some t') (hnew : ∀ x ∈ t.live, x.wireId ≠ b.wireId)
    (hunknown : c.registry.lookup b.wireId = none) : Agree t'.answers sess c.registry := by
  obtain ⟨-, hmem, hnodup⟩ := insert_new hins hnew
  refine ⟨hnodup h.distinct, ?_⟩
  intro id dst hin c' hc'
  obtain ⟨x, hx, heq⟩ := List.mem_map.mp hin
  rw [Prod.mk.injEq] at heq
  obtain ⟨rfl, rfl⟩ := heq
  rcases hmem x hx with rfl | hold
  · rw [hunknown] at hc'
    cases hc'
  · exact h.agree _ _ (mem_answers hold) c' hc'

end Agree

section

variable {cached : String → UInt16 → Option SocketAddr} {w : Wire} {c : ClientConn}
  {sess : UInt32} {src : SocketAddr}

variable {fragmented : Bool}

variable (id : UInt32) (payload : Bytes)

lemma receive_steady :
    c.Reports id payload (c.receive cached w (.steady id) fragmented payload) := by
  have hdata := dispatchData_steady cached w c id payload
  cases fragmented with
  | false => exact hdata
  | true =>
    have hfrag : c.receive cached w (.steady id) true payload =
        c.dispatchFrag cached w ⟨some id, none, none, false, payload⟩ := rfl
    rw [hfrag, dispatchFrag_eq]
    exact hdata

/-- A binding frame teaches its source, unless it comes in fragments without its session. -/
lemma receive_opening {id : UInt32} (hsrc : src.clearFlow = src)
    (hknown : ∀ b, c.registry.lookup id = some b → b.session = sess) :
    c.Teaches id sess src payload
        (c.receive cached w (.opening id sess (.ip src) true) fragmented payload) ∨
      (w = .rev3 ∧ fragmented = true ∧ Wire.wireIdServerOwned id = false ∧
        c.receive cached w (.opening id sess (.ip src) true) fragmented payload = (none, c)) := by
  have haddr : (TargetAddr.ip src).clearFlow = .ip src := congrArg TargetAddr.ip hsrc
  have hs : w.openSess id sess true = none ∨ w.openSess id sess true = some sess := by
    cases w with
    | rev2 => exact .inr rfl
    | rev3 =>
      simp only [Wire.openSess]
      split
      · exact .inl rfl
      · exact .inr rfl
  cases fragmented with
  | false =>
    left
    have hview : c.receive cached w (.opening id sess (.ip src) true) false payload =
        c.dispatchData cached w
          ⟨some id, w.openSess id sess true, some (.ip src), true, payload⟩ := by
      simp [receive, StageKind.view, haddr]
    rw [hview]
    exact dispatchData_announced cached payload hs hknown
  | true =>
    by_cases hdesc : w.openSess id sess true = some sess
    · left
      have hwhole : c.receive cached w (.opening id sess (.ip src) true) true payload =
          c.dispatchFrag cached w ⟨some id, some sess, some (.ip src), true, payload⟩ := by
        rw [receive, if_pos rfl]
        refine (if_pos hdesc).trans ?_
        simp [StageKind.flow, FragFlow.whole, FragFlow.context, FragFlow.wireId, haddr]
      rw [hwhole, dispatchFrag_eq]
      exact dispatchData_announced cached payload (.inr rfl) hknown
    right
    cases w with
    | rev2 => exact absurd rfl hdesc
    | rev3 =>
      refine ⟨rfl, rfl, ?_, ?_⟩
      · cases hown : Wire.wireIdServerOwned id with
        | false => rfl
        | true =>
          exfalso
          apply hdesc
          simp [Wire.openSess, hown]
      · rw [receive, if_pos rfl]
        exact if_neg hdesc

lemma receive_inline (hsrc : src.clearFlow = src) :
    c.receive cached w (.inline sess (.ip src) true) fragmented payload =
      (some ⟨sess, src, payload⟩, c) := by
  have haddr : (TargetAddr.ip src).clearFlow = .ip src := congrArg TargetAddr.ip hsrc
  cases fragmented with
  | false =>
    simp [receive, StageKind.view, haddr, dispatchData, addrDst]
  | true =>
    rw [receive, if_pos rfl]
    refine (if_pos trivial).trans ?_
    simp [StageKind.flow, FragFlow.whole, FragFlow.context, FragFlow.wireId, haddr,
      dispatchFrag, addrDst]

end

section

variable {cached : String → UInt16 → Option SocketAddr} {d : Downlink} {e : UdpReply}

lemma clearFlow_src : e.src.clearFlow = e.src := by
  rw [UdpReply.src]
  cases unmap e.srcRaw.ip <;> rfl

lemma step_dropped {m : Option SourceMatch} (hsync : d.InSync)
    (hdrop : e.handoff = .dropped) (hm : d.server.resolveMatch e.newId e.src = (m, d.server)) :
    d.Attributed cached (.reply e) ∧ (next cached d (.reply e)).InSync := by
  have hstep : step cached d (.reply e) = (none, d) := by
    rcases m with _ | ⟨b⟩ | ⟨b⟩ <;> simp [step, handleSessionReply, hm, hdrop]
  rw [Attributed, next, hstep]
  exact ⟨nofun, hsync⟩

lemma step_steady {b : FlowBinding} (hsync : d.InSync) (hmem : b ∈ d.server.flows.live)
    (hdst : b.replyDst = some e.src)
    (hm : d.server.resolveMatch e.newId e.src = (some (.exact b), d.server)) :
    d.Attributed cached (.reply e) ∧ (next cached d (.reply e)).InSync := by
  by_cases hdrop : e.handoff = .dropped
  · exact step_dropped hsync hdrop hm
  have hstep : step cached d (.reply e) =
      ((d.client.receive cached d.server.wire (.steady b.wireId) e.fragmented e.payload).1,
        ⟨d.server, (d.client.receive cached d.server.wire (.steady b.wireId) e.fragmented
          e.payload).2⟩) := by
    simp [step, handleSessionReply, hm, hdrop, stageKind]
  have hout : d.client.Reports b.wireId e.payload (d.client.receive cached d.server.wire
      (.steady b.wireId) e.fragmented e.payload) :=
    receive_steady b.wireId e.payload
  rw [Attributed, next, hstep]
  refine ⟨?_, Agree.of_reports hsync hout⟩
  intro out hstaged
  obtain ⟨c, hc, hcdst, hcsess, hpayload⟩ := hout.staged out hstaged
  obtain ⟨hagree, hsess⟩ := hsync.agree _ _ (mem_answers hmem) c hc
  rw [hagree, hdst, Option.some.injEq] at hcdst
  exact ⟨hcdst.symm, hcsess.trans hsess, hpayload⟩

/-- A binding frame leaves both ends with the announced source, or it changes nothing that they
answer from. -/
lemma step_opening {r : ReplyState} {b : FlowBinding} (hsess : r.sess = d.server.sess)
    (hagree : Agree r.flows.answers r.sess d.client.registry)
    (hmem : (b.wireId, b.replyDst) ∈ r.flows.answers)
    (hdst : d.mayDiverge e b = true → b.replyDst = some e.src)
    (hm : d.server.resolveMatch e.newId e.src = (some (.rebind b), r)) :
    d.Attributed cached (.reply e) ∧ (next cached d (.reply e)).InSync := by
  have hself : d.mayDiverge e b = true →
      setAnswer b.wireId e.src r.flows.answers = r.flows.answers := by
    intro hdiv
    exact setAnswer_eq_self hagree.distinct (hdst hdiv ▸ hmem)
  have hknown : ∀ c, d.client.registry.lookup b.wireId = some c → c.session = r.sess :=
    fun c hc => (hagree.agree _ _ hmem c hc).2
  obtain ⟨out, hout⟩ : ∃ out, d.client.receive cached d.server.wire
    (.opening b.wireId r.sess (.ip e.src) true) e.fragmented e.payload = out := ⟨_, rfl⟩
  have hframe := hout ▸ receive_opening e.payload (clearFlow_src) hknown
  have hlearn : Agree (r.learn b.wireId e.src).flows.answers (r.learn b.wireId e.src).sess
      out.2.registry := by
    rw [answers_learn, sess_learn]
    rcases hframe with hteach | ⟨hw, hfrag, hown, hrefused⟩
    · exact hagree.of_teaches hteach
    · rw [hself (by simp [mayDiverge, hw, hfrag, hown]), hrefused]
      exact hagree
  have hattr : ∀ reply, out.1 = some reply →
      reply.dst = e.src ∧ reply.session = d.server.sess ∧ reply.payload = e.payload := by
    intro reply hreply
    rcases hframe with hteach | ⟨-, -, -, hrefused⟩
    · exact hsess ▸ hteach.staged reply hreply
    · rw [hrefused] at hreply
      cases hreply
  cases hhand : e.handoff with
  | dropped =>
    have hstep : step cached d (.reply e) = (none, ⟨r, d.client⟩) := by
      simp [step, handleSessionReply, hm, hhand]
    rw [Attributed, next, hstep]
    exact ⟨nofun, hagree⟩
  | taken =>
    have hstep : step cached d (.reply e) = (out.1, ⟨r.learn b.wireId e.src, out.2⟩) := by
      simp [step, handleSessionReply, hm, hhand, stageKind, hout]
    rw [Attributed, next, hstep]
    exact ⟨hattr, hlearn⟩
  | queued =>
    have hstep : step cached d (.reply e) = (out.1, ⟨r, out.2⟩) := by
      simp [step, handleSessionReply, hm, hhand, stageKind, hout]
    rw [Attributed, next, hstep]
    refine ⟨hattr, ?_⟩
    rw [answers_learn, sess_learn, hself (by simp [mayDiverge, hhand])] at hlearn
    exact hlearn

lemma step_inline (hsync : d.InSync)
    (hm : d.server.resolveMatch e.newId e.src = (none, d.server)) :
    d.Attributed cached (.reply e) ∧ (next cached d (.reply e)).InSync := by
  by_cases hdrop : e.handoff = .dropped
  · exact step_dropped hsync hdrop hm
  have hstep : step cached d (.reply e) = (some ⟨d.server.sess, e.src, e.payload⟩, d) := by
    simp [step, handleSessionReply, hm, hdrop, stageKind, receive_inline e.payload (clearFlow_src)]
  rw [Attributed, next, hstep]
  refine ⟨?_, hsync⟩
  rintro out ⟨⟩
  exact ⟨rfl, rfl, rfl⟩

/-- A reply under the condition is attributed and keeps the two ends in agreement. -/
lemma step_reply (hsync : d.InSync) (hsteady : d.Steady (.reply e)) :
    d.Attributed cached (.reply e) ∧ (next cached d (.reply e)).InSync := by
  obtain ⟨hflows, hid⟩ := hsteady
  obtain ⟨res, hres⟩ : ∃ res, d.server.resolveMatch e.newId e.src = res := ⟨_, rfl⟩
  have hspec := resolveMatch_spec d.server e.newId e.src
  rw [hres] at hspec
  cases hspec with
  | known hmem hsrc =>
    refine step_steady hsync hmem ?_ hres
    rcases hsrc with hlearned | htarget
    · exact FlowBinding.replyDst_of_replySrc hlearned
    · exact hflows _ hmem (.inl htarget)
  | bound hmem hsrc =>
    refine step_opening rfl hsync (mem_answers hmem) ?_ hres
    intro hdiv
    rcases hsrc with hlearned | hreach
    · exact FlowBinding.replyDst_of_replySrc hlearned
    · exact hflows _ hmem (.inr ⟨hreach, hdiv⟩)
  | installed hnew hdst hins =>
    obtain ⟨-, hunknown, hfresh⟩ := hid _ hnew
    obtain ⟨hmem, -, -⟩ := insert_new hins hfresh
    have hagree := Agree.insert hsync hins hfresh hunknown
    refine step_opening ?_ hagree (mem_answers hmem) (fun _ => hdst) hres
    rfl
  | unknown => exact step_inline hsync hres

end

/-- Every event under the condition is attributed and keeps the two ends in agreement. -/
lemma step_inSync (cached : String → UInt16 → Option SocketAddr) (d : Downlink)
    (ev : DownEvent) (hsync : d.InSync) (hsteady : d.Steady ev) :
    d.Attributed cached ev ∧ (next cached d ev).InSync := by
  cases ev with
  | reply e => exact step_reply hsync hsteady
  | flowAck id =>
    refine ⟨trivial, ?_⟩
    have hanswers : (d.server.flows.modify id fun b => b.markOpen.markReplySrcAcked).answers =
        d.server.flows.answers :=
      answers_modify _ _ (fun b => b.wireId_markOpen) (fun b => b.replyDst_markOpen)
    rw [InSync, next, step, hanswers]
    exact hsync
  | needContext ids =>
    refine ⟨trivial, ?_⟩
    rw [InSync, next, step, syncCtxRepairs]
    split <;> exact hsync

/-- From ends that agree, along any run whose events all meet the condition, every reply that
reaches the application carries its actual source. -/
theorem replies_attributed (cached : String → UInt16 → Option SocketAddr) (d : Downlink)
    (events : List DownEvent) (hsync : d.InSync) (hsteady : Along (next cached) Steady d events) :
    Along (next cached) (Attributed cached) d events :=
  Along.of_invariant (step_inSync cached) hsync hsteady

/-- Two ends that have one flow in common, to port 53 of a host, with nothing learned. -/
def oneFlow (w : Wire) : Downlink where
  server := ⟨w, 7, [some (.new 2 7 (.ip (.v4 (.new 8 8 8 8) 53)))], ∅⟩
  client := ⟨(∅ : Map UInt32 FlowBinding).insert 2 (.new 2 7 (.ip (.v4 (.new 8 8 8 8) 53))), 4096⟩

lemma inSync_oneFlow (w : Wire) : (oneFlow w).InSync := by
  refine ⟨List.nodup_singleton _, ?_⟩
  intro id dst hmem c hc
  obtain ⟨rfl, rfl⟩ := Prod.mk.inj (List.mem_singleton.mp hmem)
  have hlookup : (oneFlow w).client.registry.lookup 2 =
    some (.new 2 7 (.ip (.v4 (.new 8 8 8 8) 53))) := AList.lookup_insert _
  obtain rfl := Option.some.inj (hlookup.symm.trans hc)
  exact ⟨rfl, rfl⟩

/-- A reply from a port of that host, in one frame that the connection takes. -/
def fromPort (port : UInt16) : DownEvent :=
  .reply ⟨.v4 (.new 8 8 8 8) port, [1], none, .taken, false⟩

/-- A host that answers from its port, then twice from another one. -/
theorem replies_attributed_moved :
    (oneFlow .rev3).InSync ∧
      Along (next fun _ _ => none) (Attributed fun _ _ => none) (oneFlow .rev3)
        [fromPort 53, fromPort 99, fromPort 99] := by
  refine ⟨inSync_oneFlow .rev3, replies_attributed _ _ _ (inSync_oneFlow .rev3) ?_⟩
  refine ⟨⟨?_, nofun⟩, ⟨?_, nofun⟩, ⟨?_, nofun⟩, trivial⟩ <;> decide +kernel

/-- A host that answers twice from another port and then from the flow's own: on either wire the
application sees the other port as the source of the last reply. -/
theorem reply_from_target_misattributed :
    ((oneFlow .rev2).InSync ∧
      ¬ Along (next fun _ _ => none) (Attributed fun _ _ => none) (oneFlow .rev2)
        [fromPort 99, fromPort 99, fromPort 53]) ∧
    (oneFlow .rev3).InSync ∧
      ¬ Along (next fun _ _ => none) (Attributed fun _ _ => none) (oneFlow .rev3)
        [fromPort 99, fromPort 99, fromPort 53] := by
  refine ⟨⟨inSync_oneFlow .rev2, ?_⟩, inSync_oneFlow .rev3, ?_⟩ <;>
  · rintro ⟨-, -, hlast, -⟩
    obtain ⟨hsrc, -⟩ := hlast ⟨7, .v4 (.new 8 8 8 8) 99, [1]⟩ (by decide +kernel)
    exact absurd hsrc (by decide +kernel)

end Downlink

end MyQuic2
