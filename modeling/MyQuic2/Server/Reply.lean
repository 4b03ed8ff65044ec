import MyQuic2.Core.Map
import MyQuic2.Mqp.Flow
import MyQuic2.Udp.Fragmenter

/-!
# Replies on the server

A reply from a target's socket is classified by its source: a flow that names the
source is compressed to its id, a flow of the same host is bound to the new source
first, and anything else goes out with its full address. The source is learned
when the connection takes the binding frame.
-/

namespace MyQuic2

/-- Binding frames a rev3 server repeats for a source. -/
def r3ContextK : Nat := 2

/-- How a staged payload is addressed. -/
inductive StageKind where
  | steady (wireId : UInt32)
  | opening (wireId sess : UInt32) (addr : TargetAddr) (src : Bool)
  | inline (sess : UInt32) (addr : TargetAddr) (src : Bool)

/-- The same addressing for a payload that is fragmented. -/
def StageKind.flow : StageKind → FragFlow
  | steady id => .steady id
  | opening id sess addr src => .opening id sess addr src
  | inline sess addr src => .inline sess addr src

/-- What became of a reply's frame. -/
inductive Handoff where
  | taken
  | queued
  | dropped
  deriving DecidableEq

/-- The reply side of one session. -/
structure ReplyState where
  wire : Wire
  sess : UInt32
  flows : SessionFlows
  /-- Binding frames sent so far, for the flows inside their window. -/
  ctxSent : Map UInt32 Nat

namespace ReplyState

section

variable (r : ReplyState) (wireId : UInt32)

/-- Start a new window for the flows that the peer asks for. -/
def syncCtxRepairs (ids : List UInt32) : ReplyState :=
  if r.wire = .rev3 then { r with ctxSent := ids.foldl (fun m id => m.insert id 0) ∅ } else r

/-- The flow owes another binding frame. -/
def contextDue : Bool :=
  r.wire = .rev3 && (r.ctxSent.lookup wireId).any fun sent => sent < r3ContextK

/-- Count a binding frame; the last one of the window confirms the source. -/
def noteCtxSent : ReplyState :=
  if r.wire = .rev3 then
    let sent := min ((r.ctxSent.lookup wireId).getD 0 + 1) 255
    if r3ContextK ≤ sent then
      { r with
        ctxSent := r.ctxSent.erase wireId
        flows := r.flows.modify wireId .markReplySrcAcked }
    else { r with ctxSent := r.ctxSent.insert wireId sent }
  else r

variable (newId : Option UInt32) (src : SocketAddr)

def classifyReplySource : Option SourceMatch :=
  (r.flows.matchSource src).filter fun m => m.binding.state ≠ .closed

/-- Open a flow of the server's own for a source without one. `newId` is the id that the
connection grants: none without full cone, with a full registry, or with no id left. -/
def installUnsolicited : Option FlowBinding × ReplyState :=
  match newId with
  | none => (none, r)
  | some id =>
    if r.flows.isFull then (none, r)
    else
      let b := ((FlowBinding.new id r.sess (.ip src)).setReplySrc src).markOpen
      match r.flows.insert b with
      | some flows => (some b, { r with flows := flows })
      | none => (none, r)

/-- The match that decides the form of the reply. A flow inside its window gets a binding frame
even when the table would compress. -/
def resolveMatch : Option SourceMatch × ReplyState :=
  match r.classifyReplySource src with
  | some (.exact b) => (some (if r.contextDue b.wireId then .rebind b else .exact b), r)
  | some (.rebind b) => (some (.rebind b), r)
  | none =>
    match r.installUnsolicited newId src with
    | (some b, r) => (some (.rebind b), r)
    | (none, r) => (none, r)

/-- The form of a reply. -/
def stageKind (sess : UInt32) (src : SocketAddr) : Option SourceMatch → StageKind
  | some (.exact b) => .steady b.wireId
  | some (.rebind b) => .opening b.wireId sess (.ip src) true
  | none => .inline sess (.ip src) true

/-- Learn the source that a binding frame announced. -/
def learn : ReplyState :=
  ({ r with flows := r.flows.modify wireId (·.setReplySrc src) }).noteCtxSent wireId

/-- Process one reply: the frame that goes out, if any, and the state after it. -/
def handleSessionReply (handoff : Handoff) : Option StageKind × ReplyState :=
  let (m, r) := r.resolveMatch newId src
  let kind := if handoff = .dropped then none else some (stageKind r.sess src m)
  match m with
  | some (.rebind b) => (kind, if handoff = .taken then r.learn b.wireId src else r)
  | _ => (kind, r)

@[simp] lemma sess_noteCtxSent : (r.noteCtxSent wireId).sess = r.sess := by
  unfold noteCtxSent
  dsimp only
  split <;> [split <;> rfl; rfl]

lemma answers_noteCtxSent : (r.noteCtxSent wireId).flows.answers = r.flows.answers := by
  unfold noteCtxSent
  dsimp only
  split
  · split
    · exact SessionFlows.answers_modify _ _ (fun _ => rfl) (fun _ => rfl)
    · rfl
  · rfl

@[simp] lemma sess_learn : (r.learn wireId src).sess = r.sess :=
  sess_noteCtxSent _ wireId

lemma answers_learn :
    (r.learn wireId src).flows.answers = SessionFlows.setAnswer wireId src r.flows.answers :=
  (answers_noteCtxSent _ wireId).trans (SessionFlows.answers_setReplySrc ..)

end

/-- The ways a source is resolved. -/
inductive Resolution (r : ReplyState) (newId : Option UInt32) (src : SocketAddr) :
    Option SourceMatch × ReplyState → Prop where
  /-- A flow that learned the source or targets it. -/
  | known {b : FlowBinding} (hmem : b ∈ r.flows.live)
      (hsrc : b.replySrc = some src ∨ b.target = .ip src) :
      Resolution r newId src (some (.exact b), r)
  /-- A flow that learned the source or is about its host. -/
  | bound {b : FlowBinding} (hmem : b ∈ r.flows.live)
      (hsrc : b.replySrc = some src ∨ b.reaches src = true) :
      Resolution r newId src (some (.rebind b), r)
  | installed {b : FlowBinding} {flows : SessionFlows} (hid : newId = some b.wireId)
      (hdst : b.replyDst = some src) (hins : r.flows.insert b = some flows) :
      Resolution r newId src (some (.rebind b), { r with flows := flows })
  | unknown : Resolution r newId src (none, r)

lemma reaches_of_target {b : FlowBinding} {src : SocketAddr} (h : b.target = .ip src) :
    b.reaches src = true := by
  simp [FlowBinding.reaches, h]

lemma installUnsolicited_spec {r r' : ReplyState} {newId : Option UInt32}
    {src : SocketAddr} {b? : Option FlowBinding} (h : r.installUnsolicited newId src = (b?, r')) :
    Resolution r newId src (b?.map .rebind, r') := by
  unfold installUnsolicited at h
  split at h
  · cases h
    exact .unknown
  rename_i id
  dsimp only at h
  split at h
  · cases h
    exact .unknown
  split at h
  · rename_i flows hins
    cases h
    refine .installed ?_ (FlowBinding.replyDst_markOpen _) hins
    rw [FlowBinding.wireId_markOpen]
    rfl
  · cases h
    exact .unknown

lemma resolveMatch_spec (r : ReplyState) (newId : Option UInt32) (src : SocketAddr) :
    Resolution r newId src (r.resolveMatch newId src) := by
  cases hc : r.classifyReplySource src with
  | none =>
    rw [resolveMatch, hc]
    obtain ⟨b?, r', hins⟩ : ∃ b? r', r.installUnsolicited newId src = (b?, r') := ⟨_, _, rfl⟩
    have hspec := installUnsolicited_spec hins
    rw [hins]
    cases b? <;> exact hspec
  | some m =>
    obtain ⟨hm, -⟩ := Option.filter_eq_some_iff.mp hc
    obtain ⟨hmem, hexact, hrebind⟩ := SessionFlows.matchSource_spec hm
    rw [resolveMatch, hc]
    cases m with
    | exact b =>
      dsimp only
      split
      · exact .bound hmem ((hexact b rfl).imp_right reaches_of_target)
      · exact .known hmem (hexact b rfl)
    | rebind b => exact .bound hmem (hrebind b rfl)

end ReplyState

end MyQuic2
