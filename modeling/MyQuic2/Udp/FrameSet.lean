import MyQuic2.Udp.Reassembler

/-!
# Complete frame sets

The frames of one payload that was sent without failure form a frame set: frame
`i` decodes to a fragment that carries piece `i` of the payload, all under one
key, and the first one carries the whole binding context.
-/

namespace MyQuic2

open Reassembler

namespace FragFlow

/-- The key under which the fragments of a flow meet. -/
def key (fragId : UInt32) : FragFlow → FragKey
  | steady id => ⟨false, id, fragId⟩
  | opening id _ _ _ => ⟨false, id, fragId⟩
  | inline sess _ _ => ⟨true, sess, fragId⟩

/-- The flow id; the inline form has none. -/
def wireId : FragFlow → Option UInt32
  | steady id => some id
  | opening id _ _ _ => some id
  | inline _ _ _ => none

/-- The binding context of a flow form, as the wire carries it: an address loses its flow label,
and the inline form of rev3 has no source mark. -/
def context (w : Wire) : FragFlow → Option FragCtx
  | steady _ => none
  | opening _ sess addr src => some ⟨sess, addr.clearFlow, src⟩
  | inline sess addr src => some ⟨sess, addr.clearFlow, w.inlineSrc src⟩

/-- The first fragment carries the session with the address. -/
def Described (w : Wire) : FragFlow → Prop
  | steady _ => True
  | opening id sess _ src => w.openSess id sess src = some sess
  | inline _ _ _ => True

instance (w : Wire) : DecidablePred (Described w)
  | steady _ => inferInstanceAs (Decidable True)
  | opening _ _ _ _ => inferInstanceAs (Decidable (_ = _))
  | inline _ _ _ => inferInstanceAs (Decidable True)

/-- The payload with the id, the session and the address of its flow. -/
def whole (w : Wire) (flow : FragFlow) (payload : Bytes) : Assembled where
  wireId := flow.wireId
  sess := (flow.context w).map FragCtx.sess
  addr := (flow.context w).map FragCtx.addr
  src := ((flow.context w).map FragCtx.src).getD false
  payload := payload

end FragFlow

/-- A datagram that decodes to fragment `i` with the given chunk and the context `carried`. -/
structure IsFragment (w : Wire) (key : FragKey) (ctx : Option FragCtx) (total : UInt8) (i : Nat)
    (chunk d : Bytes) (f : Wire.FragView) (carried : Option FragCtx) : Prop where
  decoded : w.decodeFrag d = .ok f
  admitted : identify d f = some (key, carried)
  carried_or : carried = none ∨ carried = ctx
  /-- The first fragment carries the whole context. -/
  carried_first : i = 0 → carried = ctx
  idx_eq : f.idx.toNat = i
  total_eq : f.total = total
  chunk_eq : f.chunk = chunk
  wireId_eq : f.wireId = if key.inline then none else some key.id
  src_eq : f.src = (carried.map FragCtx.src).getD false

/-- The frames of one payload. -/
structure FrameSet (w : Wire) (key : FragKey) (ctx : Option FragCtx) (payload : Bytes) where
  total : UInt8
  first : Nat
  unit : Nat
  frames : List Bytes
  covers : Covers first unit total.toNat payload.length
  le_total : total.toNat ≤ fragMaxTotal
  le_payload : payload.length ≤ fragMaxPayload
  length_frames : frames.length = total.toNat
  fragment : ∀ i < total.toNat, ∃ d f carried, frames[i]? = some d ∧
    IsFragment w key ctx total i (piece first unit payload i) d f carried

/-- What an encoder has checked about the shape of a fragment is what the reassembler asks. -/
structure ShapeOk (idx total : UInt8) (chunk : Bytes) : Prop where
  le_total : total.toNat ≤ fragMaxTotal
  idx_lt : idx.toNat < total.toNat
  ne_nil : chunk ≠ []
  le_payload : chunk.length ≤ fragMaxPayload

lemma identify_eq {d : Bytes} {f : Wire.FragView} (hs : ShapeOk f.idx f.total f.chunk)
    (hoff : f.chunkOff ≤ 512) (hlen : f.chunkOff + f.chunk.length = d.length) :
    identify d f = (do
      let key ← keyOf f
      let incoming ← contextOf f
      if key.inline && incoming.isNone then none else some (key, incoming)) := by
  have hmax : fragMaxPayload = 8192 := rfl
  have hle := hs.le_payload
  have hidx := hs.idx_lt
  have hshape : ¬(f.total < 1 ∨ f.total.toNat > fragMaxTotal ∨ f.total ≤ f.idx ∨ f.chunk = []) := by
    rw [UInt8.lt_iff_toNat_lt, UInt8.le_iff_toNat_le, UInt8.toNat_one]
    rintro (h | h | h | h)
    · omega
    · exact absurd hs.le_total (by omega)
    · omega
    · exact hs.ne_nil h
  have hadd : checkedAdd f.chunkOff f.chunk.length = some d.length := by
    rw [checkedAdd, if_pos (by simp [usizeSize]; omega), hlen]
  rw [identify, if_neg hshape, if_neg (by omega), if_neg (by rw [hadd]; simp)]

variable {flow : FragFlow} {limit : Nat} {payload : Bytes}

lemma fragHeaders_eq_some {w : Wire} {hs : FragHeaders} (h : fragHeaders w flow = some hs) :
    match flow with
    | .steady id => hs.wireId = some id ∧ hs.ctx = none
    | .opening id sess addr src => hs.wireId = some id ∧ hs.ctx = some (sess, addr, src)
    | .inline sess addr src => hs.wireId = none ∧ hs.ctx = some (sess, addr, src) := by
  cases w <;> cases flow <;>
    simp only [fragHeaders, Option.bind_eq_bind, Option.bind_eq_some_iff, Option.some.injEq] at h
  case rev2.steady id => exact h ▸ ⟨rfl, rfl⟩
  case rev2.opening id sess addr src =>
    obtain ⟨header, -, rfl⟩ := h
    exact ⟨rfl, rfl⟩
  case rev2.inline sess addr src =>
    obtain ⟨header, -, rfl⟩ := h
    exact ⟨rfl, rfl⟩
  case rev3.steady id =>
    obtain ⟨fid, -, rfl⟩ := h
    exact ⟨rfl, rfl⟩
  case rev3.opening id sess addr src =>
    obtain ⟨fid, -, header, -, rfl⟩ := h
    exact ⟨rfl, rfl⟩
  case rev3.inline sess addr src =>
    obtain ⟨header, -, rfl⟩ := h
    exact ⟨rfl, rfl⟩

section

variable {w : Wire} {id sess fragId : UInt32} {addr : TargetAddr} {src : Bool} {idx total : UInt8}
  {chunk d : Bytes} {limit : Nat}

lemma isFragment_of_steady (hs : ShapeOk idx total chunk) (ctx : Option FragCtx)
    (hctx : idx.toNat = 0 → ctx = none)
    (h : w.encodeFragSteady id fragId idx total chunk limit = some d) :
    ∃ f carried, IsFragment w ⟨false, id, fragId⟩ ctx total idx.toNat chunk d f carried := by
  obtain ⟨off, hoff, hlen, hdec⟩ := Wire.decodeFrag_of_steady h
  have hid := Wire.id_ne_zero_of_steady h
  refine ⟨_, none, hdec, ?_, .inl rfl, fun h0 => (hctx h0).symm, rfl, rfl, rfl, rfl, rfl⟩
  rw [identify_eq hs hoff hlen]
  simp [keyOf, contextOf, hid]

lemma isFragment_of_open (hs : ShapeOk idx total chunk)
    (hsess : w.openSess id sess src = some sess)
    (h : w.encodeFragOpen id sess addr src fragId idx total chunk limit = some d) :
    ∃ f carried, IsFragment w ⟨false, id, fragId⟩ (some ⟨sess, addr.clearFlow, src⟩) total
      idx.toNat chunk d f carried := by
  obtain ⟨off, hoff, hlen, hdec⟩ := Wire.decodeFrag_of_open h
  have hid := Wire.id_ne_zero_of_open h
  rw [hsess] at hdec
  refine ⟨_, some ⟨sess, addr.clearFlow, src⟩, hdec, ?_, .inr rfl, fun _ => rfl, rfl, rfl, rfl, rfl,
    rfl⟩
  rw [identify_eq hs hoff hlen]
  simp [keyOf, contextOf, hid]

lemma isFragment_of_inline (hs : ShapeOk idx total chunk)
    (h : w.encodeFragInline sess addr src fragId idx total chunk limit = some d) :
    ∃ f carried, IsFragment w ⟨true, sess, fragId⟩
      (some ⟨sess, addr.clearFlow, w.inlineSrc src⟩) total idx.toNat chunk d f carried := by
  obtain ⟨off, hoff, hlen, hdec⟩ := Wire.decodeFrag_of_inline h
  refine ⟨_, some ⟨sess, addr.clearFlow, w.inlineSrc src⟩, hdec, ?_, .inr rfl, fun _ => rfl, rfl,
    rfl, rfl, rfl, rfl⟩
  rw [identify_eq hs hoff hlen]
  simp [keyOf, contextOf]

end

lemma toNat_ofNat_of_lt_total {total : UInt8} {i : Nat} (hi : i < total.toNat) :
    (UInt8.ofNat i).toNat = i := by
  have h256 : total.toNat < 256 := total.toNat_lt
  rw [UInt8.toNat_ofNat']
  omega

lemma shapeOk_of_plan {plan : FragPlan} {firstHdr restHdr i : Nat}
    (hplan : FragPlan.new limit firstHdr restHdr payload.length = some plan)
    (hi : i < plan.total.toNat) :
    ShapeOk (UInt8.ofNat i) plan.total (piece plan.firstChunk plan.restChunk payload i) := by
  obtain ⟨hcovers, htotal, hmax⟩ := FragPlan.covers hplan
  refine ⟨htotal, ?_, hcovers.piece_ne_nil rfl hi, ?_⟩
  · rw [toNat_ofNat_of_lt_total hi]
    exact hi
  · rw [length_piece]
    omega

/-- What is encoded for a piece of a planned payload is a fragment of it. -/
lemma isFragment_of_encodeFragment {w : Wire} {hs : FragHeaders} {plan : FragPlan} {d : Bytes}
    {fragId : UInt32} {limit' i : Nat} (hflow : flow.Described w)
    (hhdr : fragHeaders w flow = some hs)
    (hplan : FragPlan.new limit hs.firstHdr hs.restHdr payload.length = some plan)
    (hi : i < plan.total.toNat) (henc : encodeFragment w hs fragId i plan.total
      (piece plan.firstChunk plan.restChunk payload i) limit' = some d) :
    ∃ f carried, IsFragment w (flow.key fragId) (flow.context w) plan.total i
      (piece plan.firstChunk plan.restChunk payload i) d f carried := by
  have hidx := toNat_ofNat_of_lt_total hi
  have hshape := shapeOk_of_plan hplan hi
  have hdata := fragHeaders_eq_some hhdr
  rw [encodeFragment] at henc
  cases flow with
  | steady id =>
    rw [hdata.1, hdata.2] at henc
    obtain ⟨f, carried, hf⟩ := isFragment_of_steady hshape none (fun _ => rfl) henc
    rw [hidx] at hf
    exact ⟨f, carried, hf⟩
  | opening id sess addr src =>
    rw [hdata.1, hdata.2] at henc
    simp only at henc
    by_cases h0 : i = 0
    · rw [if_pos h0] at henc
      obtain ⟨f, carried, hf⟩ := isFragment_of_open hshape hflow henc
      rw [hidx] at hf
      exact ⟨f, carried, hf⟩
    rw [if_neg h0] at henc
    obtain ⟨f, carried, hf⟩ := isFragment_of_steady hshape (some ⟨sess, addr.clearFlow, src⟩)
      (fun h => absurd (hidx.symm.trans h) h0) henc
    rw [hidx] at hf
    exact ⟨f, carried, hf⟩
  | inline sess addr src =>
    rw [hdata.1, hdata.2] at henc
    obtain ⟨f, carried, hf⟩ := isFragment_of_inline hshape henc
    rw [hidx] at hf
    exact ⟨f, carried, hf⟩

/-- A payload sent without failure has left a complete frame set. -/
lemma Fragmenter.exists_frameSet {fr : Fragmenter} {space : Nat} {verdict : Nat → DatagramSend}
    (hsent : (fr.send space verdict limit flow payload).2.1.failed = none)
    (hflow : flow.Described fr.wire) :
    ∃ fs : FrameSet fr.wire (flow.key fr.nextId) (flow.context fr.wire) payload,
      fs.frames = (fr.send space verdict limit flow payload).1 := by
  obtain ⟨hs, plan, hhdr, hplan, hlen, hall⟩ := Fragmenter.send_complete rfl hsent
  obtain ⟨hcovers, htotal, hmax⟩ := FragPlan.covers hplan
  refine ⟨⟨plan.total, plan.firstChunk, plan.restChunk, _, hcovers, htotal, hmax, hlen, ?_⟩, rfl⟩
  intro i hi
  have henc := hall i hi
  obtain ⟨d, hget⟩ : ∃ d, (fr.send space verdict limit flow payload).1[i]? = some d :=
    ⟨_, List.getElem?_eq_getElem (hlen ▸ hi)⟩
  rw [hget] at henc
  obtain ⟨f, carried, hf⟩ := isFragment_of_encodeFragment hflow hhdr hplan hi henc
  exact ⟨d, f, carried, hget, hf⟩

end MyQuic2
