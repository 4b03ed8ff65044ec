import MyQuic2.Core.Split
import MyQuic2.Mqp.Wire

/-!
# The fragmenter

A payload that does not fit one datagram is split by a plan: a first chunk in the
room the first header leaves, and further chunks in the room the steady header
leaves. Every chunk becomes one FRAG frame; the frames are handed to the
connection one by one until it refuses one.
-/

namespace MyQuic2

open List

/-- Largest payload that is fragmented and reassembled. -/
def fragMaxPayload : Nat := 8192

/-- Most fragments of one payload. -/
def fragMaxTotal : Nat := 64

/-- Subtraction of two lengths, refused below zero. -/
def checkedSub (a c : Nat) : Option Nat := if c ≤ a then some (a - c) else none

/-- Number of fragments, headers and chunk budgets of one payload. -/
structure FragPlan where
  total : UInt8
  firstHdr : Nat
  restHdr : Nat
  firstChunk : Nat
  restChunk : Nat
  deriving DecidableEq

/-- Number of chunks behind the first one. -/
def divCeil (a c : Nat) : Nat := (a + c - 1) / c

/-- Plan a payload under a datagram budget, unless it is empty, too long, takes too many
fragments, or a header leaves no room. -/
def FragPlan.new (limit firstHdr restHdr payloadLen : Nat) : Option FragPlan :=
  if payloadLen = 0 ∨ payloadLen > fragMaxPayload then none
  else do
    let firstChunk ← checkedSub limit firstHdr
    let restChunk ← checkedSub limit restHdr
    if firstChunk = 0 ∨ restChunk = 0 then none
    else
      let total :=
        if payloadLen ≤ firstChunk then 1 else 1 + divCeil (payloadLen - firstChunk) restChunk
      if total > fragMaxTotal then none
      else some ⟨UInt8.ofNat total, firstHdr, restHdr, firstChunk, restChunk⟩

/-- Charge of the connection for every datagram behind the first. -/
def frameBookkeeping : Nat := 48

/-- Octets the payload takes in the connection's datagram buffer. -/
def FragPlan.footprint (plan : FragPlan) (payloadLen : Nat) : Nat :=
  saturatingAdd
    (saturatingAdd (saturatingAdd payloadLen plan.firstHdr)
      (saturatingMul (plan.total.toNat - 1) plan.restHdr))
    (saturatingMul (plan.total.toNat - 1) frameBookkeeping)

variable {limit : Nat} {payload : Bytes} {verdict : Nat → DatagramSend}

/-- The plan cuts the payload into that many pieces. -/
lemma FragPlan.covers {firstHdr restHdr len : Nat} {plan : FragPlan}
    (h : FragPlan.new limit firstHdr restHdr len = some plan) :
    Covers plan.firstChunk plan.restChunk plan.total.toNat len ∧ plan.total.toNat ≤ 64 ∧
      len ≤ fragMaxPayload := by
  unfold FragPlan.new at h
  by_cases hlen : len = 0 ∨ len > fragMaxPayload
  · simp [hlen] at h
  simp only [if_neg hlen, Option.bind_eq_bind, Option.bind_eq_some_iff,
    Option.ite_none_left_eq_some, Option.some.injEq] at h
  obtain ⟨first, -, rest, -, hpos, htotal, rfl⟩ := h
  obtain ⟨hne, hmax⟩ := not_or.mp hlen
  obtain ⟨hfirst, hrest⟩ := not_or.mp hpos
  have hcap : fragMaxTotal = 64 := rfl
  simp only
  by_cases hone : len ≤ first
  · rw [if_pos hone] at htotal ⊢
    refine ⟨⟨by omega, by omega, by decide, ?_, ?_⟩, by decide, by omega⟩
    · exact Nat.pos_of_ne_zero hne
    · simpa [pieceStart] using hone
  rw [if_neg hone] at htotal ⊢
  have hval : (UInt8.ofNat (1 + divCeil (len - first) rest)).toNat =
      1 + divCeil (len - first) rest := by
    rw [UInt8.toNat_ofNat']
    omega
  rw [hval]
  -- The number of further chunks is the rounded-up quotient.
  have hq := Nat.div_add_mod (len - first + rest - 1) rest
  have hr := Nat.mod_lt (len - first + rest - 1) (Nat.pos_of_ne_zero hrest)
  have hdiv : divCeil (len - first) rest = (len - first + rest - 1) / rest := rfl
  rw [← hdiv] at hq
  obtain ⟨m, hm⟩ : ∃ m, divCeil (len - first) rest = m + 1 := by
    refine ⟨divCeil (len - first) rest - 1, ?_⟩
    have hpos' : divCeil (len - first) rest ≠ 0 := by
      intro h0
      rw [h0, Nat.mul_zero] at hq
      omega
    omega
  rw [hm] at hq ⊢
  rw [Nat.mul_succ, Nat.mul_comm] at hq
  refine ⟨⟨by omega, by omega, by omega, ?_, ?_⟩, by omega, by omega⟩
  · rw [show 1 + (m + 1) - 1 = m + 1 by omega, pieceStart]
    omega
  · rw [show 1 + (m + 1) = m + 1 + 1 by omega, pieceStart, Nat.succ_mul]
    omega

/-- How the fragments of a payload are addressed. -/
inductive FragFlow where
  | steady (wireId : UInt32)
  /-- A flow whose binding is still opening: the first fragment carries it. -/
  | opening (wireId sess : UInt32) (addr : TargetAddr) (src : Bool)
  /-- No flow id: every fragment carries session and address. -/
  | inline (sess : UInt32) (addr : TargetAddr) (src : Bool)

/-- The id, the header sizes and the binding context of one payload. -/
structure FragHeaders where
  wireId : Option UInt32
  firstHdr : Nat
  restHdr : Nat
  ctx : Option (UInt32 × TargetAddr × Bool)

/-- Header sizes of the first and the following fragments, by revision. -/
def fragHeaders (w : Wire) (flow : FragFlow) : Option FragHeaders :=
  match w, flow with
  | .rev2, .steady id =>
    some ⟨some id, Rev2.fragSteadyLen id 0, Rev2.fragSteadyLen id 0, none⟩
  | .rev2, .opening id sess addr src => do
      let header ← addr.header.toOption
      some ⟨some id, Rev2.fragOpenLen id header.len 0, Rev2.fragSteadyLen id 0,
        some (sess, addr, src)⟩
  | .rev2, .inline sess addr src => do
      let header ← addr.header.toOption
      let hdr := Rev2.fragInlineLen header.len 0
      some ⟨none, hdr, hdr, some (sess, addr, src)⟩
  | .rev3, .steady id => do
      let _ ← Wire.fidFor id
      some ⟨some id, Rev3.fragSteadyLen 0, Rev3.fragSteadyLen 0, none⟩
  | .rev3, .opening id sess addr src => do
      let fid ← Wire.fidFor id
      let header ← addr.header.toOption
      let serverOwned : Bool := Rev3.serverFidBase ≤ fid
      let first := if src && !serverOwned then Rev3.fragSrcLen header.len 0
        else Rev3.fragOpenLen header.len 0
      some ⟨some id, first, Rev3.fragSteadyLen 0, some (sess, addr, src)⟩
  | .rev3, .inline sess addr src => do
      let header ← addr.header.toOption
      let hdr := Rev3.fragInlineLen header.len 0
      some ⟨none, hdr, hdr, some (sess, addr, src)⟩

/-- What the connection says to one datagram. -/
inductive DatagramSend where
  | sent
  | blocked
  | tooLarge
  | unsupported
  | connectionLost
  deriving DecidableEq

/-- What became of one payload. -/
structure PayloadSend where
  frames : Nat
  failed : Option DatagramSend

/-- One sending context. -/
structure Fragmenter where
  nextId : UInt32
  lastBlocked : Bool
  wire : Wire

/-- The encoder of fragment `idx`: the first one of an opening flow carries the binding. -/
def encodeFragment (w : Wire) (h : FragHeaders) (fragId : UInt32) (idx : Nat) (total : UInt8)
    (chunk : Bytes) (limit : Nat) : Option Bytes :=
  match h.wireId, h.ctx with
  | some id, some (sess, addr, src) =>
    if idx = 0 then
      w.encodeFragOpen id sess addr src fragId (UInt8.ofNat idx) total chunk limit
    else w.encodeFragSteady id fragId (UInt8.ofNat idx) total chunk limit
  | some id, none => w.encodeFragSteady id fragId (UInt8.ofNat idx) total chunk limit
  | none, some (sess, addr, src) =>
    w.encodeFragInline sess addr src fragId (UInt8.ofNat idx) total chunk limit
  | none, none => none

/-- How the sending loop ended. -/
inductive SendEnd where
  | done
  | encoder
  | verdict (v : DatagramSend)

/-- The sending loop with `left` frames to go; `verdict` is the connection's answer to each. -/
def sendLoop (encode : Nat → Bytes → Option Bytes) (plan : FragPlan) (payload : Bytes)
    (verdict : Nat → DatagramSend) : Nat → Nat → Nat → List Bytes → List Bytes × SendEnd
  | 0, _, _, sent => (sent, .done)
  | left + 1, idx, offset, sent =>
    let remaining := payload.drop offset
    let chunkLen := min (if idx = 0 then plan.firstChunk else plan.restChunk) remaining.length
    match encode idx (remaining.take chunkLen) with
    | none => (sent, .encoder)
    | some body =>
      match verdict idx with
      | .sent => sendLoop encode plan payload verdict left (idx + 1) (offset + chunkLen)
          (sent ++ [body])
      | v => (sent, .verdict v)

/-- Send a payload as FRAG frames. `space` is the room in the connection's datagram buffer;
the frames it took come first. -/
def Fragmenter.send (fr : Fragmenter) (space : Nat) (verdict : Nat → DatagramSend) (limit : Nat)
    (flow : FragFlow) (payload : Bytes) : List Bytes × PayloadSend × Fragmenter :=
  match fragHeaders fr.wire flow with
  | none => ([], ⟨0, some .tooLarge⟩, fr)
  | some h =>
    match FragPlan.new limit h.firstHdr h.restHdr payload.length with
    | none => ([], ⟨0, some .tooLarge⟩, fr)
    | some plan =>
      if fr.lastBlocked ∧ space < plan.footprint payload.length then
        ([], ⟨0, some .blocked⟩, fr)
      else
        let fragId := fr.nextId
        let fr := { fr with lastBlocked := false, nextId := fr.nextId + 1 }
        let encode := fun idx chunk => encodeFragment fr.wire h fragId idx plan.total chunk limit
        match sendLoop encode plan payload verdict plan.total.toNat 0 0 [] with
        | (sent, .done) => (sent, ⟨sent.length, none⟩, fr)
        | (sent, .encoder) => (sent, ⟨sent.length, some .tooLarge⟩, fr)
        | (sent, .verdict v) =>
          (sent, ⟨sent.length, some v⟩, { fr with lastBlocked := v == .blocked })

lemma take_min_length {α : Type} (s : List α) (n : Nat) : s.take (min n s.length) = s.take n := by
  rcases Nat.le_total n s.length with h | h
  · rw [Nat.min_eq_left h]
  · rw [Nat.min_eq_right h, take_length, take_of_length_le h]

/-- The frames of the loop are encoded pieces, one after the other; all of them when it ends
well. -/
lemma sendLoop_spec {encode : Nat → Bytes → Option Bytes} {plan : FragPlan}
    {left idx offset : Nat} {sent frames : List Bytes} {how : SendEnd}
    (h : sendLoop encode plan payload verdict left idx offset sent = (frames, how))
    (hoff : offset = min (pieceStart plan.firstChunk plan.restChunk idx) payload.length) :
    ∃ more, frames = sent ++ more ∧ more.length ≤ left ∧ (how = .done → more.length = left) ∧
      ∀ j < more.length, encode (idx + j)
        (piece plan.firstChunk plan.restChunk payload (idx + j)) = more[j]? := by
  induction left generalizing idx offset sent with
  | zero =>
    obtain ⟨rfl, rfl⟩ := Prod.mk.inj h
    exact ⟨[], by rw [append_nil], le_rfl, fun _ => rfl, fun j hj => absurd hj (Nat.not_lt_zero j)⟩
  | succ left ih =>
    have hstep := pieceStart_succ_eq plan.firstChunk plan.restChunk idx
    have hpiece : (payload.drop offset).take
        (min (if idx = 0 then plan.firstChunk else plan.restChunk) (payload.drop offset).length) =
          piece plan.firstChunk plan.restChunk payload idx := by
      rw [take_min_length, piece, hstep, Nat.add_sub_cancel_left, hoff]
      rcases Nat.le_total (pieceStart plan.firstChunk plan.restChunk idx) payload.length with
        hle | hle
      · rw [Nat.min_eq_left hle]
      · rw [Nat.min_eq_right hle, drop_length, drop_eq_nil_of_le hle]
    have hstop : ∀ how', (sent, how') = (frames, how) → how' ≠ SendEnd.done →
        ∃ more, frames = sent ++ more ∧ more.length ≤ left + 1 ∧
          (how = .done → more.length = left + 1) ∧ ∀ j < more.length, encode (idx + j)
            (piece plan.firstChunk plan.restChunk payload (idx + j)) = more[j]? := by
      intro how' heq hne
      obtain ⟨rfl, rfl⟩ := Prod.mk.inj heq
      exact ⟨[], by rw [append_nil], Nat.zero_le _, fun hdone => absurd hdone hne,
        fun j hj => absurd hj (Nat.not_lt_zero j)⟩
    rw [sendLoop] at h
    simp only [hpiece] at h
    cases henc : encode idx (piece plan.firstChunk plan.restChunk payload idx) with
    | none =>
      simp only [henc] at h
      exact hstop _ h (by rintro ⟨⟩)
    | some body =>
      simp only [henc] at h
      cases hv : verdict idx with
      | sent =>
        simp only [hv] at h
        obtain ⟨more, hframes, hle, hdone, hall⟩ := ih h (by
          rw [hstep, length_drop, hoff]
          omega)
        refine ⟨body :: more, by rw [hframes, append_assoc, singleton_append],
          Nat.succ_le_succ hle, fun hd => congrArg Nat.succ (hdone hd), ?_⟩
        intro j hj
        cases j with
        | zero => exact henc
        | succ j =>
          have hrec := hall j (by rw [length_cons] at hj; omega)
          rw [show idx + 1 + j = idx + (j + 1) by omega] at hrec
          exact hrec
      | blocked | tooLarge | unsupported | connectionLost =>
        simp only [hv] at h
        exact hstop _ h (by rintro ⟨⟩)

/-- The frames that leave were planned: they are encoded pieces of the payload, from the first one
on. -/
lemma Fragmenter.send_planned {fr : Fragmenter} {space : Nat} {flow : FragFlow}
    {out : List Bytes × PayloadSend × Fragmenter}
    (hout : fr.send space verdict limit flow payload = out)
    (h : out.1 ≠ [] ∨ out.2.1.failed = none) :
    ∃ hs plan, fragHeaders fr.wire flow = some hs ∧
      FragPlan.new limit hs.firstHdr hs.restHdr payload.length = some plan ∧
      out.1.length ≤ plan.total.toNat ∧
      (out.2.1.failed = none →
        out.1.length = plan.total.toNat) ∧
      ∀ i < out.1.length,
        encodeFragment fr.wire hs fr.nextId i plan.total
          (piece plan.firstChunk plan.restChunk payload i) limit = out.1[i]? := by
  subst hout
  unfold Fragmenter.send at h ⊢
  cases hhdr : fragHeaders fr.wire flow with
  | none => simp [hhdr] at h
  | some hs =>
    cases hplan : FragPlan.new limit hs.firstHdr hs.restHdr payload.length with
    | none => simp [hhdr, hplan] at h
    | some plan =>
      refine ⟨hs, plan, rfl, hplan, ?_⟩
      simp only [hhdr, hplan] at h ⊢
      by_cases hgate : fr.lastBlocked = true ∧ space < plan.footprint payload.length
      · simp [hgate] at h
      simp only [if_neg hgate] at h ⊢
      generalize hloop : sendLoop
        (fun idx chunk => encodeFragment fr.wire hs fr.nextId idx plan.total chunk limit) plan
        payload verdict plan.total.toNat 0 0 [] = out at h ⊢
      obtain ⟨sent, how⟩ := out
      obtain ⟨more, hsent, hle, hdone, hall⟩ := sendLoop_spec hloop (by simp [pieceStart])
      rw [nil_append] at hsent
      subst hsent
      simp only [Nat.zero_add] at hall
      cases how with
      | done => exact ⟨hle, fun _ => hdone rfl, hall⟩
      | encoder | verdict _ => exact ⟨hle, by rintro ⟨⟩, hall⟩

/-- A payload sent without failure was planned, and every piece of it was encoded. -/
lemma Fragmenter.send_complete {fr : Fragmenter} {space : Nat} {flow : FragFlow}
    {out : List Bytes × PayloadSend × Fragmenter}
    (hout : fr.send space verdict limit flow payload = out) (h : out.2.1.failed = none) :
    ∃ hs plan, fragHeaders fr.wire flow = some hs ∧
      FragPlan.new limit hs.firstHdr hs.restHdr payload.length = some plan ∧
      out.1.length = plan.total.toNat ∧
      ∀ i < plan.total.toNat, encodeFragment fr.wire hs fr.nextId i plan.total
        (piece plan.firstChunk plan.restChunk payload i) limit = out.1[i]? := by
  obtain ⟨hs, plan, hhdr, hplan, -, hlen, hall⟩ := Fragmenter.send_planned hout (.inr h)
  refine ⟨hs, plan, hhdr, hplan, hlen h, ?_⟩
  intro i hi
  exact hall i (by rw [hlen h]; exact hi)

end MyQuic2
