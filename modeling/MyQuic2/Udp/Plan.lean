import Mathlib.Algebra.BigOperators.Group.List.Basic
import MyQuic2.Mqp.Adapter
import MyQuic2.Udp.Fragmenter

/-!
# What a plan comes to

The chunks of a plan cover its payload, their frames keep to the budget, and the footprint is
what the frames take in the buffer of the connection.
-/

namespace MyQuic2

open List Option FragPlan

variable {limit : Nat} {payload d chunk : Bytes} {fragId : UInt32} {idx total : UInt8} {i : Nat}

section

lemma rev2_length {f : Rev2.Form}
    (h : f.encodeFrag fragId idx total chunk limit = some d) :
    f.fragLen 0 + chunk.length = d.length ∧ f.fragLen 0 ≤ 512 :=
  ⟨(Rev2.decodeFrag_of_encodeFrag h).2, f.fragLen_zero_le⟩

lemma rev3_length {f : Rev3.Form}
    (h : f.encodeFrag fragId idx total chunk limit = some d) :
    f.fragLen 0 + chunk.length = d.length ∧ f.fragLen 0 ≤ 512 :=
  ⟨(Rev3.decodeFrag_of_encodeFrag h).2, f.fragLen_zero_le⟩

lemma headerLen_eq {addr : TargetAddr} {header : AddrHeader}
    (h : addr.header.toOption = some header) : header.len = addr.headerLen := by
  rw [TargetAddr.headerLen, h]
  rfl

lemma owner_of_fidFor {id : UInt32} {fid : UInt16} (h : Wire.fidFor id = some fid) :
    decide (Rev3.serverFidBase ≤ fid) = Wire.wireIdServerOwned id := by
  obtain ⟨hrange, hval⟩ := Wire.fidFor_eq_some.mp h
  rw [Bool.eq_iff_iff, decide_eq_true_eq, Wire.wireIdServerOwned_iff, UInt16.le_iff_toNat_le,
    show Rev3.serverFidBase.toNat = 0x2000 from rfl]
  split at hval <;> omega

/-- An encoded fragment is the header that the plan counts, and the chunk. -/
lemma length_encodeFragment {w : Wire} {flow : FragFlow} {hs : FragHeaders}
    (h : fragHeaders w flow = some hs)
    (hd : encodeFragment w hs fragId i total chunk limit = some d) :
    (if i = 0 then hs.firstHdr else hs.restHdr) + chunk.length = d.length ∧
      (if i = 0 then hs.firstHdr else hs.restHdr) ≤ 512 := by
  cases w with
  | rev2 =>
    cases flow with
    | steady id =>
      cases h
      rw [ite_self]
      exact rev2_length (f := .steady id) hd
    | opening id sess addr src =>
      obtain ⟨header, hh, ⟨⟩⟩ := bind_eq_some_iff.mp h
      simp only [encodeFragment] at hd
      split at hd <;> rename_i hi
      · rw [if_pos hi, headerLen_eq hh]
        exact rev2_length (f := .opening id sess addr src) hd
      · rw [if_neg hi]
        exact rev2_length (f := .steady id) hd
    | inline sess addr src =>
      obtain ⟨header, hh, ⟨⟩⟩ := bind_eq_some_iff.mp h
      rw [ite_self, headerLen_eq hh]
      exact rev2_length (f := .inline sess addr src) hd
  | rev3 =>
    cases flow with
    | steady id =>
      obtain ⟨fid, hfid, ⟨⟩⟩ := bind_eq_some_iff.mp h
      obtain ⟨fid', -, hd⟩ := bind_eq_some_iff.mp hd
      rw [ite_self]
      exact rev3_length (f := .steady fid') hd
    | opening id sess addr src =>
      obtain ⟨fid, hfid, h⟩ := bind_eq_some_iff.mp h
      obtain ⟨header, hh, ⟨⟩⟩ := bind_eq_some_iff.mp h
      simp only [encodeFragment] at hd
      split at hd <;> rename_i hi
      · rw [if_pos hi, headerLen_eq hh]
        obtain ⟨fid', hfid', hd⟩ := bind_eq_some_iff.mp hd
        obtain rfl := some.inj (hfid.symm.trans hfid')
        rw [owner_of_fidFor hfid]
        split at hd <;> rename_i hsrc
        · rw [if_pos hsrc]
          exact rev3_length (f := .source fid addr) hd
        · rw [if_neg hsrc]
          exact rev3_length (f := .opening fid sess addr src) hd
      · obtain ⟨fid', -, hd⟩ := bind_eq_some_iff.mp hd
        rw [if_neg hi]
        exact rev3_length (f := .steady fid') hd
    | inline sess addr src =>
      obtain ⟨header, hh, ⟨⟩⟩ := bind_eq_some_iff.mp h
      rw [ite_self, headerLen_eq hh]
      exact rev3_length (f := .inline sess addr) hd

end

namespace FragPlan

/-- A plan for the headers of a flow under a budget, with the payload and its frames. -/
structure Sound (plan : FragPlan) (w : Wire) (flow : FragFlow) (hs : FragHeaders) (limit : Nat)
    (payload : Bytes) : Prop where
  /-- A chunk is as wide as its header leaves room for. -/
  widths : hs.firstHdr + plan.firstChunk = limit ∧ hs.restHdr + plan.restChunk = limit
  uniform : (∀ id sess addr src, flow ≠ .opening id sess addr src) →
    plan.firstChunk = plan.restChunk
  number : plan.total.toNat ≤ fragMaxTotal
  nonempty : ∀ i < plan.total.toNat, piece plan.firstChunk plan.restChunk payload i ≠ []
  cover : (range plan.total.toNat).flatMap (piece plan.firstChunk plan.restChunk payload) = payload
  full : ∀ i, i + 1 < plan.total.toNat →
    (piece plan.firstChunk plan.restChunk payload i).length =
      if i = 0 then plan.firstChunk else plan.restChunk
  last : ∀ i, (piece plan.firstChunk plan.restChunk payload i).length ≤
    if i = 0 then plan.firstChunk else plan.restChunk
  /-- The frames take the footprint, less the bookkeeping for all but the first. -/
  frames : ∀ fragId (frames : List Bytes), frames.length = plan.total.toNat →
    (∀ i < plan.total.toNat, encodeFragment w hs fragId i plan.total
      (piece plan.firstChunk plan.restChunk payload i) limit = frames[i]?) →
    (∀ d ∈ frames, d.length ≤ limit) ∧ plan.footprint payload.length =
      (frames.map length).sum + (plan.total.toNat - 1) * frameBookkeeping

lemma sizes {firstHdr restHdr len : Nat} {plan : FragPlan}
    (h : new limit firstHdr restHdr len = some plan) :
    plan.firstHdr = firstHdr ∧ plan.restHdr = restHdr ∧ firstHdr + plan.firstChunk = limit ∧
      restHdr + plan.restChunk = limit := by
  unfold new at h
  simp only [ite_none_left_eq_some, bind_eq_bind, bind_eq_some_iff, checkedSub,
    ite_none_right_eq_some, some.injEq] at h
  obtain ⟨-, first, ⟨hfirst, rfl⟩, rest, ⟨hrest, rfl⟩, -, -, rfl⟩ := h
  exact ⟨rfl, rfl, Nat.add_sub_of_le hfirst, Nat.add_sub_of_le hrest⟩

/-- Only a binding makes the first header longer. -/
lemma firstHdr_eq_restHdr {w : Wire} {flow : FragFlow} {hs : FragHeaders}
    (h : fragHeaders w flow = some hs)
    (hflow : ∀ id sess addr src, flow ≠ .opening id sess addr src) : hs.firstHdr = hs.restHdr := by
  cases flow with
  | opening id sess addr src => exact absurd rfl (hflow id sess addr src)
  | steady id =>
    cases w with
    | rev2 => cases h; rfl
    | rev3 => obtain ⟨_, -, ⟨⟩⟩ := bind_eq_some_iff.mp h; rfl
  | inline sess addr src =>
    cases w with
    | rev2 => obtain ⟨_, -, ⟨⟩⟩ := bind_eq_some_iff.mp h; rfl
    | rev3 => obtain ⟨_, -, ⟨⟩⟩ := bind_eq_some_iff.mp h; rfl

lemma length_piece_le (first unit : Nat) (payload : Bytes) (i : Nat) :
    (piece first unit payload i).length ≤ if i = 0 then first else unit := by
  have hstep := pieceStart_succ_eq first unit i
  rw [length_piece]
  omega

lemma sum_headers (first rest n : Nat) :
    ((range (n + 1)).map fun i => if i = 0 then first else rest).sum = first + n * rest := by
  induction n with
  | zero => simp
  | succ n ih =>
    rw [range_succ, map_append, sum_append, ih]
    simp [Nat.succ_mul, Nat.add_assoc]

end FragPlan

theorem plan_sound {w : Wire} {flow : FragFlow} {hs : FragHeaders} {plan : FragPlan}
    (hhdr : fragHeaders w flow = some hs)
    (hplan : new limit hs.firstHdr hs.restHdr payload.length = some plan) :
    plan.Sound w flow hs limit payload := by
  obtain ⟨hc, hnumber, hmax⟩ := covers hplan
  obtain ⟨hfirst, hrest, hroom, hroom'⟩ := sizes hplan
  refine ⟨⟨hroom, hroom'⟩, fun hflow => ?_, hnumber, fun i => hc.piece_ne_nil rfl,
    hc.flatMap_piece rfl, fun i => hc.length_piece_full rfl, fun i => length_piece_le _ _ _ _, ?_⟩
  · have heq := firstHdr_eq_restHdr hhdr hflow
    omega
  intro fragId frames hlen henc
  have hframe : ∀ i < plan.total.toNat, ∀ d, frames[i]? = some d →
      (if i = 0 then plan.firstHdr else plan.restHdr) +
        (piece plan.firstChunk plan.restChunk payload i).length = d.length ∧
      (if i = 0 then plan.firstHdr else plan.restHdr) ≤ 512 := by
    intro i hi d hd
    rw [hfirst, hrest]
    exact length_encodeFragment hhdr ((henc i hi).trans hd)
  constructor
  · intro d hd
    obtain ⟨i, hi⟩ := mem_iff_getElem?.mp hd
    have hlt : i < plan.total.toNat := hlen ▸ (List.getElem?_eq_some_iff.mp hi).1
    have hpiece := length_piece_le plan.firstChunk plan.restChunk payload i
    have := (hframe i hlt d hi).1
    split at hpiece <;> simp_all <;> omega
  have hsum : (frames.map length).sum =
      plan.firstHdr + (plan.total.toNat - 1) * plan.restHdr + payload.length := by
    have hmap : frames.map length = (range plan.total.toNat).map fun i =>
        (if i = 0 then plan.firstHdr else plan.restHdr) +
          (piece plan.firstChunk plan.restChunk payload i).length := by
      refine ext_getElem (by simp [hlen]) fun i h₁ h₂ => ?_
      simp only [length_map] at h₁
      rw [getElem_map, getElem_map, getElem_range]
      exact (hframe i (hlen ▸ h₁) _ (getElem?_eq_getElem h₁)).1.symm
    have hcover := congrArg length (hc.flatMap_piece (s := payload) rfl)
    rw [length_flatMap] at hcover
    obtain ⟨n, hn⟩ := Nat.exists_eq_add_of_lt hc.pos
    rw [hmap, sum_map_add, hcover, hn, Nat.zero_add, sum_headers, Nat.add_sub_cancel]
  have hzero := (hframe 0 hc.pos _ (getElem?_eq_getElem (hlen ▸ hc.pos))).2
  rw [if_pos rfl] at hzero
  -- no sum saturates: every header is short and there are few
  have hmul : (plan.total.toNat - 1) * plan.restHdr ≤ 63 * 512 := by
    rcases Nat.lt_or_ge 1 plan.total.toNat with hmany | hone
    · exact Nat.mul_le_mul (by omega) (hframe 1 hmany _ (getElem?_eq_getElem (hlen ▸ hmany))).2
    · rw [Nat.sub_eq_zero_of_le hone, Nat.zero_mul]
      exact Nat.zero_le _
  rw [hsum]
  unfold fragMaxPayload at hmax
  simp only [footprint, saturatingAdd, saturatingMul, usizeSize, frameBookkeeping]
  generalize (plan.total.toNat - 1) * plan.restHdr = rest at hmul ⊢
  omega

/-- A binding makes the first header longer: its chunk is shorter than the next one, and the
footprint of three frames has two charges for bookkeeping. -/
theorem opening_plan_uneven :
    ((fragHeaders .rev2 (.opening 2 7 (.ip (.v4 ⟨1⟩ 80)) false)).bind fun hs =>
      (new 60 hs.firstHdr hs.restHdr 100).map fun plan =>
        ((range plan.total.toNat).map fun i =>
          (piece plan.firstChunk plan.restChunk (replicate 100 (0 : UInt8)) i).length,
        (range plan.total.toNat).map fun i => ((encodeFragment .rev2 hs 0 i plan.total
          (piece plan.firstChunk plan.restChunk (replicate 100 0) i) 60).getD []).length,
        plan.footprint 100)) = some ([40, 52, 8], [60, 60, 16], 232) := by
  decide

theorem plan_sound_two :
    (⟨2, 8, 8, 52, 52⟩ : FragPlan).Sound .rev2 (.steady 2) ⟨some 2, 8, 8, none⟩ 60
      (replicate 100 0) :=
  plan_sound (show fragHeaders .rev2 (.steady 2) = _ from rfl) (by decide)

end MyQuic2
