import MyQuic2.Mqp.Adapter
import MyQuic2.Udp.Stage

/-!
# The train of a run

A run of steady items is encoded as one train: the encoder lists the flows of the run in
the order they first come in and picks the form. The stager adds up the cost of the frame
on its own, before any encoder sees the run; it is the length of the form that the encoder
picks.
-/

namespace MyQuic2

open List Option Wire.TrainReq Wire R2StageItem

lemma sum_cost_le {β : Type*} {xs : List β} (cost : β → Nat) {bound count : Nat}
    (hcost : ∀ x ∈ xs, cost x ≤ bound) (hcount : xs.length ≤ count) :
    (xs.map cost).sum ≤ count * bound := by
  have hsum : (xs.map cost).sum ≤ xs.length * bound := by
    induction xs with
    | nil => exact Nat.zero_le _
    | cons x xs ih =>
      have hx := hcost x mem_cons_self
      have hrest := ih (fun y hy => hcost y (mem_cons_of_mem x hy)) (Nat.le_of_succ_le hcount)
      rw [map_cons, sum_cons, length_cons, Nat.succ_mul]
      omega
  exact hsum.trans (Nat.mul_le_mul_right bound hcount)

namespace Rev3

lemma itemLenLen_of_le {n : Nat} (h : n ≤ 0xFFFF) : itemLenLen n = some (r3ItemLenLen n) := by
  unfold itemLenLen r3ItemLenLen
  by_cases hshort : n < 0xFF
  · rw [if_pos hshort, if_pos hshort]
  · rw [if_neg hshort, if_pos h, if_neg hshort]

lemma r3ItemLenLen_le (n : Nat) : r3ItemLenLen n ≤ 3 := by
  unfold r3ItemLenLen
  split <;> omega

variable {fid : UInt16} {payloads : List Bytes}

section

variable (hcount : validTrainCount payloads.length = true) (hfid : validFid fid = true)
include hcount hfid

lemma trainSameLen_eq (hlen : ∀ p ∈ payloads, p.length ≤ 0xFFFF) :
    trainSameLen fid payloads =
      some (4 + (payloads.map fun p => r3ItemLenLen p.length + p.length).sum) := by
  have hmax := (validTrainCount_iff.mp hcount).2
  have hsum := sum_cost_le (fun p : Bytes => r3ItemLenLen p.length + p.length)
    (fun p hp => Nat.add_le_add (r3ItemLenLen_le p.length) (hlen p hp)) hmax
  simp only [trainSameLen, hcount, hfid, Bool.not_true, Bool.false_eq_true, if_false]
  refine foldlM_of_sum (fun p : Bytes => r3ItemLenLen p.length + p.length) (fun p hp t ht => ?_) ?_
  · have hfirst : t + r3ItemLenLen p.length < usizeSize := by omega
    simp only [itemLenLen_of_le (hlen p hp), bind_eq_bind, bind_some, checkedAdd, if_pos hfirst]
    rw [Nat.add_assoc, if_pos ht]
  · rw [usizeSize]
    omega

lemma trainSameEqualLen_eq {n : Nat} (hn : n ≤ 0xFFFF) (hlen : ∀ p ∈ payloads, p.length = n) :
    trainSameEqualLen fid payloads = some (4 + r3ItemLenLen n + n * payloads.length) := by
  obtain ⟨hpos, hmax⟩ := validTrainCount_iff.mp hcount
  obtain ⟨first, rest, rfl⟩ : ∃ first rest, payloads = first :: rest := by
    cases payloads with
    | nil => cases hpos
    | cons first rest => exact ⟨first, rest, rfl⟩
  have hfirst : first.length = n := hlen first mem_cons_self
  have hany : ((first :: rest).any fun p => p.length != n) = false := by
    rw [List.any_eq_false]
    intro p hp
    rw [hlen p hp, bne_self_eq_false]
    exact Bool.false_ne_true
  have hle := r3ItemLenLen_le n
  have hprod : n * (first :: rest).length ≤ 0xFFFF * 64 := Nat.mul_le_mul hn hmax
  have hmul : checkedMul n (first :: rest).length = some (n * (first :: rest).length) := by
    rw [checkedMul, if_pos (by rw [usizeSize]; omega)]
  simp only [trainSameEqualLen, hcount, hfid, Bool.not_true, Bool.false_eq_true, if_false,
    head?_cons, bind_eq_bind, bind_some, hany, hfirst, itemLenLen_of_le hn, hmul]
  rw [checkedAdd, if_pos (by rw [usizeSize]; omega), bind_some, checkedAdd,
    if_pos (by rw [usizeSize]; omega)]

end

lemma trainDictLen_eq {flows : List UInt16} {items : List (UInt8 × Bytes)}
    (hcount : validTrainCount items.length = true) (hflows : validTrainFlows flows items = true)
    (hlen : ∀ item ∈ items, item.2.length ≤ 0xFFFF) :
    trainDictLen flows items = some (3 + 2 * flows.length +
      (items.map fun item => 1 + item.2.length + r3ItemLenLen item.2.length).sum) := by
  have hmax := (validTrainCount_iff.mp hcount).2
  have hfew := (validTrainFlows_iff.mp hflows).2.1
  have hdict : flows.foldlM (fun total _ => checkedAdd total 2) 3 =
      some (3 + 2 * flows.length) := by
    have hall : (flows.map fun _ => 2).sum = 2 * flows.length := by
      rw [map_const', sum_replicate_nat, Nat.mul_comm]
    rw [← hall]
    refine foldlM_of_sum (fun _ => 2) (fun _ _ t ht => if_pos ht) ?_
    rw [hall, usizeSize]
    omega
  have hsum := sum_cost_le
    (fun item : UInt8 × Bytes => 1 + item.2.length + r3ItemLenLen item.2.length)
    (fun item hi => Nat.add_le_add (Nat.add_le_add_left (hlen item hi) 1)
      (r3ItemLenLen_le item.2.length)) hmax
  simp only [trainDictLen, hcount, hflows, Bool.not_true, Bool.false_eq_true, if_false, hdict,
    bind_eq_bind, bind_some]
  refine foldlM_of_sum (fun item : UInt8 × Bytes => 1 + item.2.length + r3ItemLenLen item.2.length)
    (fun item hi t ht => ?_) ?_
  · have hone : t + 1 < usizeSize := by omega
    have htwo : t + 1 + r3ItemLenLen item.2.length < usizeSize := by omega
    have hthree : t + 1 + r3ItemLenLen item.2.length + item.2.length =
        t + (1 + item.2.length + r3ItemLenLen item.2.length) := by omega
    simp only [itemLenLen_of_le (hlen item hi), bind_some, checkedAdd, if_pos hone, if_pos htwo]
    rw [hthree, if_pos ht]
  · rw [usizeSize]
    omega

end Rev3

namespace Rev2

lemma trainDictLen_eq {flows : List UInt32} {items : List (UInt8 × Bytes)}
    (hcount : validTrainCount items.length = true) (hflows : validTrainFlows flows items = true)
    (hlen : ∀ item ∈ items, item.2.length < 2 ^ 32) :
    trainDictLen flows items = some (4 + (flows.map varintLen).sum +
      (items.map fun item => 1 + item.2.length + varintLen (itemLen32 item.2)).sum) := by
  have hmax := (validTrainCount_iff.mp hcount).2
  have hfew := (validTrainFlows_iff.mp hflows).2.1
  have hvarints := sum_cost_le varintLen (fun f _ => varintLen_le f) hfew
  have hdict : flows.foldlM (fun total f => checkedAdd total (varintLen f)) 4 =
      some (4 + (flows.map varintLen).sum) := by
    refine foldlM_of_sum varintLen (fun _ _ t ht => if_pos ht) ?_
    rw [usizeSize]
    omega
  have hsum := sum_cost_le
    (fun item : UInt8 × Bytes => 1 + item.2.length + varintLen (itemLen32 item.2))
    (fun item hi => Nat.add_le_add (Nat.add_le_add_left (hlen item hi).le 1)
      (varintLen_le (itemLen32 item.2))) hmax
  simp only [trainDictLen, hcount, hflows, Bool.not_true, Bool.false_eq_true, if_false, hdict,
    bind_eq_bind, bind_some]
  refine foldlM_of_sum
    (fun item : UInt8 × Bytes => 1 + item.2.length + varintLen (itemLen32 item.2))
    (fun item _ t ht => ?_) ?_
  · rw [checkedAdd, Nat.add_right_comm 1, if_pos ht]
  · rw [usizeSize]
    omega

end Rev2

namespace Wire.TrainReq

/-- Length that the codec of the revision asks for. -/
def len (w : Wire) (r : TrainReq) : Option Nat :=
  match w with
  | rev2 => r.toRev2.len
  | rev3 => r.toRev3.bind Rev3.TrainReq.len

/-- A request is encoded in its length. -/
lemma encode_of_len {w : Wire} {r : TrainReq} {n limit : Nat} (h : r.len w = some n)
    (hn : n ≤ limit) : ∃ frame, r.encode w limit = some frame ∧ frame.length = n := by
  cases w with
  | rev2 =>
    exact ⟨_, (encode_rev2 r limit).trans (Rev2.TrainReq.encode_eq_some.mpr ⟨n, h, hn, rfl⟩),
      (Rev2.TrainReq.length_of_len h).symm⟩
  | rev3 =>
    obtain ⟨t, ht, hlen⟩ := bind_eq_some_iff.mp h
    refine ⟨t.layout, ?_, (Rev3.TrainReq.train_of_len hlen).1.symm⟩
    rw [encode_rev3, ht, bind_some]
    exact Rev3.TrainReq.encode_eq_some.mpr ⟨n, hlen, hn, rfl⟩

end Wire.TrainReq

/-- The lengths that an item of a train can have. -/
def Wire.Carries (w : Wire) (n : Nat) : Prop :=
  match w with
  | rev2 => n < 2 ^ 32
  | rev3 => n ≤ 0xFFFF

lemma Wire.carries_of_le (w : Wire) {n : Nat} (h : n ≤ 0xFFFF) : w.Carries n := by
  cases w with
  | rev2 => exact h.trans_lt (by decide)
  | rev3 => exact h

variable {flows flows' : List UInt32} {id : UInt32} {run : List R2StageItem}
  {views : List (UInt8 × Bytes)} {cand : R2StageItem}

/-- Representable ids have distinct ids of rev3, one for each. -/
lemma Wire.exists_fids (h : ∀ id ∈ flows, rev3.Representable id) :
    ∃ fids, flows.mapM fidFor = some fids ∧ fids.length = flows.length ∧
      (∀ fid ∈ fids, ∃ id ∈ flows, fidFor id = some fid) ∧ (flows.Nodup → fids.Nodup) := by
  induction flows with
  | nil => exact ⟨[], rfl, rfl, nofun, fun _ => nodup_nil⟩
  | cons id flows ih =>
    obtain ⟨fids, hfids, hlen, hback, hnodup⟩ := ih fun id' hid' => h id' (mem_cons_of_mem id hid')
    obtain ⟨fid, hfid⟩ := isSome_iff_exists.mp (h id mem_cons_self)
    refine ⟨fid :: fids, ?_, ?_, ?_, ?_⟩
    · rw [mapM_cons, hfid, hfids]
      rfl
    · rw [length_cons, length_cons, hlen]
    · intro fid' hfid'
      rcases mem_cons.mp hfid' with rfl | hfid'
      · exact ⟨id, mem_cons_self, hfid⟩
      · obtain ⟨id', hid', heq⟩ := hback fid' hfid'
        exact ⟨id', mem_cons_of_mem id hid', heq⟩
    · intro hn
      rw [nodup_cons] at hn ⊢
      refine ⟨fun hmem => ?_, hnodup hn.2⟩
      obtain ⟨id', hid', heq⟩ := hback fid hmem
      have hsame := (fidFor_eq_some_iff.mp heq).symm.trans (fidFor_eq_some_iff.mp hfid)
      exact hn.1 (some.inj hsame ▸ hid')

/-- What the encoder makes of a run: the flows in the order they first come in, and every payload
with the index of its flow. -/
structure RunViews (run : List R2StageItem) (flows : List UInt32) (views : List (UInt8 × Bytes)) :
    Prop where
  eq : trainViews [] run = some (flows, views)
  payloads : views.map Prod.snd = run.map fun item => item.payload
  inside : ∀ v ∈ views, v.1.toNat < flows.length
  nodup : flows.Nodup
  few : flows.length ≤ run.length
  named : ∀ id ∈ flows, ∃ item ∈ run, item.kind = .steady id

lemma runViews_nil : RunViews [] [] [] where
  eq := rfl
  payloads := rfl
  inside _ hv := by cases hv
  nodup := nodup_nil
  few := le_rfl
  named _ hid := by cases hid

lemma trainViews_append {item : R2StageItem} (h : trainViews flows run = some (flows', views))
    (hkind : item.kind = .steady id) (hfew : flows'.length < Rev2.maxTrainItems) :
    ∃ idx : Nat, idx < (if flows'.contains id then flows' else flows' ++ [id]).length ∧
      trainViews flows (run ++ [item]) =
        some (if flows'.contains id then flows' else flows' ++ [id],
          views ++ [(UInt8.ofNat idx, item.payload)]) := by
  induction run generalizing flows views with
  | nil =>
    cases h
    rw [nil_append, trainViews, hkind]
    cases hidx : List.idxOf? id flows' with
    | some idx =>
      obtain ⟨hlt, hget, -⟩ := idxOf?_eq_some_iff.mp hidx
      have hmem : flows'.contains id = true := contains_iff_mem.mpr (hget ▸ getElem_mem hlt)
      rw [if_pos hmem]
      refine ⟨idx, hlt, ?_⟩
      dsimp only
      rw [hidx]
      rfl
    | none =>
      have hmem : ¬ flows'.contains id = true := fun hmem =>
        idxOf?_eq_none_iff.mp hidx (contains_iff_mem.mp hmem)
      rw [if_neg hmem]
      refine ⟨flows'.length, by simp, ?_⟩
      dsimp only
      rw [hidx, if_neg (Nat.not_le.mpr hfew)]
      rfl
  | cons head run ih =>
    rw [cons_append]
    unfold trainViews at h ⊢
    generalize head.kind = head' at h ⊢
    cases head' with
    | opening | inline => cases h
    | steady wireId =>
      dsimp only at h ⊢
      cases hidx : List.idxOf? wireId flows with
      | some idx =>
        rw [hidx] at h
        obtain ⟨⟨inner, tail⟩, hrun, heq⟩ := bind_eq_some_iff.mp h
        cases heq
        obtain ⟨last, hlast, happ⟩ := ih hrun
        refine ⟨last, hlast, ?_⟩
        rw [happ]
        rfl
      | none =>
        rw [hidx] at h
        dsimp only at h ⊢
        split at h
        · cases h
        rename_i hroom
        obtain ⟨⟨inner, tail⟩, hrun, heq⟩ := bind_eq_some_iff.mp h
        cases heq
        obtain ⟨last, hlast, happ⟩ := ih hrun
        refine ⟨last, hlast, ?_⟩
        rw [if_neg hroom, happ]
        rfl

lemma RunViews.append {item : R2StageItem} (h : RunViews run flows views)
    (hkind : item.kind = .steady id) (hroom : run.length < Rev2.maxTrainItems) :
    ∃ view, RunViews (run ++ [item]) (if flows.contains id then flows else flows ++ [id])
      (views ++ [view]) := by
  obtain ⟨idx, hidx, happ⟩ := trainViews_append h.eq hkind (h.few.trans_lt hroom)
  have hmax : Rev2.maxTrainItems = 64 := rfl
  have hlen : (if flows.contains id then flows else flows ++ [id]).length ≤ run.length + 1 := by
    have hfew := h.few
    split
    · omega
    · rw [length_append, length_singleton]
      omega
  have hgrows : flows.length ≤ (if flows.contains id then flows else flows ++ [id]).length := by
    split
    · exact le_rfl
    · rw [length_append]
      exact Nat.le_add_right _ _
  refine ⟨_, happ, ?_, ?_, ?_, ?_, ?_⟩
  · rw [map_append, map_append, h.payloads]
    rfl
  · intro v hv
    rcases mem_append.mp hv with hv | hv
    · exact (h.inside v hv).trans_le hgrows
    · rw [mem_singleton.mp hv, UInt8.toNat_ofNat']
      exact (Nat.mod_le _ _).trans_lt hidx
  · split
    · exact h.nodup
    rename_i hnew
    rw [contains_iff_mem] at hnew
    rw [nodup_append]
    refine ⟨h.nodup, nodup_singleton id, fun x hx y hy => ?_⟩
    rintro rfl
    exact hnew (mem_singleton.mp hy ▸ hx)
  · rw [length_append, length_singleton]
    exact hlen
  · intro id' hid'
    have hold : ∀ id' ∈ flows, ∃ x ∈ run ++ [item], x.kind = .steady id' := by
      intro id' hid'
      obtain ⟨x, hx, hxkind⟩ := h.named id' hid'
      exact ⟨x, mem_append_left _ hx, hxkind⟩
    split at hid'
    · exact hold id' hid'
    rcases mem_append.mp hid' with hid' | hid'
    · exact hold id' hid'
    · rw [mem_singleton.mp hid']
      exact ⟨item, mem_append_right _ mem_cons_self, hkind⟩

/-- What the encoder asks for first: on rev3 the forms of one flow, where the run has one. -/
def trainOf (w : Wire) (flows : List UInt32) (views : List (UInt8 × Bytes))
    (payloads : List Bytes) : Wire.TrainReq :=
  match w, flows with
  | .rev3, [id] =>
    if payloads.all fun p => p.length == payloads.headI.length then .sameEqual id payloads
    else .same id payloads
  | _, _ => .dict flows views

lemma trainOf_of_length_ne (h : flows.length ≠ 1) (payloads : List Bytes) :
    trainOf .rev3 flows views payloads = .dict flows views := by
  match flows, h with
  | [], _ => rfl
  | [_], h => exact absurd rfl h
  | _ :: _ :: _, _ => rfl

section

variable {w : Wire} {run : List R2StageItem} {flows : List UInt32} {views : List (UInt8 × Bytes)}

variable (h : RunViews run flows views) (cost : Bytes → Nat)
include h

lemma RunViews.encodeTrainRun_of_len {n limit : Nat}
    (hlen : (trainOf w flows views (run.map fun item => item.payload)).len w = some n)
    (hn : n ≤ limit) : ∃ frame, encodeTrainRun w run limit = some frame ∧ frame.length = n := by
  obtain ⟨frame, hframe, hlength⟩ := encode_of_len hlen hn
  refine ⟨frame, ?_, hlength⟩
  rw [encodeTrainRun, h.eq]
  cases w with
  | rev2 => exact hframe
  | rev3 =>
    match flows, hframe with
    | [], hframe => exact hframe
    | _ :: _ :: _, hframe => exact hframe
    | [id], hframe =>
      dsimp only [trainOf] at hframe
      simp only [bind_eq_bind, bind_some, encodeTrainOneFlow]
      by_cases hall : (run.map payload).all (fun p =>
          p.length == (run.map payload).headI.length) = true
      · rw [if_pos hall] at hframe ⊢
        rw [show rev3.encodeTrainSameEqual id _ limit = some frame from hframe]
        rfl
      rw [if_neg hall] at hframe ⊢
      rw [show rev3.encodeTrainSame id _ limit = some frame from hframe]
      rfl

lemma RunViews.sum_map :
    (views.map fun v => cost v.2).sum = (run.map fun item => cost item.payload).sum := by
  have hmaps := congrArg (List.map cost) h.payloads
  rw [List.map_map, List.map_map] at hmaps
  exact congrArg List.sum hmaps

lemma RunViews.length_eq : views.length = run.length := by
  have hlen := congrArg List.length h.payloads
  rwa [length_map, length_map] at hlen

lemma RunViews.length_pos (hne : run ≠ []) : 0 < flows.length := by
  cases views with
  | nil =>
    have hlen := h.length_eq
    exact absurd (length_eq_zero_iff.mp hlen.symm) hne
  | cons v views => exact Nat.zero_lt_of_lt (h.inside v mem_cons_self)

lemma RunViews.carries_of_mem (hlen : ∀ item ∈ run, w.Carries item.payload.length)
    (v : UInt8 × Bytes) (hv : v ∈ views) : w.Carries v.2.length := by
  have hmem : v.2 ∈ run.map fun item => item.payload := h.payloads ▸ mem_map_of_mem hv
  obtain ⟨item, hitem, heq⟩ := mem_map.mp hmem
  exact heq ▸ hlen item hitem

lemma RunViews.len_dict_rev2 (hne : run ≠ []) (hcount : run.length ≤ Rev2.maxTrainItems)
    (hlen : ∀ item ∈ run, rev2.Carries item.payload.length)
    (hids : ∀ id ∈ flows, rev2.Representable id) :
    (dict flows views).len .rev2 = some (4 + (flows.map Rev2.varintLen).sum +
      (run.map fun item => 1 + item.payload.length +
        Rev2.varintLen (UInt32.ofNat item.payload.length)).sum) := by
  have hmax : Rev2.maxTrainItems = 64 := rfl
  have hpos := h.length_pos hne
  have hfew := h.few
  have hvalid : Rev2.validTrainFlows flows views = true := by
    rw [Rev2.validTrainFlows_iff, h.length_eq]
    refine ⟨length_pos_iff.mp hpos, by omega, hfew, fun id hid => ?_, h.nodup, h.inside⟩
    rw [Rev2.validWireId, bne_iff_ne]
    exact hids id hid
  have hc : Rev2.validTrainCount views.length = true := by
    rw [Rev2.validTrainCount_iff, h.length_eq]
    exact ⟨length_pos_iff.mpr hne, hcount⟩
  refine (Rev2.trainDictLen_eq hc hvalid (h.carries_of_mem hlen)).trans ?_
  rw [h.sum_map fun p => 1 + p.length + Rev2.varintLen (Rev2.itemLen32 p)]
  rfl

lemma RunViews.len_dict_rev3 (hne : run ≠ []) (hcount : run.length ≤ Rev3.maxTrainItems)
    (hlen : ∀ item ∈ run, rev3.Carries item.payload.length)
    (hids : ∀ id ∈ flows, rev3.Representable id) :
    (dict flows views).len .rev3 = some (3 + 2 * flows.length +
      (run.map fun item => 1 + item.payload.length + r3ItemLenLen item.payload.length).sum) := by
  have hpos := h.length_pos hne
  have hfew := h.few
  obtain ⟨fids, hfids, hflen, hback, hnodup⟩ := exists_fids hids
  have hvalid : Rev3.validTrainFlows fids views = true := by
    rw [Rev3.validTrainFlows_iff, h.length_eq, ← length_pos_iff, hflen]
    refine ⟨hpos, hfew.trans hcount, hfew, fun fid hfid => ?_, hnodup h.nodup, h.inside⟩
    obtain ⟨id, -, hid⟩ := hback fid hfid
    exact validFid_of_fidFor hid
  have hc : Rev3.validTrainCount views.length = true := by
    rw [Rev3.validTrainCount_iff, h.length_eq]
    exact ⟨length_pos_iff.mpr hne, hcount⟩
  have hreq : (dict flows views).toRev3 = some (.dict fids views) := by
    rw [toRev3, if_neg (by omega), hfids]
    rfl
  rw [len, hreq]
  refine (Rev3.trainDictLen_eq hc hvalid (h.carries_of_mem hlen)).trans ?_
  rw [h.sum_map fun p => 1 + p.length + r3ItemLenLen p.length, hflen]

end

/-- The flows of a run with one more item. -/
def withFlow (flows : List UInt32) (id : UInt32) : List UInt32 :=
  if flows.contains id then flows else flows ++ [id]

/-- The flows of a run, in the order they first come in. -/
def runFlows (run : List R2StageItem) : List UInt32 :=
  run.foldl (fun flows item => (item.kind.wireId?.map (withFlow flows)).getD flows) []

lemma runFlows_append (hkind : cand.kind = .steady id) :
    runFlows (run ++ [cand]) = withFlow (runFlows run) id := by
  unfold runFlows
  rw [foldl_append, foldl_cons, foldl_nil, hkind]
  rfl

/-- The dictionary that the encoder builds. -/
lemma trainViews_flows (h : trainViews flows run = some (flows', views)) :
    run.foldl (fun flows item => (item.kind.wireId?.map (withFlow flows)).getD flows) flows =
      flows' := by
  induction run generalizing flows views with
  | nil =>
    cases h
    rfl
  | cons item run ih =>
    rw [foldl_cons]
    unfold trainViews at h
    generalize item.kind = kind' at h ⊢
    cases kind' with
    | opening id sess addr src =>
      cases h
    | inline sess addr src =>
      cases h
    | steady wireId =>
      dsimp only at h
      have hflow : ((R2StageKind.steady wireId).wireId?.map (withFlow flows)).getD flows =
          withFlow flows wireId := rfl
      rw [hflow]
      unfold withFlow
      cases hidx : List.idxOf? wireId flows with
      | some idx =>
        rw [hidx] at h
        obtain ⟨⟨inner, tail⟩, hrun, heq⟩ := bind_eq_some_iff.mp h
        cases heq
        obtain ⟨hlt, hget, -⟩ := idxOf?_eq_some_iff.mp hidx
        rw [if_pos (contains_iff_mem.mpr (hget ▸ getElem_mem hlt))]
        exact ih hrun
      | none =>
        rw [hidx] at h
        dsimp only at h
        split at h
        · cases h
        obtain ⟨⟨inner, tail⟩, hrun, heq⟩ := bind_eq_some_iff.mp h
        cases heq
        have hnew := idxOf?_eq_none_iff.mp hidx
        rw [if_neg fun hmem => hnew (contains_iff_mem.mp hmem)]
        exact ih hrun

lemma RunViews.flows_eq (h : RunViews run flows views) : runFlows run = flows :=
  trainViews_flows h.eq

lemma named_eq_withFlow :
    (if (!flows.contains id) = true then flows ++ [id] else flows) = withFlow flows id := by
  unfold withFlow
  cases flows.contains id <;> rfl

lemma length_withFlow : flows.length + (!flows.contains id).toNat = (withFlow flows id).length := by
  unfold withFlow
  cases flows.contains id with
  | true => rfl
  | false =>
    rw [if_neg Bool.false_ne_true, length_append]
    rfl

/-- The cost depends on the flows with the new one only. -/
lemma packedSteadyLen_congr (w : Wire) (h : withFlow flows id = withFlow flows' id) :
    packedSteadyLen w run cand id flows (!flows.contains id) =
      packedSteadyLen w run cand id flows' (!flows'.contains id) := by
  cases run with
  | nil => rfl
  | cons first rest =>
    unfold packedSteadyLen
    rw [named_eq_withFlow, named_eq_withFlow, length_withFlow, length_withFlow, h]

/-- What the stager adds up for a run when its last item joins it. -/
def lastCost (w : Wire) (run : List R2StageItem) : Option Nat := do
  let cand ← run.getLast?
  let .steady id := cand.kind | none
  let flows := runFlows run.dropLast
  some (packedSteadyLen w run.dropLast cand id flows (!flows.contains id))

lemma lastCost_append (w : Wire) (run : List R2StageItem) (hkind : cand.kind = .steady id)
    (hflows : withFlow flows id = runFlows (run ++ [cand])) :
    lastCost w (run ++ [cand]) =
      some (packedSteadyLen w run cand id flows (!flows.contains id)) := by
  rw [runFlows_append hkind] at hflows
  unfold lastCost
  rw [getLast?_append, dropLast_concat, packedSteadyLen_congr w hflows]
  simp [hkind]

/-- The cost of a run of one item is the length of the frame of that item. -/
lemma encodeDataSteady_of_packed {w : Wire} {newFlow : Bool} {limit : Nat}
    (hid : w.Representable id) (h : packedSteadyLen w [] cand id flows newFlow ≤ limit) :
    ∃ frame, w.encodeDataSteady id cand.payload limit = some frame ∧
      frame.length = packedSteadyLen w [] cand id flows newFlow := by
  cases w with
  | rev2 =>
    have hform : (Rev2.Form.steady id).encodeData cand.payload limit =
        some ((Rev2.Form.steady id).dataLayout cand.payload) :=
      Rev2.encodeData_eq_some.mpr ⟨bne_iff_ne.mpr hid, trivial, h, rfl⟩
    exact ⟨_, hform, @Rev2.length_dataLayout (.steady id) trivial cand.payload⟩
  | rev3 =>
    obtain ⟨fid, hfid⟩ := isSome_iff_exists.mp hid
    have hform : (Rev3.Form.steady fid).encodeData cand.payload limit =
        some ((Rev3.Form.steady fid).dataLayout cand.payload) :=
      Rev3.encodeData_eq_some.mpr ⟨validFid_of_fidFor hfid, trivial, h, rfl⟩
    refine ⟨(Rev3.Form.steady fid).dataLayout cand.payload, ?_, ?_⟩
    · rw [encodeDataSteady, hfid]
      exact hform
    · exact @Rev3.length_dataLayout (.steady fid) trivial cand.payload

/-- The cost of a run of one flow of rev3 is the length of the form without a dictionary. -/
lemma len_trainOf_single {first : R2StageItem} {rest : List R2StageItem} {only : UInt32}
    (hcount : (first :: rest).length < Rev2.maxTrainItems)
    (hlen : ∀ item ∈ first :: rest ++ [cand], rev3.Carries item.payload.length)
    (hid : rev3.Representable only) :
    (trainOf .rev3 [only] views ((first :: rest ++ [cand]).map payload)).len .rev3 =
      some (if cand.payload.length = first.payload.length ∧
          (first :: rest).all (fun i => i.payload.length == first.payload.length) then
        4 + r3ItemLenLen first.payload.length + ((first :: rest).length + 1) * first.payload.length
      else
        4 + r3ItemLenLen cand.payload.length + cand.payload.length +
          ((first :: rest).map fun i => r3ItemLenLen i.payload.length + i.payload.length).sum) := by
  obtain ⟨fid, hfid⟩ := isSome_iff_exists.mp hid
  have hvalid := validFid_of_fidFor hfid
  have hlength : ((first :: rest ++ [cand]).map payload).length = (first :: rest).length + 1 := by
    rw [length_map, length_append, length_singleton]
  have hc : Rev3.validTrainCount ((first :: rest ++ [cand]).map payload).length = true := by
    rw [hlength, Rev3.validTrainCount_iff]
    exact ⟨Nat.le_add_left 1 _, hcount⟩
  have hall : ((first :: rest ++ [cand]).map payload).all (fun p =>
        p.length == ((first :: rest ++ [cand]).map payload).headI.length) = true ↔
      cand.payload.length = first.payload.length ∧
        (first :: rest).all (fun i => i.payload.length == first.payload.length) = true := by
    simp only [List.cons_append, List.map_cons, List.headI_cons, List.map_append, List.map_nil,
      List.all_cons, List.all_append, List.all_map, List.all_nil, Bool.and_true, Bool.and_eq_true,
      beq_self_eq_true, true_and, Function.comp_def, beq_iff_eq]
    exact and_comm
  unfold trainOf
  dsimp only
  by_cases heq : cand.payload.length = first.payload.length ∧
      (first :: rest).all (fun i => i.payload.length == first.payload.length) = true
  · rw [if_pos heq, if_pos (hall.mpr heq)]
    have hsame : ∀ p ∈ (first :: rest ++ [cand]).map payload, p.length = first.payload.length := by
      intro p hp
      have hp' := all_eq_true.mp (hall.mpr heq) p hp
      exact beq_iff_eq.mp hp'
    rw [len, toRev3, hfid]
    refine (Rev3.trainSameEqualLen_eq hc hvalid (hlen first mem_cons_self) hsame).trans ?_
    rw [hlength, Nat.mul_comm]
  · rw [if_neg heq, if_neg fun hc => heq (hall.mp hc)]
    rw [len, toRev3, hfid]
    refine (Rev3.trainSameLen_eq hc hvalid (List.forall_mem_map.mpr hlen)).trans ?_
    rw [List.map_map, List.map_append, List.sum_append, Option.some.injEq]
    simp only [Function.comp_def, List.map_cons, List.map_nil, List.sum_cons, List.sum_nil]
    omega

lemma RunViews.len_trainOf {w : Wire} (h : RunViews (run ++ [cand]) (withFlow flows id) views)
    (hne : run ≠ []) (hcount : run.length < Rev2.maxTrainItems)
    (hlen : ∀ item ∈ run ++ [cand], w.Carries item.payload.length)
    (hids : ∀ id' ∈ withFlow flows id, w.Representable id') :
    (trainOf w (withFlow flows id) views ((run ++ [cand]).map fun item => item.payload)).len w =
      some (packedSteadyLen w run cand id flows (!flows.contains id)) := by
  have hlong : (run ++ [cand]).length ≤ Rev2.maxTrainItems := by
    rw [length_append, length_singleton]
    exact hcount
  obtain ⟨first, rest, rfl⟩ : ∃ first rest, run = first :: rest := exists_cons_of_ne_nil hne
  unfold packedSteadyLen
  dsimp only
  rw [named_eq_withFlow, length_withFlow]
  cases w with
  | rev2 =>
    rw [if_neg (fun hc => by cases hc.1)]
    exact h.len_dict_rev2 (by simp) hlong hlen hids
  | rev3 =>
    by_cases hsingle : (withFlow flows id).length = 1
    · rw [if_pos ⟨rfl, hsingle⟩]
      obtain ⟨only, hflows⟩ := length_eq_one_iff.mp hsingle
      rw [hflows] at hids ⊢
      exact len_trainOf_single hcount hlen (hids only mem_cons_self)
    rw [if_neg fun hc => hsingle hc.2]
    rw [trainOf_of_length_ne hsingle, h.len_dict_rev3 (by simp) hlong hlen hids]
    have htwo : ((withFlow flows id).map fun _ => 2).sum = 2 * (withFlow flows id).length := by
      rw [map_const', sum_replicate_nat, Nat.mul_comm]
    rw [htwo]

end MyQuic2
