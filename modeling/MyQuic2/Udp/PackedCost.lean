import MyQuic2.Udp.Packing

/-!
# The items and the cost of a packed frame

A frame of staged items is a frame of one of them, or a train whose entries are the
ids and the payloads of them. The stager adds up what a run of steady items will cost
before any encoder sees it. The cost at the last item of the run is the length of the
frame that is encoded, the frame reads back as the items that were claimed, and no such
frame is given up, as long as the items of a train have room for the lengths.
-/

namespace MyQuic2

section

open List Option

def entriesOf (run : List R2StageItem) : List (UInt32 × Bytes) :=
  run.filterMap fun item => item.kind.wireId?.map fun id => (id, item.payload)

lemma entriesOf_cons {item : R2StageItem} {id : UInt32} (hkind : item.kind = .steady id)
    (run : List R2StageItem) : entriesOf (item :: run) = (id, item.payload) :: entriesOf run := by
  unfold entriesOf
  rw [filterMap_cons, hkind]
  rfl

variable {run : List R2StageItem}

lemma mem_entriesOf (hsteady : ∀ item ∈ run, ∃ id, item.kind = .steady id) {e : UInt32 × Bytes}
    (he : e ∈ entriesOf run) : ∃ item ∈ run, item.kind = .steady e.1 ∧ item.payload = e.2 := by
  obtain ⟨item, hitem, heq⟩ := mem_filterMap.mp he
  obtain ⟨id, hkind⟩ := hsteady item hitem
  rw [hkind] at heq
  obtain rfl := some.inj heq
  exact ⟨item, hitem, hkind, rfl⟩

lemma entriesOf_of_single {id : UInt32} (h : ∀ item ∈ run, item.kind = .steady id) :
    (run.map R2StageItem.payload).map (id, ·) = entriesOf run := by
  induction run with
  | nil => rfl
  | cons item run ih =>
    rw [entriesOf_cons (h item mem_cons_self), map_cons, map_cons,
      ih fun x hx => h x (mem_cons_of_mem item hx)]

lemma trainViews_spec {flows flows' : List UInt32} {views : List (UInt8 × Bytes)}
    (hfew : flows.length ≤ Rev2.maxTrainItems) (h : trainViews flows run = some (flows', views)) :
    (∀ (i : Nat) (id : UInt32), flows[i]? = some id → flows'[i]? = some id) ∧
      (∀ item ∈ run, ∃ id ∈ flows', item.kind = .steady id) ∧
      views.map (fun v => (flows'.getD v.1.toNat 0, v.2)) = entriesOf run := by
  have hmax : Rev2.maxTrainItems = 64 := rfl
  induction run generalizing flows views with
  | nil =>
    cases h
    exact ⟨fun _ _ h => h, fun x hx => (by cases hx), rfl⟩
  | cons item run ih =>
    -- The head is found at its index, and the rest is the induction hypothesis.
    have hstep : ∀ {inner : List UInt32} {i : Nat} {id : UInt32} {tail : List (UInt8 × Bytes)},
        inner.length ≤ Rev2.maxTrainItems → i < Rev2.maxTrainItems → item.kind = .steady id →
        (∀ (j : Nat) (id : UInt32), flows[j]? = some id → inner[j]? = some id) →
        inner[i]? = some id → trainViews inner run = some (flows', tail) →
        (∀ (j : Nat) (id : UInt32), flows[j]? = some id → flows'[j]? = some id) ∧
          (∀ x ∈ item :: run, ∃ id ∈ flows', x.kind = .steady id) ∧
          ((UInt8.ofNat i, item.payload) :: tail).map
            (fun v => (flows'.getD v.1.toNat 0, v.2)) = entriesOf (item :: run) := by
      intro inner i id tail hinner hi hkind hgrows hget htail
      obtain ⟨hkeep, hnamed, hviews⟩ := ih hinner htail
      refine ⟨fun j id' hj => hkeep j id' (hgrows j id' hj), fun x hx => ?_, ?_⟩
      · rcases mem_cons.mp hx with rfl | hx
        · exact ⟨id, mem_of_getElem? (hkeep i id hget), hkind⟩
        · exact hnamed x hx
      · have hidx : (UInt8.ofNat i).toNat = i := by
          rw [UInt8.toNat_ofNat']
          omega
        rw [map_cons, hviews, entriesOf_cons hkind, hidx, getD_eq_getElem?_getD, hkeep i id hget]
        rfl
    unfold trainViews at h
    generalize hkind : item.kind = kind' at h ⊢
    cases kind' with
    | opening id sess addr src =>
      cases h
    | inline sess addr src =>
      cases h
    | steady wireId =>
      dsimp only at h
      cases hidx : List.idxOf? wireId flows with
      | some i =>
        rw [hidx] at h
        obtain ⟨⟨inner, tail⟩, htail, heq⟩ := bind_eq_some_iff.mp h
        cases heq
        obtain ⟨hlt, hget, -⟩ := idxOf?_eq_some_iff.mp hidx
        refine hstep hfew (hlt.trans_le hfew) hkind (fun _ _ h => h) ?_ htail
        rw [getElem?_eq_getElem hlt, hget]
      | none =>
        rw [hidx] at h
        dsimp only at h
        split at h
        · cases h
        rename_i hroom
        obtain ⟨⟨inner, tail⟩, htail, heq⟩ := bind_eq_some_iff.mp h
        cases heq
        refine hstep ?_ (Nat.lt_of_not_le hroom) hkind ?_ getElem?_concat_length htail
        · rw [length_append, length_singleton]
          omega
        · intro j id hj
          have hlt : j < flows.length := (List.getElem?_eq_some_iff.mp hj).1
          rw [List.getElem?_append_left hlt]
          exact hj

lemma encodeTrainRun_spec {w : Wire} {limit : Nat} {frame : Bytes}
    (h : encodeTrainRun w run limit = some frame) :
    (∀ item ∈ run, ∃ id, item.kind = .steady id) ∧
      ∃ r : Wire.TrainReq, r.encode w limit = some frame ∧ r.entries = entriesOf run := by
  obtain ⟨⟨flows, views⟩, hviews, h⟩ := bind_eq_some_iff.mp h
  obtain ⟨-, hnamed, hdict⟩ := trainViews_spec (Nat.zero_le _) hviews
  have hdict : (Wire.TrainReq.dict flows views).entries = entriesOf run := hdict
  refine ⟨fun item hitem => ?_, ?_⟩
  · obtain ⟨id, -, hkind⟩ := hnamed item hitem
    exact ⟨id, hkind⟩
  have hone : ∀ wireId, flows = [wireId] →
      (run.map R2StageItem.payload).map (wireId, ·) = entriesOf run := by
    rintro wireId rfl
    refine entriesOf_of_single fun item hitem => ?_
    obtain ⟨id, hid, hkind⟩ := hnamed item hitem
    rw [mem_singleton.mp hid] at hkind
    exact hkind
  cases w with
  | rev2 => exact ⟨.dict flows views, h, hdict⟩
  | rev3 =>
    by_cases hsingle : ∃ wireId, flows = [wireId]
    · obtain ⟨wireId, rfl⟩ := hsingle
      rcases or_eq_some_iff.mp h with hflow | ⟨-, h⟩
      · unfold encodeTrainOneFlow at hflow
        split at hflow
        · rcases or_eq_some_iff.mp hflow with hequal | ⟨-, hsame⟩
          · exact ⟨.sameEqual wireId _, hequal, hone wireId rfl⟩
          · exact ⟨.same wireId _, hsame, hone wireId rfl⟩
        · exact ⟨.same wireId _, hflow, hone wireId rfl⟩
      · exact ⟨.dict [wireId] views, h, hdict⟩
    · refine ⟨.dict flows views, ?_, hdict⟩
      cases flows with
      | nil => exact h
      | cons wireId rest =>
        cases rest with
        | nil => exact absurd ⟨wireId, rfl⟩ hsingle
        | cons _ _ => exact h

end

open PackedFrames

lemma Tiles.mem_le {off stop : Nat} {frames : List PackedFrame} (h : Tiles off frames stop)
    {g : PackedFrame} (hg : g ∈ frames) : off ≤ g.itemOff ∧ g.itemOff + g.itemLen ≤ stop := by
  induction frames generalizing off with
  | nil => cases hg
  | cons f frames ih =>
    obtain ⟨hoff, hrest⟩ := h
    rcases List.mem_cons.mp hg with rfl | hg
    · exact ⟨hoff.ge, hoff ▸ hrest.le⟩
    · obtain ⟨hlow, hhigh⟩ := ih hrest hg
      exact ⟨(Nat.le_add_right _ _).trans hlow, hhigh⟩

namespace PackedFrames

variable {q : PackedFrames} {limit : Nat}

/-- Encoder, items and body of every frame. -/
def contents (q : PackedFrames) : List (FrameShape × List R2StageItem × Option Bytes) :=
  q.frames.map fun f => (f.shape, q.run f, f.body)

def bodyOf (wire : Wire) (limit : Nat) (shape : FrameShape) (run : List R2StageItem) :
    Option Bytes :=
  encodeFrame ⟨[], run, wire⟩ ⟨none, shape, 0, run.length⟩ limit

lemma encodeFrame_eq_bodyOf (q : PackedFrames) (f : PackedFrame) (limit : Nat) :
    q.encodeFrame f limit = bodyOf q.wire limit f.shape (q.run f) := by
  have hrun : run ⟨[], q.run f, q.wire⟩ ⟨none, f.shape, 0, (q.run f).length⟩ = q.run f :=
    List.take_length
  unfold bodyOf encodeFrame
  rw [hrun]

/-- What encoding makes of a frame; without a body it is gone. -/
def encodeContent (wire : Wire) (limit : Nat) (c : FrameShape × List R2StageItem × Option Bytes) :
    Option (FrameShape × List R2StageItem × Option Bytes) :=
  (bodyOf wire limit c.1 c.2.1).map fun body => (c.1, c.2.1, some body)

lemma contents_setBody (i : Nat) (f : PackedFrame) (body : Bytes) :
    contents { q with frames := q.frames.set i { f with body := some body } } =
      q.contents.set i (f.shape, q.run f, some body) := by
  unfold contents
  exact List.map_set

/-- The frames around a removed one keep their items. -/
lemma contents_removeFrame (h : q.Packed) {i : Nat} {f : PackedFrame}
    (hf : q.frames[i]? = some f) :
    (q.removeFrame i f).contents = q.contents.take i ++ q.contents.drop (i + 1) := by
  obtain ⟨hbefore, hbehind⟩ := h.around hf
  have hend := hbehind.le
  unfold contents
  rw [← List.map_take, ← List.map_drop]
  have hframes : (q.removeFrame i f).frames = q.frames.take i ++
      (q.frames.drop (i + 1)).map fun g => { g with itemOff := g.itemOff - f.itemLen } := rfl
  rw [hframes, List.map_append, List.map_map]
  congr 1
  · refine List.map_congr_left fun g hg => ?_
    obtain ⟨-, hle⟩ := hbefore.mem_le hg
    have hrun : (q.removeFrame i f).run g = q.run g := by
      unfold run removeFrame
      rw [List.drop_append_of_le_length (by rw [List.length_take]; omega),
        List.take_append_of_le_length (by rw [List.length_drop, List.length_take]; omega),
        List.drop_take, List.take_take, Nat.min_eq_left (by omega)]
    rw [hrun]
  refine List.map_congr_left fun g hg => ?_
  obtain ⟨hge, -⟩ := hbehind.mem_le hg
  have hrun : (q.removeFrame i f).run { g with itemOff := g.itemOff - f.itemLen } = q.run g := by
    unfold run removeFrame
    dsimp only
    rw [List.drop_append, List.drop_eq_nil_of_le (by rw [List.length_take]; omega),
      List.nil_append, List.length_take, List.drop_drop]
    congr 2
    omega
  dsimp only [Function.comp_apply]
  rw [hrun]

lemma encodeFrom_contents (rounds i : Nat) (q : PackedFrames)
    (booked : List R2StageItem) (h : q.Packed) (hrounds : q.frames.length ≤ rounds + i) :
    (encodeFrom limit rounds i (q, booked)).1.contents =
      q.contents.take i ++ (q.contents.drop i).filterMap (encodeContent q.wire limit) := by
  have hlength : q.contents.length = q.frames.length := List.length_map ..
  induction rounds generalizing i q booked with
  | zero =>
    rw [List.drop_eq_nil_of_le (by omega), List.take_of_length_le (by omega), List.filterMap_nil,
      List.append_nil]
    rfl
  | succ rounds ih =>
    unfold encodeFrom
    cases hf : q.frames[i]? with
    | none =>
      have hi := List.getElem?_eq_none_iff.mp hf
      rw [List.drop_eq_nil_of_le (by omega), List.take_of_length_le (by omega),
        List.filterMap_nil, List.append_nil]
    | some f =>
      obtain ⟨hi, hget⟩ := List.getElem?_eq_some_iff.mp hf
      have hhead : q.contents.drop i = (f.shape, q.run f, f.body) :: q.contents.drop (i + 1) := by
        rw [List.drop_eq_getElem_cons (by omega)]
        congr 1
        unfold contents
        rw [List.getElem_map, hget]
      have hbody := encodeFrame_eq_bodyOf q f limit
      dsimp only
      cases henc : q.encodeFrame f limit with
      | some body =>
        have hstep : encodeContent q.wire limit (f.shape, q.run f, f.body) =
            some (f.shape, q.run f, some body) := by
          unfold encodeContent
          rw [← hbody, henc]
          rfl
        rw [ih (i + 1) _ booked (setBody_packed h hf body)
          (by rw [List.length_set]; omega) (List.length_map ..), contents_setBody i f body,
          hhead, List.filterMap_cons_some hstep, List.drop_set_of_lt (by omega),
          List.take_add_one, List.take_set_of_le le_rfl,
          List.getElem?_set_self (by omega), Option.toList_some, List.append_assoc,
          List.singleton_append]
      | none =>
        have hstep : encodeContent q.wire limit (f.shape, q.run f, f.body) = none := by
          unfold encodeContent
          rw [← hbody, henc]
          rfl
        have hshorter : (q.removeFrame i f).frames.length = q.frames.length - 1 := by
          unfold removeFrame
          rw [List.length_append, List.length_map, List.length_take, List.length_drop]
          omega
        have hwire : (q.removeFrame i f).wire = q.wire := rfl
        have htake : (q.contents.take i).length = i := by
          rw [List.length_take]
          omega
        rw [ih i (q.removeFrame i f) (booked ++ q.run f) (removeFrame_packed h hf)
          (by omega) (List.length_map ..), contents_removeFrame h hf, hwire, hhead,
          List.filterMap_cons_none hstep, List.take_left' htake, List.drop_left' htake]

/-- Encoding gives every frame its body, in order, and takes out the frames without one. -/
lemma encodeClaimed_contents (h : q.Packed) (limit : Nat) :
    (q.encodeClaimed limit).1.contents = q.contents.filterMap (encodeContent q.wire limit) := by
  have hspec := @encodeFrom_contents limit q.frames.length 0 q [] h le_rfl
  rwa [List.take_zero, List.nil_append, List.drop_zero] at hspec

def steadyRuns (q : PackedFrames) : List (List R2StageItem) :=
  (q.contents.filter fun c => c.1 = .steady).map fun c => c.2.1

/-- Steady frames that have a body are all there after encoding. -/
lemma steadyRuns_encodeClaimed (h : q.Packed)
    (hbody : ∀ c ∈ q.contents, c.1 = .steady → (bodyOf q.wire limit c.1 c.2.1).isSome = true) :
    (q.encodeClaimed limit).1.steadyRuns = q.steadyRuns := by
  unfold steadyRuns
  rw [encodeClaimed_contents h]
  revert hbody
  generalize q.contents = l
  intro hbody
  induction l with
  | nil => rfl
  | cons c l ih =>
    have hrest := ih fun c' hc' => hbody c' (List.mem_cons_of_mem c hc')
    by_cases hsteady : c.1 = .steady
    · obtain ⟨body, hsome⟩ := Option.isSome_iff_exists.mp (hbody c List.mem_cons_self hsteady)
      have hstep : encodeContent q.wire limit c = some (c.1, c.2.1, some body) := by
        unfold encodeContent
        rw [hsome]
        rfl
      rw [List.filterMap_cons_some hstep, List.filter_cons_of_pos (by simpa using hsteady),
        List.filter_cons_of_pos (by simpa using hsteady), List.map_cons, List.map_cons, hrest]
    · rw [List.filter_cons_of_neg (a := c) (by simpa using hsteady), ← hrest]
      cases hstep : encodeContent q.wire limit c with
      | none => rw [List.filterMap_cons_none hstep]
      | some c' =>
        obtain ⟨body, -, rfl⟩ := Option.map_eq_some_iff.mp hstep
        rw [List.filterMap_cons_some hstep, List.filter_cons_of_neg (by simpa using hsteady)]

end PackedFrames

/-- The decoder of the frame's class returns the entries. -/
def Wire.ReadsAs (w : Wire) (frame : Bytes) (entries : List (UInt32 × Bytes)) : Prop :=
  match w.kind frame with
  | some .data => ∃ view, w.decodeData frame = .ok view ∧
      (view.wireId.map fun id => (id, view.payload)).toList = entries
  | some .train => ∃ view, w.decodeTrain frame = .ok view ∧
      Yields TrainItemIter.next view.items entries
  | _ => False

variable {limit : Nat}

lemma Wire.readsAs_data {w : Wire} {id : UInt32} {payload frame : Bytes}
    (h : w.encodeDataSteady id payload limit = some frame) : w.ReadsAs frame [(id, payload)] := by
  have hform : (Form.steady id).encodeData w payload limit = some frame := h
  have hkind := Request.kind_of_encode (r := .data (.steady id) payload) hform
  have hread := Request.readBack_data hform
  unfold ReadsAs
  rw [hkind]
  exact ⟨_, hread, rfl⟩

lemma Wire.readsAs_train {w : Wire} {r : TrainReq} {frame : Bytes}
    (h : r.encode w limit = some frame) (hlen : ∀ e ∈ r.entries, w.Carries e.2.length) :
    w.ReadsAs frame r.entries := by
  have hkind := Request.kind_of_encode (r := .train r) h
  have hfit : (Request.train r).ItemsFit w := by
    rintro rfl e he
    rw [TrainReq.entries_toRev2] at he
    exact hlen e he
  unfold ReadsAs
  rw [hkind]
  exact Request.readBack_train hfit h

/-- A steady frame that has a body reads back as its items, whose ids can be written. -/
lemma PackedFrames.readsAs_of_bodyOf {w : Wire} {items : List R2StageItem} {body : Bytes}
    (hlen : ∀ item ∈ items, w.Carries item.payload.length)
    (h : bodyOf w limit .steady items = some body) :
    w.ReadsAs body (entriesOf items) ∧
      ∀ item ∈ items, ∀ id, item.kind = .steady id → w.Representable id := by
  have hrun : run ⟨[], items, w⟩ ⟨none, .steady, 0, items.length⟩ = items := List.take_length
  unfold bodyOf encodeFrame at h
  rw [hrun] at h
  cases items with
  | nil => cases h
  | cons first rest =>
    cases rest with
    | nil =>
      cases hkind : first.kind with
      | opening id sess addr src | inline sess addr src =>
        dsimp only at h
        rw [hkind] at h
        cases h
      | steady id =>
        dsimp only at h
        rw [hkind] at h
        have hframe : w.encodeDataSteady id first.payload limit = some body := h
        refine ⟨?_, fun item hitem id' hkind' => ?_⟩
        · rw [entriesOf_cons hkind]
          exact Wire.readsAs_data hframe
        · obtain rfl := List.mem_singleton.mp hitem
          obtain rfl : id = id' := R2StageKind.steady.inj (hkind.symm.trans hkind')
          have hlegal := (Wire.Request.exists_encode_iff w
            (.data (.steady id) item.payload)).mp ⟨limit, body, hframe⟩
          exact hlegal.1
    | cons second rest =>
      obtain ⟨hsteady, r, hframe, hentries⟩ := encodeTrainRun_spec h
      have hback : ∀ e ∈ r.entries, ∃ item ∈ first :: second :: rest,
          item.kind = .steady e.1 ∧ item.payload = e.2 :=
        fun e he => mem_entriesOf hsteady (hentries ▸ he)
      refine ⟨?_, fun item hitem id hkind => ?_⟩
      · rw [← hentries]
        refine Wire.readsAs_train hframe fun e he => ?_
        obtain ⟨item, hitem, -, hpayload⟩ := hback e he
        exact hpayload ▸ hlen item hitem
      · refine Wire.TrainReq.representable_of_encode hframe (id, item.payload) ?_
        rw [hentries]
        refine List.mem_filterMap.mpr ⟨item, hitem, ?_⟩
        rw [hkind]
        rfl

namespace R2Stager

/-- The frame of every steady run that a drain packs is as long as the cost at its last item, which
is within the limit, and reads back as the items that were claimed; and if the ids can be written,
no such frame is given up. -/
theorem packing_exact (maxItems maxBytes : Nat) (wire : Wire) (ops : List StagerOp)
    (limit maxFrames maxBatch : Nat)
    (hfit : ∀ item ∈ (after next (withCapacityWire maxItems maxBytes wire) ops).queued,
      item.payload.length ≤ limit → wire.Carries item.payload.length) :
    let st := after next (withCapacityWire maxItems maxBytes wire) ops
    let q := (st.claimBatch limit maxFrames maxBatch (.empty wire)).q
    let out := (q.encodeClaimed limit).1
    (∀ f ∈ out.frames, f.shape = .steady → ∃ body, f.body = some body ∧
      lastCost wire (out.run f) = some body.length ∧ body.length ≤ limit ∧
        wire.ReadsAs body (entriesOf (out.run f))) ∧
    ((∀ item ∈ st.queued, ∀ id, item.kind = .steady id → wire.Representable id) →
      out.steadyRuns = q.steadyRuns) := by
  intro st q out
  have hdrain : st.Drainable := drainable_after maxItems maxBytes wire ops
  have hgathered : Claim.Gathered wire st.maxTrainItems limit
      (st.claimBatch limit maxFrames maxBatch (.empty wire)) :=
    (trained_after maxItems maxBytes wire ops).claimBatch limit maxFrames maxBatch
  have hwire : q.wire = wire := hgathered.wire
  -- A steady frame holds a packed run of items that were queued.
  have hrun : ∀ g ∈ q.frames, g.shape = .steady → q.run g ≠ [] ∧
      (∃ flows, PackedRun q.wire limit (q.run g) flows) ∧
        (∀ item ∈ q.run g, item ∈ st.queued) ∧
          ∀ item ∈ q.run g, q.wire.Carries item.payload.length := by
    intro g hg hshape
    have hqueued : ∀ item ∈ q.run g, item ∈ st.queued := fun item hitem =>
      mem_queued_of_claimed hdrain.exact.keyed (List.mem_of_mem_drop (List.mem_of_mem_take hitem))
    rcases hgathered.framed g hg with ⟨halone, -⟩ | ⟨-, hne, flows, hpacked⟩
    · rw [hshape] at halone
      cases halone
    refine ⟨hne, ⟨flows, hwire.symm ▸ hpacked⟩, hqueued, fun item hitem => ?_⟩
    rw [hwire]
    exact hfit item (hqueued item hitem) (hpacked.length_le hitem)
  constructor
  · intro f hf hshape
    have hmem : (f.shape, out.run f, f.body) ∈ out.contents := List.mem_map.mpr ⟨f, hf, rfl⟩
    rw [encodeClaimed_contents hgathered.packed limit] at hmem
    obtain ⟨c, hc, henc⟩ := List.mem_filterMap.mp hmem
    obtain ⟨g, hg, rfl⟩ := List.mem_map.mp hc
    obtain ⟨body, hbody, heq⟩ := Option.map_eq_some_iff.mp henc
    obtain ⟨hsame, hitems, hout⟩ : g.shape = f.shape ∧ q.run g = out.run f ∧
        some body = f.body := by
      simpa only [Prod.mk.injEq] using heq
    have hsteady : g.shape = .steady := hsame.trans hshape
    obtain ⟨hne, ⟨flows, hpacked⟩, -, hcarries⟩ := hrun g hg hsteady
    dsimp only at hbody
    rw [hsteady] at hbody
    obtain ⟨hreads, hids⟩ := readsAs_of_bodyOf hcarries hbody
    obtain ⟨body', hbody', hcost, hle⟩ := hpacked.encodeFrame hne hsteady hcarries hids
    rw [encodeFrame_eq_bodyOf, hsteady] at hbody'
    obtain rfl : body = body' := Option.some.inj (hbody.symm.trans hbody')
    rw [← hitems]
    exact ⟨body, hout.symm, hwire ▸ hcost, hle, hwire ▸ hreads⟩
  · intro hids
    refine steadyRuns_encodeClaimed hgathered.packed fun c hc hshape => ?_
    obtain ⟨g, hg, rfl⟩ := List.mem_map.mp hc
    obtain ⟨hne, ⟨flows, hpacked⟩, hqueued, hcarries⟩ := hrun g hg hshape
    obtain ⟨body, hbody, -⟩ := hpacked.encodeFrame hne hshape hcarries fun item hitem id hkind =>
      hwire.symm ▸ hids item (hqueued item hitem) id hkind
    rw [encodeFrame_eq_bodyOf] at hbody
    exact Option.isSome_iff_exists.mpr ⟨body, hbody⟩

/-- Steady item of flow 4 in session 1. -/
def steadyItem (payload : Bytes) : R2StageItem := ⟨1, .steady 4, payload, 0⟩

/-- Two payloads of one flow leave in one frame. -/
theorem packing_exact_pair :
    let st := after next (withCapacityWire 16 1000 .rev3)
      [.push (steadyItem [7]), .push (steadyItem [8, 9])]
    let q := (st.claimBatch 100 4 16 (.empty .rev3)).q
    (q.encodeClaimed 100).1.steadyRuns = [[steadyItem [7], steadyItem [8, 9]]] := by
  intro st q
  refine ((packing_exact 16 1000 .rev3 [.push (steadyItem [7]), .push (steadyItem [8, 9])] 100 4 16
    fun item _ hle => Wire.rev3.carries_of_le (hle.trans (by decide))).2 ?_).trans rfl
  intro item hitem id hkind
  have hqueued : st.queued = [steadyItem [7], steadyItem [8, 9]] := rfl
  have hsame : item.kind = .steady 4 := by
    have hmem : item ∈ [steadyItem [7], steadyItem [8, 9]] := hqueued ▸ hitem
    rcases List.mem_pair.mp hmem with rfl | rfl <;> rfl
  obtain rfl : (4 : UInt32) = id := R2StageKind.steady.inj (hsame.symm.trans hkind)
  rfl

def shortAndLong (p : Bytes) : R2Stager :=
  after next (withCapacityWire 16 200000 .rev3) [.push (steadyItem [7]), .push (steadyItem p)]

section

variable {p : Bytes} (hp : p.length = 65536)

private abbrev stShort : R2Stager :=
  next (withCapacityWire 16 200000 .rev3) (.push (steadyItem [7]))

private abbrev stBoth (p : Bytes) : R2Stager :=
  { stShort with
    sessions := stShort.sessions.insert 1 [steadyItem [7], steadyItem p]
    queuedItems := 2
    queuedBytes := 1 + p.length }

private abbrev stLong (p : Bytes) : R2Stager :=
  { stBoth p with
    sessions := (stBoth p).sessions.insert 1 [steadyItem p]
    queuedItems := 1
    queuedBytes := 1 + p.length - 1 }

include hp in
lemma shortAndLong_eq : shortAndLong p = stBoth p := by
  have hpush : stShort.push (steadyItem p) = some (stBoth p) := by
    have hbytes : stShort.queuedBytes = 1 := rfl
    have hitems : stShort.queuedItems = 1 := rfl
    have hmaxItems : stShort.maxItems = 16 := rfl
    have hmaxBytes : stShort.maxBytes = 200000 := rfl
    have hlen : (steadyItem p).payload.length = 65536 := hp
    unfold push
    rw [if_neg (by omega)]
    rfl
  change next stShort (.push (steadyItem p)) = _
  unfold next
  simp only [hpush, Option.getD_some]

lemma takeShort : (stBoth p).takeSteadyHead 1 200000 [] [] =
    some (stLong p, [steadyItem [7]], [4]) := rfl

private abbrev stNone (p : Bytes) : R2Stager :=
  (((stLong p).popOne 1).elim (stLong p) Prod.snd).rotateSteadyPast 1

include hp in
lemma takeLong : (stLong p).takeSteadyHead 1 200000 [steadyItem [7]] [4] =
    some (stNone p, [steadyItem [7], steadyItem p], [4]) := by
  have hjoins : (stLong p).joinsRun 200000 [steadyItem [7]] [4] (steadyItem p) 4 = true := by
    have hlen : packedSteadyLen .rev3 [steadyItem [7]] (steadyItem p) 4 [4] false = 65545 := by
      simp [packedSteadyLen, steadyItem, hp, r3ItemLenLen]
    have hle : packedSteadyLen .rev3 [steadyItem [7]] (steadyItem p) 4 [4] false ≤ 200000 := by
      rw [hlen]
      decide
    exact decide_eq_true hle
  have hhead : ((stLong p).sessions.queue 1).head? = some (steadyItem p) := rfl
  have hkind : (steadyItem p).kind = .steady 4 := rfl
  unfold takeSteadyHead
  simp only [hhead, hkind, hjoins, Option.bind_eq_bind, Option.bind_some, guard, if_true]
  rfl

include hp in
lemma claimBatch_shortAndLong :
    ((shortAndLong p).claimBatch 200000 1 16 (.empty .rev3)).q =
      ⟨[⟨none, .steady, 0, 2⟩], [steadyItem [7], steadyItem p], .rev3⟩ := by
  have hrun : steadyRun 200000 64 (stLong p) [steadyItem [7]] [4] =
      ((stNone p).nextSteadySession.2, [steadyItem [7], steadyItem p]) := by
    have hnext : (stLong p).nextSteadySession = (some 1, stLong p) := rfl
    have hend : (stNone p).nextSteadySession = (none, (stNone p).nextSteadySession.2) := rfl
    rw [steadyRun, hnext]
    dsimp only
    rw [takeLong hp]
    dsimp only
    rw [steadyRun, hend]
  have hframe : (Claim.mk (stBoth p) (.empty .rev3) []).steadyFrame 200000 1 =
      ⟨(stNone p).nextSteadySession.2,
        ⟨[⟨none, .steady, 0, 2⟩], [steadyItem [7], steadyItem p], .rev3⟩, []⟩ := by
    unfold Claim.steadyFrame
    rw [takeShort]
    dsimp only
    have htrain : (stLong p).maxTrainItems = 64 := rfl
    rw [htrain, hrun]
    rfl
  have hone : (Claim.mk (stBoth p) (.empty .rev3) []).claimOneFrame 200000 =
      (true, ⟨(stNone p).nextSteadySession.2,
        ⟨[⟨none, .steady, 0, 2⟩], [steadyItem [7], steadyItem p], .rev3⟩, []⟩) :=
    congrArg (Prod.mk true) hframe
  rw [shortAndLong_eq hp]
  change (Claim.claimLoop 200000 1 16 3 ⟨stBoth p, .empty .rev3, []⟩).q = _
  rw [Claim.claimLoop, if_pos ⟨Nat.zero_lt_one, Nat.zero_lt_succ _⟩, hone]
  rfl

include hp in
/-- No form of a train of rev3 has a length field for 65536 octets. -/
lemma encodeTrainRun_long : encodeTrainRun .rev3 [steadyItem [7], steadyItem p] 200000 = none := by
  have hviews : trainViews [] [steadyItem [7], steadyItem p] = some ([4], [(0, [7]), (0, p)]) := rfl
  have hid : Wire.fidFor 4 = some 1 := by decide
  have hlen : Rev3.itemLenLen p.length = none := by
    rw [hp]
    rfl
  have hsame : Wire.rev3.encodeTrainSame 4 [[7], p] 200000 = none := by
    have htotal : Rev3.trainSameLen 1 [[7], p] = none := by
      simp [Rev3.trainSameLen, hlen]
    simp only [Wire.encodeTrainSame, hid, Rev3.encodeTrainSame, htotal, Option.bind_eq_bind,
      Option.bind_some, Option.bind_none]
  have hdict : Wire.rev3.encodeTrainDict [4] [(0, [7]), (0, p)] 200000 = none := by
    have htotal : Rev3.trainDictLen [1] [(0, [7]), (0, p)] = none := by
      simp [Rev3.trainDictLen, hlen]
    simp [Wire.encodeTrainDict, hid, Rev3.encodeTrainDict, htotal]
  have hone : encodeTrainOneFlow .rev3 4 [[7], p] 200000 = none := by
    have hne : ([[7], p] : List Bytes).all (fun x =>
        x.length == ([[7], p] : List Bytes).headI.length) = false := by
      simp [hp]
    unfold encodeTrainOneFlow
    rw [if_neg (Bool.eq_false_iff.mp hne)]
    exact hsame
  unfold encodeTrainRun
  rw [hviews]
  change (encodeTrainOneFlow .rev3 4 [[7], p] 200000).or
    (Wire.rev3.encodeTrainDict [4] [(0, [7]), (0, p)] 200000) = none
  rw [hone, hdict]
  rfl

include hp in
lemma long_gives_up_frame :
    let q := ((shortAndLong p).claimBatch 200000 1 16 (.empty .rev3)).q
    q.steadyRuns = [[steadyItem [7], steadyItem p]] ∧
      (q.encodeClaimed 200000).1.steadyRuns = [] := by
  intro q
  have hq : q = ⟨[⟨none, .steady, 0, 2⟩], [steadyItem [7], steadyItem p], .rev3⟩ :=
    claimBatch_shortAndLong hp
  clear_value q
  subst hq
  refine ⟨rfl, ?_⟩
  have hbody : encodeFrame ⟨[⟨none, .steady, 0, 2⟩], [steadyItem [7], steadyItem p], .rev3⟩
      ⟨none, .steady, 0, 2⟩ 200000 = none := encodeTrainRun_long hp
  change (encodeFrom 200000 1 0 _).1.steadyRuns = _
  rw [encodeFrom]
  dsimp only [List.getElem?_cons_zero]
  rw [hbody]
  rfl

end

/-- The stager counts three octets for the length of 65536 octets and claims the run, but no form
of a train writes that length, so the frame is given up with the short item in it. -/
theorem overlong_item_gives_up_frame :
    let long : Bytes := List.replicate 65536 0
    let q := ((shortAndLong long).claimBatch 200000 1 16 (.empty .rev3)).q
    Wire.rev3.Representable 4 ∧ q.steadyRuns = [[steadyItem [7], steadyItem long]] ∧
      (q.encodeClaimed 200000).1.steadyRuns = [] :=
  ⟨by rfl, long_gives_up_frame List.length_replicate⟩

end R2Stager

end MyQuic2
