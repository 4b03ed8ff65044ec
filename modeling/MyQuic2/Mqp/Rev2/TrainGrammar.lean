import MyQuic2.Mqp.Rev2.Frame

/-!
# The grammar of rev2 trains

A train is a frame header followed by item headers and payloads. The decoder
accepts exactly the octet strings of this grammar, and the iterator walks the
items of an accepted frame one by one until no octet is left.
-/

namespace MyQuic2.Rev2

open List Prod

/-- The octets of an item length. -/
def ItemLenField (s : Bytes) (n : Nat) : Prop := ∃ v : UInt32, VarintField s v ∧ n = v.toNat

def ItemHeader (f : TrainFrame) (hdr : Bytes) (item : UInt32 × Bytes) : Prop :=
  (f.form = trainFormSame ∧ ItemLenField hdr item.2.length ∧ f.flows[0]? = some item.1) ∨
  (f.form = trainFormDict ∧ ∃ (idx : UInt8) (len : Bytes), hdr = idx :: len ∧
    ItemLenField len item.2.length ∧ f.flows[idx.toNat]? = some item.1)

/-- What stands between the item count and the items, by form. -/
def FlowsField (f : TrainFrame) (s : Bytes) : Prop :=
  (f.form = trainFormSame ∧ ∃ id, f.flows = [id] ∧ validWireId id = true ∧ VarintField s id) ∨
  (f.form = trainFormDict ∧ 0 < f.flows.length ∧ f.flows.length ≤ f.count.toNat ∧
    f.flows.Nodup ∧ ∃ entries : List (Bytes × UInt32), f.flows = entries.map snd ∧
      (∀ e ∈ entries, VarintField e.1 e.2 ∧ validWireId e.2 = true) ∧
      s = f.nfl :: entries.flatMap fst)

def FrameHeader (f : TrainFrame) (hdr : Bytes) : Prop :=
  ∃ s, hdr = kindTrain :: f.form :: f.count :: s ∧ FlowsField f s

/-- A frame with its header and its items, as the grammar describes it. -/
structure Train (f : TrainFrame) (hdr : Bytes) (cells : List (Bytes × (UInt32 × Bytes))) :
    Prop where
  header : FrameHeader f hdr
  items : ∀ c ∈ cells, ItemHeader f c.1 c.2
  count : cells.length = f.count.toNat
  valid : validTrainCount f.count.toNat = true
  nfl : f.nfl = UInt8.ofNat f.flows.length
  tiles : f.itemBytes = flatCells snd cells
  /-- The frame is addressable. -/
  short : (hdr ++ f.itemBytes).length < usizeSize

lemma reads_itemLenField : Reads ItemLenField getItemLen :=
  reads_varintField.map UInt32.toNat

lemma peeks_itemLenField : Peeks ItemLenField itemLenAt := by
  intro b s t n off h hr hb
  obtain ⟨v, hv, rfl⟩ := h
  rw [itemLenAt, varintAt_eq, reads_varintField.accepts hv hr hb]
  rfl

lemma VarintField.ne_nil {s : Bytes} {v : UInt32} (h : VarintField s v) : s ≠ [] := by
  intro hs
  rw [hs] at h
  cases h

lemma validTrainFlows_iff {flows : List UInt32} {items : List (UInt8 × Bytes)} :
    validTrainFlows flows items = true ↔ flows ≠ [] ∧ flows.length ≤ 64 ∧
      flows.length ≤ items.length ∧ (∀ f ∈ flows, validWireId f = true) ∧ flows.Nodup ∧
      ∀ item ∈ items, item.1.toNat < flows.length := by
  have hmax : maxTrainItems = 64 := rfl
  simp only [validTrainFlows, Bool.and_eq_true, Bool.not_eq_true', Bool.or_eq_false_iff,
    decide_eq_false_iff_not, isEmpty_eq_false_iff, all_eq_true, decide_eq_true_eq, and_assoc]
  refine and_congr_right fun _ => ⟨?_, ?_⟩
  · rintro ⟨-, hfew, hle, hrest⟩
    exact ⟨by omega, by omega, hrest⟩
  · rintro ⟨hfew, hle, hrest⟩
    exact ⟨by omega, by omega, by omega, hrest⟩

lemma validTrainCount_iff {n : Nat} : validTrainCount n = true ↔ 0 < n ∧ n ≤ 64 := by
  simp only [validTrainCount, Bool.not_eq_true', Bool.or_eq_false_iff, beq_eq_false_iff_ne,
    decide_eq_false_iff_not, Nat.not_lt]
  rw [maxTrainItems]
  omega

section

variable {f : TrainFrame} {hdr : Bytes} {cells : List (Bytes × (UInt32 × Bytes))}

lemma FlowsField.length_le {s : Bytes} (h : FlowsField f s)
    (hv : validTrainCount f.count.toNat = true) : 0 < f.flows.length ∧ f.flows.length ≤ 64 := by
  have hcount := validTrainCount_iff.mp hv
  rcases h with ⟨-, id, hf, -⟩ | ⟨-, hpos, hle, -⟩
  · rw [hf, length_singleton]
    omega
  · omega

/-- The header of an item as the decoder's walk checks it. -/
lemma ItemHeader.headField {hdr : Bytes} {item : UInt32 × Bytes} (h : ItemHeader f hdr item) :
    HeadField ItemLenField (dictOf f.form f.flows) hdr item.2.length := by
  rcases h with ⟨hf, hlen, -⟩ | ⟨hf, idx, len, rfl, hlen, hflow⟩
  · rw [dictOf, if_neg (by rw [hf]; decide)]
    exact hlen
  · rw [dictOf, if_pos hf]
    exact ⟨idx, len, rfl, (List.getElem?_eq_some_iff.mp hflow).1, hlen⟩

lemma toNat_nfl {n : Nat} (h : n ≤ 64) : (UInt8.ofNat n).toNat = n := by
  rw [UInt8.toNat_ofNat']
  omega

lemma decodeFlows_of_field {b s : Bytes} (h : FlowsField f s)
    (hv : validTrainCount f.count.toNat = true) (hn : f.nfl = UInt8.ofNat f.flows.length)
    (hr : Rest b 3 (s ++ f.itemBytes)) (hb : b.length < usizeSize) :
    decodeFlows b f.form f.count = .ok (f.flows, 3 + s.length) := by
  have hlen := h.length_le hv
  rcases h with ⟨hf, id, hflows, hid, hs⟩ | ⟨hf, -, hle, hnodup, entries, hflows, hall, hs⟩
  · simp [decodeFlows, if_pos hf, getWireId, reads_varintField.accepts hs hr hb, ok_bind, hid,
      ensure_true, hflows]
  rw [hs] at hr
  have hr' : Rest b 3 (f.nfl :: (entries.flatMap fst ++ f.itemBytes)) := hr
  have hnum : f.nfl.toNat = entries.length := by
    rw [hn, toNat_nfl hlen.2, hflows, length_map]
  have hlen' : f.flows.length = entries.length := by rw [hflows, length_map]
  have hguard : (!(f.nfl == 0 || decide (f.count < f.nfl) ||
      decide (maxTrainItems < f.nfl.toNat))) = true := by
    have h0 : f.nfl ≠ 0 := by
      intro h0
      rw [h0] at hnum
      simp at hnum
      omega
    have h1 : ¬ f.count < f.nfl := by
      rw [UInt8.lt_iff_toNat_lt]
      omega
    have h2 : ¬ maxTrainItems < f.nfl.toNat := by
      rw [maxTrainItems]
      omega
    simp [h0, h1, h2]
  have hread : readDistinct getVarint validWireId (.malformed "bad r2 train flow id") b
      entries.length 4 [] = .ok ([] ++ entries.map snd,
        4 + (entries.flatMap fst).length) :=
    readDistinct_of_rest reads_varintField [] hall
      (by rw [nil_append, ← hflows]; exact hnodup) hr'.tail hb
  rw [← hnum] at hread
  have hsame : ¬ f.form = trainFormSame := by
    rw [hf]
    decide
  simp only [decodeFlows, if_neg hsame, if_pos hf, readByte_of_rest hr', ok_bind, hguard,
    ensure_true, hread]
  rw [nil_append, ← hflows, hs, length_cons, Nat.add_comm _ 1, ← Nat.add_assoc]

/-- A train of the grammar is accepted and its view returned. -/
lemma decodeTrain_of_train (h : Train f hdr cells) : decodeTrain (hdr ++ f.itemBytes) = .ok f := by
  generalize hb : hdr ++ f.itemBytes = b
  have hshort := h.short
  rw [hb] at hshort
  obtain ⟨s, hhdr, hflows⟩ := h.header
  have r0 : Rest b 0 (kindTrain :: f.form :: f.count :: (s ++ f.itemBytes)) := by
    rw [← hb, hhdr]
    exact Rest.zero _
  have r3 : Rest b 3 (s ++ f.itemBytes) := r0.tail.tail.tail
  have hdict := decodeFlows_of_field hflows h.valid h.nfl r3 hshort
  have hcells : flatCells id (cells.map fun c => (c.1, c.2.2)) = f.itemBytes := by
    rw [h.tiles]
    exact flatCells_map id snd (fun c => c.2.2) (fun _ => rfl) cells
  have hri := r3.append
  have hcheck : checkItems b (dictOf f.form f.flows) (cells.map fun c => (c.1, c.2.2)).length
      (3 + s.length) = _ :=
    walkItems_of_cells reads_itemLenField.itemHead
      (forall_mem_map.mpr fun c hc => (h.items c hc).headField)
      (by rw [hcells, append_nil]; exact hri) hshort
  rw [length_map, h.count, hcells] at hcheck
  have hend : 3 + s.length + f.itemBytes.length = b.length := by
    rw [← hb, hhdr, length_append]
    simp only [length_cons]
    omega
  rw [hend] at hcheck
  have hread1 := readByte_of_rest r0.tail (MqpError.malformed "short r2 train")
  have hread2 := readByte_of_rest r0.tail.tail (MqpError.malformed "short r2 train count")
  rw [Nat.zero_add] at hread1 hread2
  simp [decodeTrain, readByte_of_rest r0, ok_bind, ensure_true, hread1, hread2, h.valid, hdict,
    hcheck, ← h.nfl, hri.drop]

end

lemma field_of_decodeFlows {b : Bytes} {form count : UInt8} {flows : List UInt32} {off : Nat}
    (h : decodeFlows b form count = .ok (flows, off)) (hb : 3 ≤ b.length) :
    ∃ s, off = 3 + s.length ∧ Rest b 3 (s ++ b.drop off) ∧
      FlowsField ⟨form, count, UInt8.ofNat flows.length, flows, b.drop off⟩ s := by
  rw [decodeFlows] at h
  by_cases hs : form = trainFormSame
  · simp only [if_pos hs, getWireId, bind_eq_ok, ensure_eq_ok, Except.ok.injEq, mk.injEq] at h
    obtain ⟨⟨id, stop⟩, ⟨⟨id', stop'⟩, hread, u, hid, hpair⟩, rfl, rfl⟩ := h
    simp only [mk.injEq] at hpair
    obtain ⟨rfl, rfl⟩ := hpair
    obtain ⟨s, hfield, hoff, hrest⟩ := reads_varintField.sound hread hb
    exact ⟨s, hoff, hrest, .inl ⟨hs, id', rfl, hid, hfield⟩⟩
  rw [if_neg hs] at h
  by_cases hd : form = trainFormDict
  · simp only [if_pos hd, bind_eq_ok, ensure_eq_ok] at h
    obtain ⟨nfl, hnfl, u, hguard, h⟩ := h
    simp only [Bool.not_eq_true', Bool.or_eq_false_iff, beq_eq_false_iff_ne,
      decide_eq_false_iff_not] at hguard
    obtain ⟨⟨h0, hle⟩, -⟩ := hguard
    have hr := rest_of_readByte hnfl
    obtain ⟨entries, hflows, hlen, hoff, hall, hnodup, hrest⟩ :=
      entries_of_readDistinct reads_varintField h nodup_nil hr.tail.le
    rw [nil_append] at hflows
    have hnum : flows.length = nfl.toNat := by rw [hflows, length_map, hlen]
    have hnfl' : UInt8.ofNat flows.length = nfl := by rw [hnum, UInt8.ofNat_toNat]
    refine ⟨nfl :: entries.flatMap fst, ?_, ?_, .inr ⟨hd, ?_, ?_, hnodup, entries, hflows,
      hall, ?_⟩⟩
    · rw [hoff, length_cons]
      omega
    · have hsplit := hr.drop
      rw [hrest.drop] at hsplit
      exact ⟨hb, hsplit⟩
    · simp only [hnum]
      have hne : nfl.toNat ≠ 0 := fun hz => h0 (UInt8.toNat_inj.mp hz)
      omega
    · simp only [hnum]
      rw [UInt8.lt_iff_toNat_lt] at hle
      omega
    · rw [hnfl']
  · rw [if_neg hd] at h
    exact absurd h (by simp)

/-- The items the decoder walked over, each with the flow its header names. -/
lemma items_of_headField {form count nfl : UInt8} {flows : List UInt32}
    {itemBytes s : Bytes} (hflows : FlowsField ⟨form, count, nfl, flows, itemBytes⟩ s)
    {cells : List (Bytes × Bytes)}
    (hall : ∀ c ∈ cells, HeadField ItemLenField (dictOf form flows) c.1 c.2.length) :
    ∃ full : List (Bytes × (UInt32 × Bytes)), full.length = cells.length ∧
      flatCells snd full = flatCells id cells ∧
      ∀ c ∈ full, ItemHeader ⟨form, count, nfl, flows, itemBytes⟩ c.1 c.2 := by
  rcases hflows with ⟨hs, id, hids, -, -⟩ | ⟨hd, -⟩
  · simp only at hs hids
    refine ⟨cells.map fun c => (c.1, (id, c.2)), by rw [length_map],
      flatCells_map snd _ (fun c => (id, c.2)) (fun _ => rfl) cells, ?_⟩
    refine forall_mem_map.mpr fun c hc => .inl ⟨hs, ?_, by rw [hids]; rfl⟩
    have hhead := hall c hc
    rw [dictOf, if_neg (by rw [hs]; decide)] at hhead
    exact hhead
  simp only at hd
  refine ⟨cells.map fun c => (c.1, (flows.getD (c.1.headD 0).toNat 0, c.2)), by rw [length_map],
    flatCells_map snd _ (fun c => (flows.getD (c.1.headD 0).toNat 0, c.2)) (fun _ => rfl)
      cells, ?_⟩
  refine forall_mem_map.mpr fun c hc => .inr ⟨hd, ?_⟩
  have hhead := hall c hc
  rw [dictOf, if_pos hd] at hhead
  obtain ⟨idx, len, hhdr, hidx, hlen⟩ := hhead
  refine ⟨idx, len, hhdr, hlen, ?_⟩
  simp [hhdr, getD_eq_getElem?_getD, getElem?_eq_getElem hidx]

variable {f : TrainFrame} {cells : List (Bytes × (UInt32 × Bytes))} {hdr : Bytes}
  {item : UInt32 × Bytes}

/-- Every accepted frame is a header followed by its items. -/
lemma train_of_decodeTrain {b : Bytes} (h : decodeTrain b = .ok f) :
    ∃ hdr cells, b = hdr ++ f.itemBytes ∧ Train f hdr cells := by
  simp only [decodeTrain, bind_eq_ok, ensure_eq_ok, beq_iff_eq, Except.ok.injEq] at h
  obtain ⟨b0, hb0, -, hkind, form, hform, count, hcount, -, hvalid, ⟨flows, off⟩, hflows, p, hcheck,
    -, hend, rfl⟩ := h
  have r0 := rest_of_readByte hb0
  have r1 := rest_of_readByte hform
  have r2 := rest_of_readByte hcount
  obtain ⟨s, hoff, hrest, hfield⟩ := field_of_decodeFlows hflows r2.tail.le
  have hri := hrest.append
  rw [← hoff] at hri
  obtain ⟨cells, hn, hall, -, hflat, hlt⟩ :=
    cells_of_walkItems reads_itemLenField.itemHead hcheck hri.le
  obtain ⟨full, hlen, hbytes, hitems⟩ := items_of_headField hfield hall
  have hsplit : b = (kindTrain :: form :: count :: s) ++ b.drop off := by
    have hd := r0.drop
    rw [r1.drop, r2.drop, hrest.drop, hkind] at hd
    simpa using hd
  refine ⟨_, full, hsplit, ⟨s, rfl, hfield⟩, hitems, hlen.trans hn, hvalid, rfl, ?_, ?_⟩
  · have hd := hflat.drop
    rw [hend, drop_length, append_nil] at hd
    exact hd.trans hbytes.symm
  · have hb := hlt (validTrainCount_iff.mp hvalid).1
    rw [hend] at hb
    exact hsplit ▸ hb

/-- The iterator stands in front of the given items of the frame. -/
structure Iterates (f : TrainFrame) (it : TrainItems)
    (cells : List (Bytes × (UInt32 × Bytes))) : Prop where
  form : it.form = f.form
  flows : it.flows = f.flows
  nfl : it.nfl = f.flows.length
  items : ∀ c ∈ cells, ItemHeader f c.1 c.2
  left : it.items = flatCells snd cells
  /-- What is left is addressable. -/
  short : it.items.length < usizeSize

/-- One step takes one item with its header. -/
lemma Iterates.next {it : TrainItems} (hit : Iterates f it ((hdr, item) :: cells)) :
    it.next = (some item, { it with items := flatCells snd cells }) := by
  obtain ⟨id, payload⟩ := item
  have hleft := hit.left
  rw [flatCells_cons] at hleft
  rcases (forall_mem_cons.mp hit.items).1 with ⟨hf, hlen, hflow⟩ | ⟨hf, idx, len, hhdr, hlen, hflow⟩
  · have htake : takeItem itemLenAt it.items 0 = some (payload, flatCells snd cells) :=
      takeItem_of_field peeks_itemLenField [] hlen hleft hit.short
    have hform : it.form = trainFormSame := hit.form.trans hf
    have hnonempty : it.items.isEmpty = false := by
      obtain ⟨v, hv, -⟩ := hlen
      rw [hleft]
      simp [hv.ne_nil]
    have hid : it.flow = some (id, 0) := by
      simp [TrainItems.flow, hform, show ¬ trainFormSame = trainFormDict by decide, hit.flows,
        hflow]
    simp [TrainItems.next, hnonempty, hid, htake]
  have hform : it.form = trainFormDict := hit.form.trans hf
  have hitems : it.items = [idx] ++ (len ++ (payload ++ flatCells snd cells)) := by
    simp only at hhdr
    rw [hleft, hhdr]
    simp
  have htake : takeItem itemLenAt it.items 1 = some (payload, flatCells snd cells) :=
    takeItem_of_field peeks_itemLenField [idx] hlen hitems hit.short
  have hnonempty : it.items.isEmpty = false := by
    rw [hitems]
    rfl
  have hhead : it.items[0]? = some idx := by
    rw [hitems]
    rfl
  have hidx : ¬ it.nfl ≤ idx.toNat := by
    rw [hit.nfl]
    have hb := (List.getElem?_eq_some_iff.mp hflow).1
    omega
  have hid : it.flow = some (id, 1) := by
    simp [TrainItems.flow, hform, hhead, Option.bind_eq_bind, Option.bind_some, if_neg hidx,
      hit.flows, getD_eq_getElem?_getD, hflow, Option.getD_some]
  simp [TrainItems.next, hnonempty, hid, htake]

/-- A step leaves the iterator in front of the remaining items. -/
lemma Iterates.step {it : TrainItems} (hit : Iterates f it ((hdr, item) :: cells)) :
    Iterates f { it with items := flatCells snd cells } cells := by
  have hshort := hit.short
  rw [hit.left, flatCells_cons, length_append, length_append] at hshort
  refine ⟨hit.form, hit.flows, hit.nfl, (forall_mem_cons.mp hit.items).2, rfl, ?_⟩
  simp only
  omega

/-- Every train of the grammar is walked from its frame to the end. -/
lemma Train.walk (h : Train f hdr cells) :
    ∃ last : TrainItems, Walk TrainItems.next TrainItems.items snd f.items cells last ∧
      last.items = [] ∧ last.next.1 = none := by
  have hshort := h.short
  rw [length_append] at hshort
  obtain ⟨s, -, hflows⟩ := h.header
  have hnfl : f.nfl.toNat = f.flows.length := by
    rw [h.nfl, toNat_nfl (hflows.length_le h.valid).2]
  have hstart : Iterates f f.items cells := ⟨rfl, rfl, hnfl, h.items, h.tiles,
    show f.itemBytes.length < usizeSize by omega⟩
  obtain ⟨last, hwalk, hlast⟩ := exists_walk (Iterates f)
    (fun it hdr item cells hit => ⟨_, hit.next, hit.left.trans (flatCells_cons ..), hit.step⟩) hstart
  refine ⟨last, hwalk, hlast.left, ?_⟩
  have hempty : last.items = [] := hlast.left
  rw [TrainItems.next, hempty]
  rfl

lemma ItemHeader.mem_flows (h : ItemHeader f hdr item) : item.1 ∈ f.flows := by
  rcases h with ⟨-, -, hflow⟩ | ⟨-, idx, len, -, -, hflow⟩
  · exact mem_of_getElem? hflow
  · exact mem_of_getElem? hflow

end MyQuic2.Rev2
