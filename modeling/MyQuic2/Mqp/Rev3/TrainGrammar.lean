import MyQuic2.Mqp.Rev3.Train

/-!
# The grammar of rev3 trains

A train is a frame header followed by item headers and payloads. The decoder
accepts exactly the octet strings of this grammar, and the iterator walks the
items of an accepted frame one by one.
-/

namespace MyQuic2.Rev3

open List

/-- The octets that denote an item length: one below the escape, or the escape and a word.
The long form of a short length is read as well. -/
inductive LenField : Bytes → Nat → Prop where
  | short (x : UInt8) (h : x ≠ 0xFF) : LenField [x] x.toNat
  /-- A length behind the escape. -/
  | long (s : Bytes) (h : s.length = 2) : LenField (0xFF :: s) (ofLeBytes s)

def ItemHeader (f : TrainFrame) (hdr : Bytes) (item : UInt16 × Bytes) : Prop :=
  (f.form = trainFormSame ∧ LenField hdr item.2.length ∧ f.flows[0]? = some item.1) ∨
  (f.form = trainFormSameEqual ∧ hdr = [] ∧ item.2.length = f.itemLen ∧ f.flows[0]? = some item.1) ∨
  (f.form = trainFormDict ∧ ∃ (idx : UInt8) (len : Bytes), hdr = idx :: len ∧
    LenField len item.2.length ∧ f.flows[idx.toNat]? = some item.1)

/-- The header of a frame, by form: first octet, flows, item count, common length. -/
def FrameHeader (f : TrainFrame) (hdr : Bytes) : Prop :=
  ∃ b0 : UInt8, b0 &&& classMask = classTrain ∧ b0 &&& trainReservedMask = 0 ∧
    (b0 &&& trainFormMask) >>> trainFormShift = f.form ∧
    ((f.form = trainFormSame ∧ f.nfl = 1 ∧ f.itemLen = 0 ∧
      ∃ fid, f.flows = [fid] ∧ validFid fid = true ∧ hdr = b0 :: (putU16 fid ++ [f.count])) ∨
    (f.form = trainFormSameEqual ∧ f.nfl = 1 ∧ ∃ fid len, f.flows = [fid] ∧
      validFid fid = true ∧ LenField len f.itemLen ∧
      hdr = b0 :: (putU16 fid ++ (f.count :: len))) ∨
    (f.form = trainFormDict ∧ f.itemLen = 0 ∧ f.nfl.toNat = f.flows.length ∧
      0 < f.flows.length ∧ f.flows.length ≤ f.count.toNat ∧
      (∀ fid ∈ f.flows, validFid fid = true) ∧ f.flows.Nodup ∧
      hdr = b0 :: f.nfl :: f.count :: f.flows.flatMap putU16))

lemma toNat_ofLeBytes_two {s : Bytes} (h : s.length = 2) :
    (UInt16.ofNat (ofLeBytes s)).toNat = ofLeBytes s := by
  have hlt := ofLeBytes_lt s
  rw [h] at hlt
  rw [UInt16.toNat_ofNat']
  omega

/-- The decoder's reader is exact for length fields. -/
lemma reads_lenField : Reads LenField getItemLen := by
  constructor
  · intro b s t n off h hr hb
    cases h with
    | short x hx =>
      simp only [getItemLen, readByte_of_rest hr, ok_bind, if_neg hx]
      rfl
    | long w hw =>
      have hr' : Rest b off (0xFF :: (w ++ t)) := hr
      have htail := hr'.tail
      have hle := htail.append.le
      rw [hw] at hle
      simp [getItemLen, readByte_of_rest hr', ok_bind, getU16, readWord_of_rest htail hw (by omega),
        Except.map, toNat_ofLeBytes_two hw, length_cons, hw]
  intro b n off stop h hoff
  simp only [getItemLen, bind_eq_ok] at h
  obtain ⟨first, hfirst, h⟩ := h
  have hr := rest_of_readByte hfirst
  by_cases hx : first = 0xFF
  · simp only [if_pos hx, bind_eq_ok] at h
    obtain ⟨⟨v, off'⟩, hv, h⟩ := h
    simp only [Except.ok.injEq, Prod.mk.injEq] at h
    obtain ⟨rfl, rfl⟩ := h
    obtain ⟨rfl, hrest⟩ := rest_of_getU16 hv
    have hword : (putU16 v).length = 2 := length_leBytes _ _
    have hval : v.toNat = ofLeBytes (putU16 v) := by
      rw [putU16, ofLeBytes_leBytes_of_lt (by simpa using v.toNat_lt)]
    refine ⟨0xFF :: putU16 v, ?_, ?_, hoff, ?_⟩
    · rw [hval]
      exact .long _ hword
    · rw [length_cons, hword]
    · have hd := hr.drop
      rw [hx, hrest.drop] at hd
      exact hd
  · simp only [if_neg hx, Except.ok.injEq, Prod.mk.injEq] at h
    obtain ⟨rfl, rfl⟩ := h
    exact ⟨[first], .short first hx, rfl, hr⟩

/-- The iterator's reader finds the same fields. -/
lemma peeks_lenField : Peeks LenField itemLenAt := by
  intro b s t n off h hr hb
  cases h with
  | short x hx =>
    have hhead : b[off]? = some x := Rest.head hr
    simp only [itemLenAt, hhead, Option.bind_eq_bind, Option.bind_some, if_neg hx]
    rfl
  | long w hw =>
    have hr' : Rest b off (0xFF :: (w ++ t)) := hr
    have htail := hr'.tail
    have hle := htail.append.le
    have hslice := htail.slice
    rw [hw] at hle hslice
    have hword : off + 1 + 2 < usizeSize := by omega
    simp only [itemLenAt, hr'.head, Option.bind_eq_bind, Option.bind_some, if_true, checkedAdd,
      if_pos hword, hslice, toNat_ofLeBytes_two hw, length_cons, hw]

/-- The reader of an id is exact for its two octets. -/
lemma reads_putU16 : Reads (fun s v => s = putU16 v) getU16 := by
  constructor
  · intro b s t v off h hr hb
    subst h
    have hle := (rest_putU16 hr).le
    rw [getU16_of_rest hr (by omega), putU16, length_leBytes]
  · intro b v off stop h hoff
    obtain ⟨rfl, hr⟩ := rest_of_getU16 h
    exact ⟨putU16 v, rfl, by rw [putU16, length_leBytes], hr⟩

lemma length_flatMap_putU16 (flows : List UInt16) :
    (flows.flatMap putU16).length = 2 * flows.length := by
  induction flows with
  | nil => rfl
  | cons f flows ih =>
    rw [flatMap_cons, length_append, ih, putU16, length_leBytes, length_cons]
    omega

variable {b hdr : Bytes} {flows : List UInt16} {off : Nat} {f : TrainFrame} {item : UInt16 × Bytes}
  {cells : List (Bytes × (UInt16 × Bytes))} {count : UInt8}

/-- Distinct valid ids are read into the dictionary in order. -/
lemma decodeFlows_of_rest {t : Bytes} (hv : ∀ f ∈ flows, validFid f = true) (hn : flows.Nodup)
    (hr : Rest b off (flows.flatMap putU16 ++ t)) (hb : b.length < usizeSize) :
    decodeFlows b flows.length off [] = .ok (flows, off + 2 * flows.length) := by
  have hfst : (flows.map fun f => (putU16 f, f)).flatMap Prod.fst = flows.flatMap putU16 := by
    rw [flatMap_map]
  have hsnd : (flows.map fun f => (putU16 f, f)).map Prod.snd = flows := by
    rw [map_map]
    exact map_id _
  have hread : decodeFlows b (flows.map fun f => (putU16 f, f)).length off [] = _ :=
    readDistinct_of_rest reads_putU16 [] (forall_mem_map.mpr fun f hf => ⟨rfl, hv f hf⟩)
      (by rw [hsnd]; exact hn) (by rw [hfst]; exact hr) hb
  rw [length_map, hsnd, hfst, length_flatMap_putU16, nil_append] at hread
  exact hread

/-- What is read into the dictionary is a list of distinct valid ids. -/
lemma flows_of_decodeFlows {n stop : Nat} (h : decodeFlows b n off [] = .ok (flows, stop))
    (hoff : off ≤ b.length) :
    flows.length = n ∧ stop = off + 2 * n ∧ (∀ f ∈ flows, validFid f = true) ∧ flows.Nodup ∧
      Rest b off (flows.flatMap putU16 ++ b.drop stop) := by
  obtain ⟨entries, hflows, hlen, hstop, hall, hnd, hr⟩ :=
    entries_of_readDistinct reads_putU16 h nodup_nil hoff
  rw [nil_append] at hflows
  have hfst : entries.flatMap Prod.fst = flows.flatMap putU16 := by
    rw [hflows, flatMap_map, flatMap_def, flatMap_def]
    exact congrArg List.flatten (map_congr_left fun e he => (hall e he).1)
  have hnum : flows.length = n := by rw [hflows, length_map, hlen]
  rw [hfst, length_flatMap_putU16, hnum] at hstop
  rw [hfst] at hr
  refine ⟨hnum, hstop, ?_, hnd, hr⟩
  intro f hf
  rw [hflows] at hf
  obtain ⟨e, he, rfl⟩ := mem_map.mp hf
  exact (hall e he).2

/-- A frame with its header and its items, as the grammar describes it. -/
structure Train (f : TrainFrame) (hdr : Bytes) (cells : List (Bytes × (UInt16 × Bytes))) :
    Prop where
  header : FrameHeader f hdr
  items : ∀ c ∈ cells, ItemHeader f c.1 c.2
  count : cells.length = f.count.toNat
  valid : validTrainCount f.count.toNat = true
  tiles : f.itemBytes = flatCells Prod.snd cells
  /-- The frame is addressable. -/
  short : (hdr ++ f.itemBytes).length < usizeSize

/-- The headers of all items as the decoder's walk checks them. -/
lemma ItemHeader.headField (h : ItemHeader f hdr item) :
    (f.form = trainFormSame → HeadField LenField none hdr item.2.length) ∧
      (f.form = trainFormDict → HeadField LenField (some f.flows.length) hdr item.2.length) := by
  rcases h with ⟨hf, hlen, -⟩ | ⟨hf, -, -, -⟩ | ⟨hf, idx, len, rfl, hlen, hflow⟩
  · refine ⟨fun _ => hlen, fun hd => ?_⟩
    rw [hf] at hd
    exact absurd hd (by decide)
  · constructor
    · intro hd
      rw [hf] at hd
      exact absurd hd (by decide)
    · intro hd
      rw [hf] at hd
      exact absurd hd (by decide)
  · refine ⟨fun hd => ?_, fun _ => ⟨idx, len, rfl, ?_, hlen⟩⟩
    · rw [hf] at hd
      exact absurd hd (by decide)
    · exact (List.getElem?_eq_some_iff.mp hflow).1

lemma checkItems_of_train {dict : Option Nat}
    (hhead : ∀ c ∈ cells, HeadField LenField dict c.1 c.2.2.length) (h : Train f hdr cells)
    (hb : b = hdr ++ f.itemBytes) : checkItems b dict f.count.toNat hdr.length = .ok b.length := by
  have hcells : flatCells id (cells.map fun c => (c.1, c.2.2)) = f.itemBytes := by
    rw [h.tiles]
    exact flatCells_map id Prod.snd (fun c => c.2.2) (fun _ => rfl) cells
  have hr : Rest b hdr.length (flatCells id (cells.map fun c => (c.1, c.2.2)) ++ []) := by
    rw [hcells, append_nil, hb]
    exact ⟨by simp, drop_left⟩
  have hcheck : checkItems b dict (cells.map fun c => (c.1, c.2.2)).length hdr.length = _ :=
    walkItems_of_cells reads_lenField.itemHead (forall_mem_map.mpr hhead) hr
      (by rw [hb]; exact h.short)
  rw [length_map, h.count, hcells] at hcheck
  rw [hcheck, hb, length_append]

/-- Items of one length tile the body without headers. -/
lemma Train.length_itemBytes (h : Train f hdr cells) (hform : f.form = trainFormSameEqual) :
    f.itemBytes.length = f.count.toNat * f.itemLen := by
  have hall : ∀ c ∈ cells, c.1 = [] ∧ c.2.2.length = f.itemLen := by
    intro c hc
    rcases h.items c hc with ⟨hd, -, -⟩ | ⟨-, hnil, hl, -⟩ | ⟨hd, -⟩
    · exact absurd (hform.symm.trans hd) (by decide)
    · exact ⟨hnil, hl⟩
    · exact absurd (hform.symm.trans hd) (by decide)
  rw [h.tiles, ← h.count]
  clear h
  induction cells with
  | nil => simp
  | cons c cells ih =>
    obtain ⟨⟨h1, h2⟩, hrest⟩ := forall_mem_cons.mp hall
    rw [flatCells_cons, h1, nil_append, length_append, h2, ih hrest, length_cons, Nat.succ_mul,
      Nat.add_comm]

lemma validTrainCount_iff {n : Nat} : validTrainCount n = true ↔ 0 < n ∧ n ≤ 64 := by
  simp only [validTrainCount, Bool.and_eq_true, decide_eq_true_eq]
  rfl

lemma validTrainFlows_iff {items : List (UInt8 × Bytes)} :
    validTrainFlows flows items = true ↔ flows ≠ [] ∧ flows.length ≤ 64 ∧
      flows.length ≤ items.length ∧ (∀ fid ∈ flows, validFid fid = true) ∧ flows.Nodup ∧
      ∀ item ∈ items, item.1.toNat < flows.length := by
  simp only [validTrainFlows, Bool.and_eq_true, Bool.not_eq_true', Bool.or_eq_false_iff,
    decide_eq_false_iff_not, Nat.not_lt, isEmpty_eq_false_iff, all_eq_true, decide_eq_true_eq,
    and_assoc]
  rfl

section

variable {b0 : UInt8} {fid : UInt16} {body : Bytes} {n : Nat}
  (hclass : b0 &&& classMask = classTrain) (hres : b0 &&& trainReservedMask = 0)
include hclass hres

lemma decodeTrain_of_same (hform : (b0 &&& trainFormMask) >>> trainFormShift = trainFormSame)
    (hfid : validFid fid = true) (h : Train ⟨trainFormSame, count, 1, 0, [fid], body⟩
      (b0 :: (putU16 fid ++ [count])) cells) :
    decodeTrain (b0 :: (putU16 fid ++ [count]) ++ body) =
      .ok ⟨trainFormSame, count, 1, 0, [fid], body⟩ := by
  generalize hb : b0 :: (putU16 fid ++ [count]) ++ body = b
  have r0 : Rest b 0 (b0 :: (putU16 fid ++ (count :: body))) := by
    rw [← hb]
    simpa using Rest.zero _
  have r1 := r0.tail
  have r3 := rest_putU16 r1
  have r4 := r3.tail
  have hcheck := checkItems_of_train (fun c hc => (h.items c hc).headField.1 rfl) h hb.symm
  rw [show (b0 :: (putU16 fid ++ [count])).length = 4 by simp [putU16]] at hcheck
  have hvalid : validTrainCount count.toNat = true := h.valid
  simp [decodeTrain, readByte_of_rest r0, ok_bind, hclass, ensure_true, hres, hform,
    getU16_of_rest r1 (by decide), hfid, readByte_of_rest r3, hvalid,
    show ¬ trainFormSame = trainFormSameEqual by decide, hcheck, r4.drop]

lemma decodeTrain_of_sameEqual {len : Bytes}
    (hform : (b0 &&& trainFormMask) >>> trainFormShift = trainFormSameEqual)
    (hfid : validFid fid = true) (hlen : LenField len n)
    (h : Train ⟨trainFormSameEqual, count, 1, n, [fid], body⟩
      (b0 :: (putU16 fid ++ (count :: len))) cells) :
    decodeTrain (b0 :: (putU16 fid ++ (count :: len)) ++ body) =
      .ok ⟨trainFormSameEqual, count, 1, n, [fid], body⟩ := by
  have hshort := h.short
  have hbody : body.length = count.toNat * n := h.length_itemBytes rfl
  dsimp only at hshort
  generalize hb : b0 :: (putU16 fid ++ (count :: len)) ++ body = b at hshort ⊢
  have r0 : Rest b 0 (b0 :: (putU16 fid ++ (count :: (len ++ body)))) := by
    rw [← hb]
    simpa using Rest.zero _
  have r1 := r0.tail
  have r3 := rest_putU16 r1
  have r4 := r3.tail
  have ri := r4.append
  have hblen : b.length = 4 + len.length + body.length := by
    rw [← hb]
    simp [putU16]
    omega
  have hmul : checkedMul count.toNat n = some body.length := by
    rw [checkedMul_eq_some, hbody]
    exact ⟨rfl, by omega⟩
  have hread := reads_lenField.accepts hlen r4 hshort
  have hadd : checkedAdd (0 + 1 + 2 + 1 + len.length) body.length = some b.length := by
    rw [checkedAdd_eq_some, hblen]
    omega
  have hvalid : validTrainCount count.toNat = true := h.valid
  simp [decodeTrain, readByte_of_rest r0, ok_bind, hclass, ensure_true, hres, hform,
    getU16_of_rest r1 (by decide), hfid, readByte_of_rest r3, hvalid, hread, hmul, hadd, ri.drop]

lemma decodeTrain_of_dict {nfl : UInt8}
    (hform : (b0 &&& trainFormMask) >>> trainFormShift = trainFormDict)
    (hnfl : nfl.toNat = flows.length) (hpos : 0 < flows.length)
    (hle : flows.length ≤ count.toNat) (hfids : ∀ fid ∈ flows, validFid fid = true)
    (hnodup : flows.Nodup) (h : Train ⟨trainFormDict, count, nfl, 0, flows, body⟩
      (b0 :: nfl :: count :: flows.flatMap putU16) cells) :
    decodeTrain (b0 :: nfl :: count :: flows.flatMap putU16 ++ body) =
      .ok ⟨trainFormDict, count, nfl, 0, flows, body⟩ := by
  have hshort := h.short
  dsimp only at hshort
  generalize hb : b0 :: nfl :: count :: flows.flatMap putU16 ++ body = b at hshort ⊢
  have r0 : Rest b 0 (b0 :: nfl :: count :: (flows.flatMap putU16 ++ body)) := by
    rw [← hb]
    exact Rest.zero _
  have r1 := r0.tail
  have r2 := r1.tail
  have r3 := r2.tail
  have ri := r3.append
  have hflat := length_flatMap_putU16 flows
  have hflows := decodeFlows_of_rest hfids hnodup r3 hshort
  have hcheck := checkItems_of_train (fun c hc => (h.items c hc).headField.2 rfl) h hb.symm
  simp only [length_cons, hflat, ← hnfl] at hcheck
  have h0 : nfl ≠ 0 := by
    rintro rfl
    simp at hnfl
    omega
  have h1 : ¬ count < nfl := by
    rw [UInt8.lt_iff_toNat_lt]
    omega
  have hguard : (!(nfl == 0 || decide (count < nfl))) = true := by simp [h0, h1]
  rw [hflat, ← hnfl] at ri
  rw [← hnfl] at hflows
  have hstart : 0 + 1 + 1 + 1 + 2 * nfl.toNat = 2 * nfl.toNat + 1 + 1 + 1 := by omega
  rw [hstart] at ri hflows
  have hread1 := readByte_of_rest r1 (MqpError.malformed "short r3 train nfl")
  have hread2 := readByte_of_rest r2 (MqpError.malformed "short r3 train count")
  have hvalid : validTrainCount count.toNat = true := h.valid
  simp only [Nat.zero_add, Nat.reduceAdd] at hread1 hread2 hflows
  simp only [decodeTrain, readByte_of_rest r0, ok_bind, hclass, ensure_true, hres, hform,
    show ¬ (trainFormDict = trainFormSame ∨ trainFormDict = trainFormSameEqual) by decide,
    if_false, if_true, hread1, hread2, hvalid, hguard, hflows, hcheck, beq_self_eq_true, ri.drop]

lemma train_of_same {p : Nat} (hr : Rest b 0 (b0 :: (putU16 fid ++ (count :: b.drop 4))))
    (hform : (b0 &&& trainFormMask) >>> trainFormShift = trainFormSame) (hfid : validFid fid = true)
    (hcount : validTrainCount count.toNat = true) (hcheck : checkItems b none count.toNat 4 = .ok p)
    (hend : p = b.length) :
    ∃ hdr cells, b = hdr ++ b.drop 4 ∧
      Train ⟨trainFormSame, count, 1, 0, [fid], b.drop 4⟩ hdr cells := by
  have hrest := (rest_putU16 hr.tail).tail
  obtain ⟨cells, hn, hall, hp, hflat, hlt⟩ := cells_of_walkItems reads_lenField.itemHead hcheck hrest.le
  have hsplit : b = (b0 :: (putU16 fid ++ [count])) ++ b.drop 4 := by
    simpa using hr.drop
  refine ⟨_, cells.map fun c => (c.1, (fid, c.2)), hsplit, ?_⟩
  refine ⟨⟨b0, hclass, hres, hform, Or.inl ⟨rfl, rfl, rfl, fid, rfl, hfid, rfl⟩⟩, ?_, ?_, hcount,
    ?_, ?_⟩
  · exact forall_mem_map.mpr fun c hc => Or.inl ⟨rfl, hall c hc, rfl⟩
  · rw [length_map, hn]
  · rw [flatCells_map Prod.snd id (fun c => (fid, c.2)) (fun _ => rfl)]
    have hd := hflat.drop
    rw [hend, drop_length, append_nil] at hd
    exact hd
  · have hb := hlt (validTrainCount_iff.mp hcount).1
    rw [hend] at hb
    exact hsplit ▸ hb

lemma train_of_sameEqual (hr : Rest b 0 (b0 :: (putU16 fid ++ (count :: b.drop 4))))
    (hform : (b0 &&& trainFormMask) >>> trainFormShift = trainFormSameEqual)
    (hfid : validFid fid = true) (hcount : validTrainCount count.toNat = true)
    (hlen : getItemLen b 4 = .ok (n, off)) (hend : off + count.toNat * n = b.length)
    (hlt : b.length < usizeSize) :
    ∃ hdr cells, b = hdr ++ b.drop off ∧
      Train ⟨trainFormSameEqual, count, 1, n, [fid], b.drop off⟩ hdr cells := by
  obtain ⟨len, hfield, hoff, hrl⟩ := reads_lenField.sound hlen (rest_putU16 hr.tail).tail.le
  have hbody : (b.drop off).length = count.toNat * n := by
    rw [length_drop]
    omega
  obtain ⟨chunks, hk, hn, hflat⟩ := exists_chunks n count.toNat hbody
  have hsplit : b = (b0 :: (putU16 fid ++ (count :: len))) ++ b.drop off := by
    have hd := hr.drop
    rw [hrl.drop] at hd
    simpa using hd
  refine ⟨_, chunks.map fun c => ([], (fid, c)), hsplit, ?_⟩
  refine ⟨⟨b0, hclass, hres, hform, Or.inr (Or.inl ⟨rfl, rfl, fid, len, rfl, hfid, hfield, rfl⟩)⟩,
    ?_, ?_, hcount, ?_, ?_⟩
  · exact forall_mem_map.mpr fun c hc => Or.inr (Or.inl ⟨rfl, rfl, hn c hc, rfl⟩)
  · rw [length_map, hk]
  · rw [flatCells, flatMap_map]
    simp only [nil_append]
    rw [← hflat, flatMap_id']
  · exact hsplit ▸ hlt

lemma train_of_dict {nfl : UInt8} {p : Nat} (hr : Rest b 0 (b0 :: nfl :: count :: b.drop 3))
    (hform : (b0 &&& trainFormMask) >>> trainFormShift = trainFormDict)
    (hcount : validTrainCount count.toNat = true) (hnfl : nfl ≠ 0) (hle : ¬ count < nfl)
    (hflows : decodeFlows b nfl.toNat 3 [] = .ok (flows, off))
    (hcheck : checkItems b (some nfl.toNat) count.toNat off = .ok p) (hend : p = b.length) :
    ∃ hdr cells, b = hdr ++ b.drop off ∧
      Train ⟨trainFormDict, count, nfl, 0, flows, b.drop off⟩ hdr cells := by
  obtain ⟨hnum, hoff, hvalid, hnodup, hrf⟩ := flows_of_decodeFlows hflows hr.tail.tail.tail.le
  have hri := hrf.append
  rw [length_flatMap_putU16, hnum, ← hoff] at hri
  obtain ⟨cells, hn, hall, hp, hflat, hlt⟩ := cells_of_walkItems reads_lenField.itemHead hcheck hri.le
  have hsplit : b = (b0 :: nfl :: count :: flows.flatMap putU16) ++ b.drop off := by
    have hd := hr.drop
    rw [hrf.drop] at hd
    simpa using hd
  refine ⟨_, cells.map fun c => (c.1, (flows.getD (c.1.headD 0).toNat 0, c.2)), hsplit, ?_⟩
  refine ⟨⟨b0, hclass, hres, hform, Or.inr (Or.inr ⟨rfl, rfl, hnum.symm, ?_, ?_, hvalid, hnodup,
    rfl⟩)⟩, ?_, ?_, hcount, ?_, ?_⟩
  · simp only [hnum]
    have h0 : nfl.toNat ≠ 0 := fun h0 => hnfl (UInt8.toNat_inj.mp h0)
    omega
  · simp only [hnum]
    rw [UInt8.lt_iff_toNat_lt] at hle
    omega
  · refine forall_mem_map.mpr fun c hc => Or.inr (Or.inr ⟨rfl, ?_⟩)
    obtain ⟨idx, len, hhdr, hidx, hlen⟩ := hall c hc
    refine ⟨idx, len, hhdr, hlen, ?_⟩
    have hlt' : idx.toNat < flows.length := by omega
    simp [hhdr, getD_eq_getElem?_getD, getElem?_eq_getElem hlt']
  · rw [length_map, hn]
  · rw [flatCells_map Prod.snd id (fun c => (flows.getD (c.1.headD 0).toNat 0, c.2)) (fun _ => rfl)]
    have hd := hflat.drop
    rw [hend, drop_length, append_nil] at hd
    exact hd
  · have hb := hlt (validTrainCount_iff.mp hcount).1
    rw [hend] at hb
    exact hsplit ▸ hb

end

lemma decodeTrain_of_train (h : Train f hdr cells) : decodeTrain (hdr ++ f.itemBytes) = .ok f := by
  obtain ⟨form, count, nfl, itemLen, flows, itemBytes⟩ := f
  obtain ⟨b0, hclass, hres, hform, hcase⟩ := h.header
  dsimp only at hform hcase
  rcases hcase with ⟨rfl, rfl, rfl, fid, rfl, hfid, rfl⟩ |
    ⟨rfl, rfl, fid, len, rfl, hfid, hlen, rfl⟩ | ⟨rfl, rfl, hnfl, hpos, hle, hfids, hnodup, rfl⟩
  · exact decodeTrain_of_same hclass hres hform hfid h
  · exact decodeTrain_of_sameEqual hclass hres hform hfid hlen h
  · exact decodeTrain_of_dict hclass hres hform hnfl hpos hle hfids hnodup h

/-- Every accepted frame is a header followed by its items. -/
lemma train_of_decodeTrain (h : decodeTrain b = .ok f) :
    ∃ hdr cells, b = hdr ++ f.itemBytes ∧ Train f hdr cells := by
  simp only [decodeTrain, bind_eq_ok, ensure_eq_ok, beq_iff_eq] at h
  obtain ⟨b0, hb0, -, hclass, -, hres, h⟩ := h
  have r0 := rest_of_readByte hb0
  split at h
  · rename_i hsame
    simp only [bind_eq_ok, ensure_eq_ok] at h
    obtain ⟨⟨fid, off⟩, hfid, -, hvalid, count, hcount, -, hnum, h⟩ := h
    obtain ⟨rfl, r1⟩ := rest_of_getU16 hfid
    have r3 := rest_of_readByte hcount
    have hr : Rest b 0 (b0 :: (putU16 fid ++ (count :: b.drop 4))) := by
      have hd := r0.drop
      rw [r1.drop, r3.drop] at hd
      exact ⟨r0.le, hd⟩
    split at h
    · rename_i hform
      simp only [bind_eq_ok] at h
      obtain ⟨⟨n, off⟩, hlen, h⟩ := h
      cases hm : checkedMul count.toNat n with
      | none => simp [hm] at h
      | some body =>
        cases ha : checkedAdd off body with
        | none => simp [hm, ha] at h
        | some stop =>
          simp only [hm, ha, bind_eq_ok, ensure_eq_ok, beq_iff_eq, Except.ok.injEq] at h
          obtain ⟨-, hle, -, hend, rfl⟩ := h
          obtain ⟨rfl, -⟩ := checkedMul_eq_some.mp hm
          obtain ⟨hstop, hlt⟩ := checkedAdd_eq_some.mp ha
          rw [hform]
          exact train_of_sameEqual hclass hres hr hform hvalid hnum hlen (by omega) (by omega)
    · rename_i hform
      simp only [bind_eq_ok, ensure_eq_ok, beq_iff_eq, Except.ok.injEq] at h
      obtain ⟨p, hcheck, -, hend, rfl⟩ := h
      have hf := hsame.resolve_right hform
      rw [hf]
      exact train_of_same hclass hres hr hf hvalid hnum hcheck hend
  · split at h
    · rename_i hform
      simp only [bind_eq_ok, ensure_eq_ok, beq_iff_eq, Except.ok.injEq] at h
      obtain ⟨nfl, hnfl, count, hcount, -, hnum, -, hguard, ⟨flows, off⟩, hflows, p, hcheck, -,
        hend, rfl⟩ := h
      have r1 := rest_of_readByte hnfl
      have r2 := rest_of_readByte hcount
      have hr : Rest b 0 (b0 :: nfl :: count :: b.drop 3) := by
        have hd := r0.drop
        rw [r1.drop, r2.drop] at hd
        exact ⟨r0.le, hd⟩
      simp only [Bool.not_eq_true', Bool.or_eq_false_iff, beq_eq_false_iff_ne,
        decide_eq_false_iff_not] at hguard
      rw [hform]
      exact train_of_dict hclass hres hr hform hnum hguard.1 hguard.2 hflows hcheck hend
    · exact absurd h (by simp)

lemma FrameHeader.nfl (h : FrameHeader f hdr) : f.nfl.toNat = f.flows.length := by
  obtain ⟨b0, -, -, -, h⟩ := h
  rcases h with ⟨-, hn, -, fid, hf, -⟩ | ⟨-, hn, fid, len, hf, -⟩ | ⟨-, -, hn, -⟩
  · rw [hn, hf]
    rfl
  · rw [hn, hf]
    rfl
  · exact hn

/-- The iterator stands in front of the given items of the frame. -/
structure Iterates (f : TrainFrame) (it : TrainItems)
    (cells : List (Bytes × (UInt16 × Bytes))) : Prop where
  form : it.form = f.form
  itemLen : it.itemLen = f.itemLen
  flows : it.flows = f.flows
  nfl : it.nfl = f.flows.length
  items : ∀ c ∈ cells, ItemHeader f c.1 c.2
  left : it.items = flatCells Prod.snd cells
  /-- What is left is addressable. -/
  short : it.items.length < usizeSize
  remaining : it.remaining.toNat = cells.length

/-- One step takes one item with its header. -/
lemma Iterates.next {it : TrainItems} (hit : Iterates f it ((hdr, item) :: cells)) :
    it.next = (some item, { it with
      remaining := it.remaining - 1, items := flatCells Prod.snd cells }) := by
  obtain ⟨fid, payload⟩ := item
  have hleft := hit.left
  rw [flatCells_cons] at hleft
  have hrem : it.remaining ≠ 0 := by
    intro h0
    have hcount := hit.remaining
    rw [h0] at hcount
    exact absurd hcount (by simp)
  rcases (forall_mem_cons.mp hit.items).1 with ⟨hf, hlen, hflow⟩ | ⟨hf, hnil, hlen, hflow⟩ |
    ⟨hf, idx, len, hhdr, hlen, hflow⟩
  · have htake : takeItem itemLenAt it.items 0 = some (payload, flatCells Prod.snd cells) :=
      takeItem_of_field peeks_lenField [] hlen hleft hit.short
    have hform : it.form = trainFormSame := hit.form.trans hf
    simp [TrainItems.next, if_neg hrem, hform, htake, hit.flows, getD_eq_getElem?_getD, hflow,
      Option.getD_some]
  · have hform : it.form = trainFormSameEqual := hit.form.trans hf
    have hlen' : it.itemLen = payload.length := hit.itemLen.trans hlen.symm
    have r0 : Rest it.items 0 (payload ++ flatCells Prod.snd cells) := by
      simp only at hnil
      rw [hleft, hnil]
      exact Rest.zero _
    have hslice := r0.slice
    have hdrop := r0.append.drop
    rw [Nat.zero_add] at hslice hdrop
    simp [TrainItems.next, if_neg hrem, hform, show ¬ trainFormSameEqual = trainFormSame by decide,
      hlen', hslice, hdrop, hit.flows, getD_eq_getElem?_getD, hflow, Option.getD_some]
  have hform : it.form = trainFormDict := hit.form.trans hf
  have hitems : it.items = [idx] ++ (len ++ (payload ++ flatCells Prod.snd cells)) := by
    simp only at hhdr
    rw [hleft, hhdr]
    simp
  have htake : takeItem itemLenAt it.items 1 = some (payload, flatCells Prod.snd cells) :=
    takeItem_of_field peeks_lenField [idx] hlen hitems hit.short
  have hhead : it.items[0]? = some idx := by
    rw [hitems]
    rfl
  have hidx : ¬ it.nfl ≤ idx.toNat := by
    rw [hit.nfl]
    have hb := (List.getElem?_eq_some_iff.mp hflow).1
    omega
  simp [TrainItems.next, if_neg hrem, hform, show ¬ trainFormDict = trainFormSame by decide,
    show ¬ trainFormDict = trainFormSameEqual by decide, hhead, if_neg hidx, htake, hit.flows,
    getD_eq_getElem?_getD, hflow, Option.getD_some]

lemma Iterates.step {it : TrainItems} (hit : Iterates f it ((hdr, item) :: cells)) :
    Iterates f { it with remaining := it.remaining - 1, items := flatCells Prod.snd cells }
      cells := by
  have hcount := hit.remaining
  rw [length_cons] at hcount
  have hone : (1 : UInt8) ≤ it.remaining := by
    rw [UInt8.le_iff_toNat_le, UInt8.toNat_one]
    omega
  have hshort := hit.short
  rw [hit.left, flatCells_cons, length_append, length_append] at hshort
  refine ⟨hit.form, hit.itemLen, hit.flows, hit.nfl, (forall_mem_cons.mp hit.items).2, rfl, ?_, ?_⟩
  · simp only
    omega
  · rw [UInt8.toNat_sub_of_le _ _ hone, UInt8.toNat_one]
    omega

/-- Every train of the grammar is walked from its frame to the end. -/
lemma Train.walk (h : Train f hdr cells) :
    ∃ last : TrainItems, Walk TrainItems.next TrainItems.items Prod.snd f.items cells last ∧
      last.items = [] ∧ last.next.1 = none := by
  have hshort := h.short
  rw [length_append] at hshort
  have hstart : Iterates f f.items cells := ⟨rfl, rfl, rfl, h.header.nfl, h.items, h.tiles,
    show f.itemBytes.length < usizeSize by omega, h.count.symm⟩
  obtain ⟨last, hwalk, hlast⟩ := exists_walk (Iterates f)
    (fun it hdr item cells hit => ⟨_, hit.next, hit.left.trans (flatCells_cons ..), hit.step⟩) hstart
  refine ⟨last, hwalk, hlast.left, ?_⟩
  rw [TrainItems.next, if_pos (UInt8.toNat_inj.mp hlast.remaining)]

lemma ItemHeader.mem_flows (h : ItemHeader f hdr item) : item.1 ∈ f.flows := by
  rcases h with ⟨-, -, hflow⟩ | ⟨-, -, -, hflow⟩ | ⟨-, idx, len, -, -, hflow⟩
  · exact mem_of_getElem? hflow
  · exact mem_of_getElem? hflow
  · exact mem_of_getElem? hflow

end MyQuic2.Rev3
