import MyQuic2.Mqp.Rev2.Form
import MyQuic2.Mqp.Rev2.TrainGrammar

/-!
# Rev2 round trip

A DATA or FRAG frame is read back whatever it carries. A train is read back if each of
its items is shorter than `2 ^ 32` octets: the encoders announce an item length with
its lowest 32 bits only.
-/

namespace MyQuic2.Rev2

open List Option

/-- The arguments of one of the two train encoders. -/
inductive TrainReq where
  | same (id : UInt32) (payloads : List Bytes)
  /-- Several flows, each item with an index into them. -/
  | dict (flows : List UInt32) (items : List (UInt8 × Bytes))

namespace TrainReq

/-- The length helper of the encoder. -/
def len : TrainReq → Option Nat
  | same id payloads => trainSameLen id payloads
  | dict flows items => trainDictLen flows items

section

variable (r : TrainReq)

def encode (limit : Nat) : TrainReq → Option Bytes
  | same id payloads => encodeTrainSame id payloads limit
  | dict flows items => encodeTrainDict flows items limit

/-- The flow and payload of every item, in order. -/
def entries : TrainReq → List (UInt32 × Bytes)
  | same id payloads => payloads.map fun p => (id, p)
  | dict flows items => items.map fun item => (flows.getD item.1.toNat 0, item.2)

/-- Every item is shorter than `2 ^ 32` octets. -/
def ItemsFit : Prop := ∀ e ∈ r.entries, e.2.length < 2 ^ 32

/-- Every item with the header the encoder writes for it. -/
def cells : TrainReq → List (Bytes × (UInt32 × Bytes))
  | same id payloads => payloads.map fun p => (putVarint (itemLen32 p), (id, p))
  | dict flows items => items.map fun item =>
    (item.1 :: putVarint (itemLen32 item.2), (flows.getD item.1.toNat 0, item.2))

/-- The frame header the encoder writes. -/
def header : TrainReq → Bytes
  | same id payloads =>
    kindTrain :: trainFormSame :: UInt8.ofNat payloads.length :: putVarint id
  | dict flows items => kindTrain :: trainFormDict :: UInt8.ofNat items.length ::
      UInt8.ofNat flows.length :: flows.flatMap putVarint

/-- The view the decoder should return. -/
def frame : TrainFrame :=
  match r with
  | same id payloads =>
    ⟨trainFormSame, UInt8.ofNat payloads.length, 1, [id], flatCells Prod.snd r.cells⟩
  | dict flows items => ⟨trainFormDict, UInt8.ofNat items.length, UInt8.ofNat flows.length, flows,
      flatCells Prod.snd r.cells⟩

/-- All octets of the frame. -/
def layout : Bytes := r.header ++ r.frame.itemBytes

lemma cells_map_snd : r.cells.map Prod.snd = r.entries := by
  cases r with
  | same _ _ | dict _ _ => simp [cells, entries]

/-- Every encoder builds its layout behind the same check. -/
lemma encode_eq (limit : Nat) :
    r.encode limit = r.len.bind fun total => if total > limit then none else some r.layout := by
  cases r with
  | same id payloads =>
    simp [encode, encodeTrainSame, layout, header, frame, cells, flatCells, flatMap_map,
      cons_append, len, bind_eq_bind]
  | dict flows items =>
    simp [encode, encodeTrainDict, layout, header, frame, cells, flatCells, flatMap_map,
      cons_append, len, bind_eq_bind]

end

lemma encode_eq_some {r : TrainReq} {limit : Nat} {v : Bytes} :
    r.encode limit = some v ↔ ∃ n, r.len = some n ∧ n ≤ limit ∧ v = r.layout := by
  rw [encode_eq, bind_eq_some_iff]
  simp [eq_comm (a := v)]

end TrainReq

lemma itemLenField_of_fits {p : Bytes} (h : p.length < 2 ^ 32) :
    ItemLenField (putVarint (itemLen32 p)) p.length := by
  refine ⟨itemLen32 p, varintField_putVarint _, ?_⟩
  rw [itemLen32, UInt32.toNat_ofNat']
  omega

variable {n : Nat}

lemma length_flatMap_putVarint (flows : List UInt32) :
    (flows.flatMap putVarint).length = (flows.map varintLen).sum := by
  induction flows with
  | nil => rfl
  | cons f flows ih =>
    rw [flatMap_cons, length_append, ih, length_putVarint, map_cons, sum_cons]

open TrainReq

lemma same_of_len {id : UInt32} {payloads : List Bytes}
    (h : trainSameLen id payloads = some n) :
    validTrainCount payloads.length = true ∧ validWireId id = true ∧
      n = (same id payloads).layout.length ∧ n < usizeSize := by
  unfold trainSameLen at h
  obtain ⟨hc, h⟩ := guard_eq_some h
  obtain ⟨hv, h⟩ := guard_eq_some h
  have hle := varintLen_le id
  obtain ⟨hn, hlt⟩ := foldlM_checkedAdd h (by rw [usizeSize]; omega)
  refine ⟨hc, hv, ?_, hlt⟩
  simp only [layout, header, frame, cells,
    length_flatCells_map, length_append, length_cons, length_putVarint]
  omega

lemma dict_of_len {flows : List UInt32} {items : List (UInt8 × Bytes)}
    (h : trainDictLen flows items = some n) :
    validTrainCount items.length = true ∧ validTrainFlows flows items = true ∧
      n = (dict flows items).layout.length ∧ n < usizeSize := by
  unfold trainDictLen at h
  obtain ⟨hc, h⟩ := guard_eq_some h
  obtain ⟨hv, h⟩ := guard_eq_some h
  obtain ⟨start, hstart, h⟩ := bind_eq_some_iff.mp h
  obtain ⟨hs, hslt⟩ := foldlM_checkedAdd hstart (by decide)
  obtain ⟨hn, hlt⟩ := foldlM_checkedAdd h hslt
  refine ⟨hc, hv, ?_, hlt⟩
  simp only [layout, header, frame, cells, length_flatCells_map,
    length_append, length_cons, length_putVarint, length_flatMap_putVarint, hn, hs, Nat.add_comm 1]
  omega

lemma toNat_trainCount (h : validTrainCount n = true) : (UInt8.ofNat n).toNat = n :=
  toNat_nfl (validTrainCount_iff.mp h).2

namespace TrainReq

variable {n : Nat} {r : TrainReq}

section

variable (h : r.len = some n)
include h

lemma length_of_len : n = r.layout.length := by
  cases r with
  | same id payloads => exact (same_of_len h).2.2.1
  | dict flows items => exact (dict_of_len h).2.2.1

/-- The ids of a request with a length are valid. -/
lemma valid_of_len : ∀ e ∈ r.entries, validWireId e.1 = true := by
  intro e he
  cases r with
  | same id payloads =>
    obtain ⟨p, -, rfl⟩ := mem_map.mp he
    exact (same_of_len h).2.1
  | dict flows items =>
    obtain ⟨item, hitem, rfl⟩ := mem_map.mp he
    obtain ⟨-, -, -, hvalid, -, hidx⟩ := validTrainFlows_iff.mp (dict_of_len h).2.1
    have hlt := hidx item hitem
    rw [List.getD_eq_getElem?_getD, List.getElem?_eq_getElem hlt, Option.getD_some]
    exact hvalid _ (List.getElem_mem hlt)

lemma train_of_len (hfit : r.ItemsFit) : Train r.frame r.header r.cells := by
  cases r with
  | same id payloads =>
    obtain ⟨hc, hv, hn, hlt⟩ := same_of_len h
    refine ⟨⟨_, rfl, .inl ⟨rfl, id, rfl, hv, varintField_putVarint id⟩⟩, ?_, ?_, ?_, rfl, rfl, ?_⟩
    · refine forall_mem_map.mpr fun p hp => .inl ⟨rfl, ?_, rfl⟩
      exact itemLenField_of_fits (hfit (id, p) (mem_map.mpr ⟨p, hp, rfl⟩))
    · simp [cells, frame, toNat_trainCount hc]
    · simp [frame, toNat_trainCount hc, hc]
    · rw [hn] at hlt
      exact hlt
  | dict flows items =>
    obtain ⟨hc, hv, hn, hlt⟩ := dict_of_len h
    obtain ⟨hne, -, hle, hvalid, hnodup, hidx⟩ := validTrainFlows_iff.mp hv
    have hle' : flows.length ≤ (UInt8.ofNat items.length).toNat := by
      rw [toNat_trainCount hc]
      exact hle
    refine ⟨⟨_, rfl, .inr ⟨rfl, length_pos_iff.mpr hne, hle', hnodup,
      flows.map fun f => (putVarint f, f), ?_, ?_, ?_⟩⟩, ?_, ?_, ?_, rfl, rfl, ?_⟩
    · rw [List.map_map]
      exact (List.map_id flows).symm
    · exact List.forall_mem_map.mpr fun f hf => ⟨varintField_putVarint f, hvalid f hf⟩
    · rw [List.flatMap_map]
      rfl
    · refine forall_mem_map.mpr fun item hi => .inr ⟨rfl, item.1, _, rfl, ?_, ?_⟩
      · exact itemLenField_of_fits (hfit _ (List.mem_map.mpr ⟨item, hi, rfl⟩))
      · have hin := hidx item hi
        simp [frame, List.getD_eq_getElem?_getD, List.getElem?_eq_getElem hin, Option.getD_some]
    · simp [cells, frame, toNat_trainCount hc]
    · simp [frame, toNat_trainCount hc, hc]
    · rw [hn] at hlt
      exact hlt

/-- If all items fit, the frame is iterated as the encoded list. -/
lemma yields_of_fit (hfit : r.ItemsFit) :
    ∃ f, decodeTrain r.layout = .ok f ∧ Yields TrainItems.next f.items r.entries := by
  have htrain := train_of_len h hfit
  obtain ⟨last, hwalk, -, hend⟩ := htrain.walk
  refine ⟨r.frame, decodeTrain_of_train htrain, ?_⟩
  rw [← r.cells_map_snd]
  exact hwalk.yields hend

end

lemma kind_layout (r : TrainReq) : kind r.layout = some .train := by
  cases r <;> rfl

end TrainReq

/-- The arguments of one of the eight encoders. -/
inductive Request where
  | data (form : Form) (payload : Bytes)
  | train (r : TrainReq)
  | frag (form : Form) (fragId : UInt32) (idx total : UInt8) (chunk : Bytes)

namespace Request

def encode (limit : Nat) : Request → Option Bytes
  | data form payload => form.encodeData payload limit
  | train r => r.encode limit
  | frag form fragId idx total chunk => form.encodeFrag fragId idx total chunk limit

/-- The length helper of the encoder. -/
def len : Request → Option Nat
  | data form payload => some (form.dataLen payload.length)
  | train r => r.len
  | frag form _ _ _ chunk => some (form.fragLen chunk.length)

/-- The kind the frame has to be classified as. -/
def kind : Request → Kind
  | data _ _ => .data
  | train _ => .train
  | frag _ _ _ _ _ => .frag

/-- The decoder of the kind returns what was encoded. -/
def ReadBack (frame : Bytes) : Request → Prop
  | data form payload => decodeData frame = .ok (form.dataRef payload)
  | train r => ∃ f, decodeTrain frame = .ok f ∧ Yields TrainItems.next f.items r.entries
  | frag form fragId idx total chunk =>
    decodeFrag frame = .ok (form.fragRef fragId idx total chunk)

/-- The items of a train, if it is one, are shorter than `2 ^ 32` octets. -/
def ItemsFit : Request → Prop
  | train r => r.ItemsFit
  | _ => True

/-- A frame the encoder returns has the announced length within the limit, is classified
right and is read back. -/
def RoundTrips (r : Request) (limit : Nat) : Prop :=
  ∀ frame, r.encode limit = some frame →
    r.len = some frame.length ∧ frame.length ≤ limit ∧ Rev2.kind frame = some r.kind ∧
      r.ReadBack frame

/-- What an encoder returns, by the kinds of requests. -/
lemma roundTrips {r : Request} (hfit : r.ItemsFit) (limit : Nat) : r.RoundTrips limit := by
  intro frame h
  cases r with
  | data form payload =>
    obtain ⟨hid, ha, hle, rfl⟩ := encodeData_eq_some.mp h
    have hlen := length_dataLayout ha payload
    exact ⟨by rw [hlen]; rfl, by rw [hlen]; exact hle, kind_dataLayout form payload,
      decodeData_dataLayout hid ha payload⟩
  | train r =>
    obtain ⟨n, hn, hle, rfl⟩ := encode_eq_some.mp h
    have hlen := length_of_len hn
    exact ⟨by rw [← hlen]; exact hn, by rw [← hlen]; exact hle, r.kind_layout,
      yields_of_fit hn hfit⟩
  | frag form fragId idx total chunk =>
    obtain ⟨hid, ha, hm, hle, rfl⟩ := encodeFrag_eq_some.mp h
    have hlen := length_fragLayout ha fragId idx total chunk
    exact ⟨by rw [hlen]; rfl, by rw [hlen]; exact hle, kind_fragLayout ..,
      decodeFrag_fragLayout hid ha hm⟩

end Request

/-- Every number is read back by both readers in its announced length, and the frames of every
request whose train items are shorter than `2 ^ 32` octets round trip. -/
theorem frames_round_trip (r : Request) (hfit : r.ItemsFit) (limit : Nat) (n : UInt32)
    (pre rest : Bytes) :
    ((putVarint n).length = varintLen n ∧
      getVarint (pre ++ (putVarint n ++ rest)) pre.length = .ok (n, pre.length + varintLen n) ∧
      varintAt (pre ++ (putVarint n ++ rest)) pre.length = some (n, pre.length + varintLen n)) ∧
    r.RoundTrips limit := by
  have hr : Rest (pre ++ (putVarint n ++ rest)) pre.length (putVarint n ++ rest) :=
    ⟨by simp, drop_left⟩
  refine ⟨⟨length_putVarint n, getVarint_of_rest hr, ?_⟩, Request.roundTrips hfit limit⟩
  rw [varintAt_eq, getVarint_of_rest hr]
  rfl

/-- A train of two flows, with an item that two octets announce. -/
theorem frames_round_trip_dict :
    let r : Request := .train (.dict [2, 300] [(1, List.replicate 200 7), (0, [])])
    (r.encode 400).isSome = true ∧ r.RoundTrips 400 := by
  refine ⟨by decide +kernel, (frames_round_trip _ ?_ 400 0 [] []).2⟩
  change ∀ e ∈ [((300 : UInt32), List.replicate 200 (7 : UInt8)), (2, [])], e.2.length < 2 ^ 32
  decide +kernel

/-- An item whose length is lost leaves octets behind that the decoder does not expect. -/
lemma decodeTrain_lost_length {p : Bytes} (hp : 0 < p.length) :
    decodeTrain (kindTrain :: trainFormSame :: 1 :: (putVarint 2 ++ (putVarint 0 ++ p))) =
      .error (.malformed "r2 train trailing bytes") := by
  generalize hb : kindTrain :: trainFormSame :: 1 :: (putVarint 2 ++ (putVarint 0 ++ p)) = b
  have hlen : b.length = 5 + p.length := by
    rw [← hb]
    simp only [length_cons, length_append, length_putVarint]
    rw [show varintLen 2 = 1 from rfl, show varintLen 0 = 1 from rfl]
    omega
  have r0 : Rest b 0 (kindTrain :: trainFormSame :: 1 :: (putVarint 2 ++ (putVarint 0 ++ p))) := by
    rw [← hb]
    exact Rest.zero _
  have r3 : Rest b 3 (putVarint 2 ++ (putVarint 0 ++ p)) := r0.tail.tail.tail
  have r4 : Rest b 4 (putVarint 0 ++ p) := rest_putVarint r3
  have hread1 := readByte_of_rest r0.tail (MqpError.malformed "short r2 train")
  have hread2 := readByte_of_rest r0.tail.tail (MqpError.malformed "short r2 train count")
  rw [Nat.zero_add] at hread1 hread2
  have hflows : decodeFlows b trainFormSame 1 = .ok ([2], 4) := by
    simp only [decodeFlows, if_true, getWireId_of_rest r3 (show validWireId 2 = true by decide),
      ok_bind]
    rfl
  have hcheck : checkItems b none 1 4 = .ok 5 := by
    have hitem : getItemLen b 4 = .ok (0, 5) := by
      rw [getItemLen, getVarint_of_rest r4]
      rfl
    have hle : 5 ≤ b.length := by omega
    simp [checkItems, walkItems, itemHead, hitem, ok_bind, checkedAdd,
      if_pos (show 5 < usizeSize by decide), hle, decide_true, ensure_true]
  have hend : (5 == b.length) = false := by
    rw [beq_eq_false_iff_ne, hlen]
    omega
  have hdict : dictOf trainFormSame [2] = none := rfl
  have hone : (1 : UInt8).toNat = 1 := rfl
  have hcount : validTrainCount 1 = true := rfl
  simp [decodeTrain, readByte_of_rest r0, ok_bind, ensure_true, hread1, hread2, hone, hcount,
    hflows, hdict, hcheck, hend, ensure_false, error_bind]

/-- One item of `2 ^ 32` octets is announced with length zero, and the frame is refused. -/
theorem encodeTrainSame_truncates :
    ∃ payload frame, payload.length = 2 ^ 32 ∧
      encodeTrainSame 2 [payload] (2 ^ 33) = some frame ∧
      decodeTrain frame = .error (.malformed "r2 train trailing bytes") := by
  obtain ⟨p, hlen⟩ : ∃ p : Bytes, p.length = 2 ^ 32 := ⟨List.replicate (2 ^ 32) 0, length_replicate⟩
  have h32 : itemLen32 p = 0 := by
    apply UInt32.toNat_inj.mp
    rw [itemLen32, hlen, UInt32.toNat_ofNat', Nat.mod_self]
    rfl
  have htotal : trainSameLen 2 [p] = some (4 + (1 + 2 ^ 32)) := by
    have hsum : checkedAdd 4 (1 + 2 ^ 32) = some (4 + (1 + 2 ^ 32)) := by
      rw [checkedAdd, if_pos (by rw [usizeSize]; omega)]
    have hcount : validTrainCount 1 = true := rfl
    have hid : validWireId 2 = true := rfl
    simp only [trainSameLen, length_singleton, foldlM_cons, foldlM_nil, h32, hlen,
      hcount, hid, Bool.not_true, Bool.false_eq_true, if_false]
    rw [show 3 + varintLen 2 = 4 from rfl, show varintLen 0 = 1 from rfl, hsum]
    rfl
  refine ⟨p, _, hlen, ?_, decodeTrain_lost_length (p := p) (by omega)⟩
  simp only [encodeTrainSame, htotal, bind_eq_bind, bind_some, h32,
    flatMap_cons, flatMap_nil, append_nil, length_singleton]
  rw [if_neg (by omega)]
  rfl

end MyQuic2.Rev2
