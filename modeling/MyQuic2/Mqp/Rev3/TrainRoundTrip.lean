import MyQuic2.Mqp.Rev3.TrainGrammar

/-!
# Rev3 trains: what is encoded is what is iterated

Each encoder writes a train of the grammar with canonical length fields. The
decoder therefore accepts it, and the iterator lists the encoded items.
-/

namespace MyQuic2.Rev3

open List Option

/-- The arguments of one of the three train encoders. -/
inductive TrainReq where
  | same (fid : UInt16) (payloads : List Bytes)
  | sameEqual (fid : UInt16) (payloads : List Bytes)
  /-- Several flows, each item with an index into them. -/
  | dict (flows : List UInt16) (items : List (UInt8 × Bytes))

namespace TrainReq

/-- The length helper of the encoder. -/
def len : TrainReq → Option Nat
  | same fid payloads => trainSameLen fid payloads
  | sameEqual fid payloads => trainSameEqualLen fid payloads
  | dict flows items => trainDictLen flows items

def encode (limit : Nat) : TrainReq → Option Bytes
  | same fid payloads => encodeTrainSame fid payloads limit
  | sameEqual fid payloads => encodeTrainSameEqual fid payloads limit
  | dict flows items => encodeTrainDict flows items limit

/-- The flow and payload of every item, in order. -/
def entries : TrainReq → List (UInt16 × Bytes)
  | same fid payloads => payloads.map fun p => (fid, p)
  | sameEqual fid payloads => payloads.map fun p => (fid, p)
  | dict flows items => items.map fun item => (flows.getD item.1.toNat 0, item.2)

/-- Every item with the header the encoder writes for it. -/
def cells : TrainReq → List (Bytes × (UInt16 × Bytes))
  | same fid payloads => payloads.map fun p => (putItemLen p.length, (fid, p))
  | sameEqual fid payloads => payloads.map fun p => ([], (fid, p))
  | dict flows items => items.map fun item =>
    (item.1 :: putItemLen item.2.length, (flows.getD item.1.toNat 0, item.2))

/-- The frame header the encoder writes. -/
def header : TrainReq → Bytes
  | same fid payloads =>
    (classTrain ||| trainFormSame) :: (putU16 fid ++ [UInt8.ofNat payloads.length])
  | sameEqual fid payloads =>
    (classTrain ||| (trainFormSameEqual <<< trainFormShift)) ::
      (putU16 fid ++ (UInt8.ofNat payloads.length :: putItemLen (payloads.headD []).length))
  | dict flows items =>
    (classTrain ||| (trainFormDict <<< trainFormShift)) :: UInt8.ofNat flows.length ::
      UInt8.ofNat items.length :: flows.flatMap putU16

/-- The view the decoder should return. -/
def frame (r : TrainReq) : TrainFrame :=
  match r with
  | same fid payloads =>
    ⟨trainFormSame, UInt8.ofNat payloads.length, 1, 0, [fid], flatCells Prod.snd r.cells⟩
  | sameEqual fid payloads =>
    ⟨trainFormSameEqual, UInt8.ofNat payloads.length, 1, (payloads.headD []).length, [fid],
      flatCells Prod.snd r.cells⟩
  | dict flows items =>
    ⟨trainFormDict, UInt8.ofNat items.length, UInt8.ofNat flows.length, 0, flows,
      flatCells Prod.snd r.cells⟩

/-- All octets of the frame. -/
def layout (r : TrainReq) : Bytes := r.header ++ r.frame.itemBytes

lemma cells_map_snd (r : TrainReq) : r.cells.map Prod.snd = r.entries := by
  cases r with
  | same _ _ | sameEqual _ _ | dict _ _ => simp [cells, entries]

end TrainReq

variable {n : Nat}

lemma lenField_putItemLen {k : Nat} (h : itemLenLen n = some k) :
    LenField (putItemLen n) n ∧ (putItemLen n).length = k := by
  unfold itemLenLen at h
  unfold putItemLen
  by_cases hs : n < 0xFF
  · rw [if_pos hs] at h ⊢
    have hval : (UInt8.ofNat n).toNat = n := by
      rw [UInt8.toNat_ofNat']
      omega
    have hne : UInt8.ofNat n ≠ 0xFF := by
      intro he
      rw [he] at hval
      exact absurd hval (by simp; omega)
    refine ⟨?_, some.inj h⟩
    have hf := LenField.short _ hne
    rwa [hval] at hf
  · rw [if_neg hs] at h ⊢
    by_cases hl : n ≤ 0xFFFF
    · rw [if_pos hl] at h ⊢
      refine ⟨?_, ?_⟩
      · have hf := LenField.long (leBytes 2 n) (length_leBytes 2 n)
        rwa [ofLeBytes_leBytes_of_lt (by omega)] at hf
      · rw [length_cons, length_leBytes]
        exact some.inj h
    · rw [if_neg hl] at h
      exact absurd h (by simp)

lemma toNat_count (h : validTrainCount n = true) : (UInt8.ofNat n).toNat = n := by
  rw [validTrainCount_iff] at h
  have hmax : n ≤ 64 := h.2
  rw [UInt8.toNat_ofNat']
  omega

lemma itemStep_eq_some {t t' : Nat} (h : (do
      let total ← checkedAdd t (← itemLenLen n)
      checkedAdd total n : Option Nat) = some t') :
    t' = t + ((putItemLen n).length + n) ∧ t' < usizeSize ∧ LenField (putItemLen n) n := by
  simp only [bind_eq_bind, bind_eq_some_iff, checkedAdd_eq_some] at h
  obtain ⟨k, hk, u, ⟨hu, -⟩, ht, hlt⟩ := h
  obtain ⟨hfield, hsize⟩ := lenField_putItemLen hk
  exact ⟨by omega, hlt, hfield⟩

open TrainReq

lemma train_of_trainSameLen {fid : UInt16} {payloads : List Bytes}
    (h : trainSameLen fid payloads = some n) :
    n = (same fid payloads).layout.length ∧
      Train (same fid payloads).frame (same fid payloads).header (same fid payloads).cells := by
  unfold trainSameLen at h
  obtain ⟨hc, h⟩ := guard_eq_some h
  obtain ⟨hv, h⟩ := guard_eq_some h
  obtain ⟨hn, hlt, hfields⟩ := foldlM_sum (fun p : Bytes => (putItemLen p.length).length + p.length)
    (fun p => LenField (putItemLen p.length) p.length)
    (fun t p t' hp => itemStep_eq_some hp) h (by decide)
  have hlen : n = (same fid payloads).layout.length := by
    simp only [layout, header, frame, cells,
      length_flatCells_map, length_append, length_cons, length_nil, putU16, length_leBytes]
    omega
  refine ⟨hlen, ⟨?_, ?_, ?_, ?_, rfl, by rw [← layout, ← hlen]; exact hlt⟩⟩
  · exact ⟨_, by decide, by decide, rfl, .inl ⟨rfl, rfl, rfl, fid, rfl, hv, rfl⟩⟩
  · intro c hmem
    obtain ⟨p, hp, rfl⟩ := mem_map.mp hmem
    exact .inl ⟨rfl, hfields p hp, rfl⟩
  · simp [cells, frame, toNat_count hc]
  · simp [frame, toNat_count hc, hc]

lemma train_of_trainSameEqualLen {fid : UInt16} {payloads : List Bytes}
    (h : trainSameEqualLen fid payloads = some n) :
    n = (sameEqual fid payloads).layout.length ∧
      Train (sameEqual fid payloads).frame (sameEqual fid payloads).header
        (sameEqual fid payloads).cells := by
  unfold trainSameEqualLen at h
  obtain ⟨hc, h⟩ := guard_eq_some h
  obtain ⟨hv, h⟩ := guard_eq_some h
  cases payloads with
  | nil => exact absurd hc (by decide)
  | cons first others =>
    simp only [head?_cons, bind_eq_bind, bind_some, ite_none_left_eq_some, bind_eq_some_iff,
      checkedAdd_eq_some, checkedMul_eq_some] at h
    obtain ⟨hall, k, hk, total, ⟨ht, -⟩, body, ⟨hb, -⟩, hn, hlt⟩ := h
    obtain ⟨hfield, hsize⟩ := lenField_putItemLen hk
    rw [length_cons] at hb
    have heq : ∀ p ∈ first :: others, p.length = first.length := by
      intro p hp
      by_contra hne
      exact hall (any_eq_true.mpr ⟨p, hp, by simpa using hne⟩)
    have hsum : ((first :: others).map fun p => p.length).sum =
        first.length * (others.length + 1) := by
      rw [map_congr_left heq, map_const', sum_replicate_nat, Nat.mul_comm, length_cons]
    have hlen : n = (sameEqual fid (first :: others)).layout.length := by
      simp only [layout, header, frame, cells,
        length_flatCells_map, length_append, length_cons, length_nil, putU16,
        length_leBytes, headD_cons, Nat.zero_add, hsum]
      omega
    refine ⟨hlen, ⟨?_, ?_, ?_, ?_, rfl, by rw [← layout, ← hlen]; exact hlt⟩⟩
    · exact ⟨_, by decide, by decide, rfl, .inr (.inl ⟨rfl, rfl, fid, _, rfl, hv, hfield, rfl⟩)⟩
    · intro c hmem
      obtain ⟨p, hp, rfl⟩ := mem_map.mp hmem
      exact .inr (.inl ⟨rfl, rfl, heq p hp, rfl⟩)
    · simp only [cells, frame, length_map, toNat_count hc]
    · simp only [frame, toNat_count hc, hc]

lemma foldlM_dict {flows : List UInt16}
    (h : flows.foldlM (fun total _ => checkedAdd total 2) 3 = some n) :
    n = 3 + (flows.flatMap putU16).length ∧ n < usizeSize := by
  obtain ⟨hn, hlt⟩ := foldlM_checkedAdd h (by decide)
  refine ⟨?_, hlt⟩
  rw [hn, length_flatMap_putU16, map_const', sum_replicate_nat, Nat.mul_comm]

lemma train_of_trainDictLen {flows : List UInt16} {items : List (UInt8 × Bytes)}
    (h : trainDictLen flows items = some n) :
    n = (dict flows items).layout.length ∧
      Train (dict flows items).frame (dict flows items).header (dict flows items).cells := by
  unfold trainDictLen at h
  obtain ⟨hc, h⟩ := guard_eq_some h
  obtain ⟨hv, h⟩ := guard_eq_some h
  obtain ⟨start, hstart, h⟩ := bind_eq_some_iff.mp h
  obtain ⟨hs, hslt⟩ := foldlM_dict hstart
  obtain ⟨hn, hlt, hfields⟩ := foldlM_sum
    (fun item : UInt8 × Bytes => 1 + ((putItemLen item.2.length).length + item.2.length))
    (fun item => LenField (putItemLen item.2.length) item.2.length)
    (fun t item t' hp => by
      obtain ⟨u, hu, hp⟩ := bind_eq_some_iff.mp hp
      obtain ⟨hu, -⟩ := checkedAdd_eq_some.mp hu
      obtain ⟨ht, hlt, hf⟩ := itemStep_eq_some hp
      exact ⟨by omega, hlt, hf⟩) h hslt
  obtain ⟨hne, hmax, hle, hvalid, hnodup, hidx⟩ := validTrainFlows_iff.mp hv
  have hpos := length_pos_iff.mpr hne
  have hnfl : (UInt8.ofNat flows.length).toNat = flows.length :=
    toNat_count (validTrainCount_iff.mpr ⟨hpos, hmax⟩)
  have hlen : n = (dict flows items).layout.length := by
    simp only [layout, header, frame, cells,
      length_flatCells_map, length_append, length_cons, hn, hs]
    have hsum : (items.map fun item =>
        1 + ((putItemLen item.2.length).length + item.2.length)).sum =
        (items.map fun item => (putItemLen item.2.length).length + 1 + item.2.length).sum := by
      congr 1
      refine map_congr_left ?_
      intro item _
      omega
    omega
  refine ⟨hlen, ⟨?_, ?_, ?_, ?_, rfl, by rw [← layout, ← hlen]; exact hlt⟩⟩
  · refine ⟨_, by decide, by decide, rfl, .inr (.inr ⟨rfl, rfl, hnfl, hpos, ?_, hvalid, hnodup,
      rfl⟩)⟩
    simp only [frame, toNat_count hc]
    exact hle
  · intro c hmem
    obtain ⟨item, hi, rfl⟩ := mem_map.mp hmem
    refine .inr (.inr ⟨rfl, item.1, _, rfl, hfields item hi, ?_⟩)
    have hin := hidx item hi
    simp [frame, List.getD_eq_getElem?_getD, List.getElem?_eq_getElem hin, Option.getD_some]
  · simp [cells, frame, toNat_count hc]
  · simp [frame, toNat_count hc, hc]

namespace TrainReq

lemma train_of_len {r : TrainReq} {n : Nat} (h : r.len = some n) :
    n = r.layout.length ∧ Train r.frame r.header r.cells := by
  cases r with
  | same fid payloads => exact train_of_trainSameLen h
  | sameEqual fid payloads => exact train_of_trainSameEqualLen h
  | dict flows items => exact train_of_trainDictLen h

variable {payloads : List Bytes}

lemma flatMap_same (fid : UInt16) :
    (payloads.flatMap fun p => putItemLen p.length ++ p) = (same fid payloads).frame.itemBytes := by
  simp [frame, cells, flatCells, flatMap_map]

lemma flatten_sameEqual (fid : UInt16) :
    payloads.flatten = (sameEqual fid payloads).frame.itemBytes := by
  simp [frame, cells, flatCells, flatMap_map, nil_append, flatMap_id']

lemma flatMap_dict (flows : List UInt16) (items : List (UInt8 × Bytes)) :
    (items.flatMap fun item => item.1 :: (putItemLen item.2.length ++ item.2)) =
      (dict flows items).frame.itemBytes := by
  simp [frame, cells, flatCells, flatMap_map, cons_append]

/-- Every encoder builds its layout behind the same two checks. -/
lemma encode_eq (r : TrainReq) (limit : Nat) :
    r.encode limit = r.len.bind fun total =>
      if total > limit then none else if r.layout.length ≠ total then none else some r.layout := by
  cases r with
  | same fid payloads =>
    simp [encode, encodeTrainSame, flatMap_same fid, layout, header, len]
  | sameEqual fid payloads =>
    cases payloads with
    | nil => rfl
    | cons first others =>
      simp [encode, encodeTrainSameEqual, flatten_sameEqual fid, layout, header, len]
  | dict flows items =>
    simp only [encode, encodeTrainDict, flatMap_dict flows, layout, header, cons_append,
      len, bind_eq_bind]
    rfl

/-- An encoder returns the layout exactly when its length helper stays within the limit. -/
lemma encode_eq_some {r : TrainReq} {limit : Nat} {v : Bytes} :
    r.encode limit = some v ↔ ∃ n, r.len = some n ∧ n ≤ limit ∧ v = r.layout := by
  rw [encode_eq, bind_eq_some_iff]
  constructor
  · intro h
    obtain ⟨n, hn, h⟩ := h
    simp only [ite_none_left_eq_some, some.injEq, Nat.not_lt] at h
    exact ⟨n, hn, h.1, h.2.2.symm⟩
  · intro h
    obtain ⟨n, hn, hle, rfl⟩ := h
    refine ⟨n, hn, ?_⟩
    rw [if_neg (by omega), if_neg (by simp [(train_of_len hn).1])]

lemma kind_layout (r : TrainReq) : kind r.layout = some .train := by
  cases r <;> rfl

end TrainReq

/-- A train an encoder returns has the announced length within the limit, is accepted, and
is iterated as the encoded list; and an announced length within the limit is enough. -/
theorem train_round_trip (r : TrainReq) (limit : Nat) :
    (∀ frame, r.encode limit = some frame →
      r.len = some frame.length ∧ frame.length ≤ limit ∧
      ∃ f, decodeTrain frame = .ok f ∧ Yields TrainItems.next f.items r.entries) ∧
    (∀ n, r.len = some n → n ≤ limit → ∃ frame, r.encode limit = some frame) := by
  constructor
  · intro frame h
    obtain ⟨n, hn, hle, rfl⟩ := TrainReq.encode_eq_some.mp h
    obtain ⟨hlen, htrain⟩ := TrainReq.train_of_len hn
    obtain ⟨last, hwalk, -, hend⟩ := htrain.walk
    refine ⟨hlen ▸ hn, hlen ▸ hle, r.frame, decodeTrain_of_train htrain, ?_⟩
    rw [← r.cells_map_snd]
    exact hwalk.yields hend
  · intro n hn hle
    exact ⟨r.layout, TrainReq.encode_eq_some.mpr ⟨n, hn, hle, rfl⟩⟩

end MyQuic2.Rev3
