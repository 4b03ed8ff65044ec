import Mathlib.Data.List.Forall2
import MyQuic2.Mqp.Wire

/-!
# Transparency of the wire adapter

What one end encodes through the adapter, the other end decodes through it on the
same revision: the ids of the data plane come back although rev3 writes other
numbers, and the class of a frame names the decoder that reads it.
-/

namespace MyQuic2

open List Option Bool Rev3

/-- Frame classes, whatever the revision. -/
inductive FrameKind where
  | data
  | train
  | frag
  | ctl
  deriving DecidableEq

namespace Wire

/-- The class of a frame. -/
def kind (w : Wire) (b : Bytes) : Option FrameKind :=
  match w with
  | rev2 => (Rev2.kind b).map fun
      | .data => .data
      | .train => .train
      | .frag => .frag
      | .ctl => .ctl
  | rev3 => (Rev3.kind b).map fun
      | .data => .data
      | .dataExt => .data
      | .train => .train
      | .frag => .frag

/-- View of a decoded TRAIN frame on either wire. -/
inductive TrainView where
  | rev2 (t : Rev2.TrainFrame)
  | rev3 (t : Rev3.TrainFrame)

/-- Iterator over the items of a train. -/
inductive TrainItemIter where
  | rev2 (it : Rev2.TrainItems)
  | rev3 (it : Rev3.TrainItems)

namespace TrainItemIter

def next : TrainItemIter → Option (UInt32 × Bytes) × TrainItemIter
  | rev2 it => (it.next.1, rev2 it.next.2)
  | rev3 it => (it.next.1.bind fun item => (wireIdForFid item.1).map (·, item.2), rev3 it.next.2)

end TrainItemIter

namespace TrainView

def items : TrainView → TrainItemIter
  | rev2 t => .rev2 t.items
  | rev3 t => .rev3 t.items

def count : TrainView → UInt8
  | rev2 t => t.count
  | rev3 t => t.count

/-- The items, in order. -/
def toList (v : TrainView) : List (UInt32 × Bytes) :=
  collectItems TrainItemIter.next v.count.toNat v.items

end TrainView

def decodeTrain (w : Wire) (b : Bytes) : Except MqpError TrainView :=
  match w with
  | rev2 => do .ok (.rev2 (← Rev2.decodeTrain b))
  | rev3 => do .ok (.rev3 (← Rev3.decodeTrain b))

variable {fid : UInt16}

/-- The two maps are inverse to each other. -/
lemma fidFor_eq_some_iff {id : UInt32} : fidFor id = some fid ↔ wireIdForFid fid = some id := by
  constructor
  · exact wireIdForFid_fidFor
  · intro h
    rw [fidFor_eq_some]
    rcases wireIdForFid_eq_some.mp h with ⟨hlt, hid⟩ | ⟨hge, hlt, hid⟩
    · rw [if_pos (by omega)]
      omega
    · rw [if_neg (by omega)]
      omega

/-- Exactly the 14-bit ids are mapped. -/
lemma isSome_wireIdForFid (fid : UInt16) : (wireIdForFid fid).isSome = true ↔ fid ≤ fidMax := by
  have hcm : (clientFidMax).toNat = 0x1FFF := rfl
  have hsb : (serverFidBase).toNat = 0x2000 := rfl
  have hfm : (fidMax).toNat = 0x3FFF := rfl
  rw [UInt16.le_iff_toNat_le, hfm]
  unfold wireIdForFid
  split
  · rename_i hc
    rw [UInt16.le_iff_toNat_le, hcm] at hc
    simp only [isSome_some, true_iff]
    omega
  rename_i hc
  rw [UInt16.le_iff_toNat_le, hcm] at hc
  split
  · rename_i hs
    rw [UInt16.le_iff_toNat_le, UInt16.le_iff_toNat_le, hsb, hfm] at hs
    simp only [isSome_some, true_iff]
    omega
  rename_i hs
  rw [UInt16.le_iff_toNat_le, UInt16.le_iff_toNat_le, hsb, hfm] at hs
  simp only [isSome_none, false_eq_true, false_iff]
  omega

lemma wireIdServerOwned_iff (id : UInt32) : wireIdServerOwned id = true ↔ id.toNat % 2 = 1 := by
  rw [wireIdServerOwned, bne_iff_ne, ne_eq, and_one_eq_zero_iff]
  omega

lemma isServerFid_of_fidFor {id : UInt32} (h : fidFor id = some fid) :
    isServerFid fid = wireIdServerOwned id := by
  have hsb : (serverFidBase).toNat = 0x2000 := rfl
  have hfm : (fidMax).toNat = 0x3FFF := rfl
  obtain ⟨hrange, hval⟩ := fidFor_eq_some.mp h
  rw [Bool.eq_iff_iff, wireIdServerOwned_iff, isServerFid, Bool.and_eq_true,
    decide_eq_true_eq, decide_eq_true_eq, UInt16.le_iff_toNat_le, UInt16.le_iff_toNat_le, hsb, hfm]
  split at hval <;> omega

lemma isClientFid_of_fidFor {id : UInt32} (h : fidFor id = some fid) :
    isClientFid fid = !wireIdServerOwned id := by
  have hcm : (clientFidMax).toNat = 0x1FFF := rfl
  obtain ⟨hrange, hval⟩ := fidFor_eq_some.mp h
  have howner := wireIdServerOwned_iff id
  cases hown : wireIdServerOwned id with
  | false =>
    rw [hown, false_eq_true, false_iff] at howner
    rw [if_pos (by omega)] at hval
    rw [isClientFid, Bool.not_false, decide_eq_true_eq, UInt16.le_iff_toNat_le, hcm]
    omega
  | true =>
    have hodd := howner.mp hown
    rw [if_neg (by omega)] at hval
    rw [isClientFid, Bool.not_true, decide_eq_false_iff_not, UInt16.le_iff_toNat_le, hcm]
    omega

lemma validFid_of_fidFor {id : UInt32} (h : fidFor id = some fid) : validFid fid = true := by
  rw [validFid, decide_eq_true_eq, ← isSome_wireIdForFid, fidFor_eq_some_iff.mp h]
  rfl

/-- The ids a revision can write. -/
def Representable (w : Wire) (id : UInt32) : Prop :=
  match w with
  | rev2 => id ≠ 0
  | rev3 => (fidFor id).isSome = true

/-- The binding a frame carries. -/
inductive Form where
  | steady (id : UInt32)
  /-- Session and address for the id; a source address when `src` is set. -/
  | opening (id sess : UInt32) (addr : TargetAddr) (src : Bool)
  | inline (sess : UInt32) (addr : TargetAddr) (src : Bool)

namespace Form

def encodeData (w : Wire) (payload : Bytes) (limit : Nat) : Form → Option Bytes
  | steady id => encodeDataSteady w id payload limit
  | opening id sess addr src => encodeDataOpen w id sess addr src payload limit
  | inline sess addr src => encodeDataInline w sess addr src payload limit

def encodeFrag (w : Wire) (fragId : UInt32) (idx total : UInt8) (chunk : Bytes) (limit : Nat) :
    Form → Option Bytes
  | steady id => encodeFragSteady w id fragId idx total chunk limit
  | opening id sess addr src => encodeFragOpen w id sess addr src fragId idx total chunk limit
  | inline sess addr src => encodeFragInline w sess addr src fragId idx total chunk limit

def id : Form → Option UInt32
  | steady id => some id
  | opening id _ _ _ => some id
  | inline _ _ _ => none

/-- The session, where the form carries one. -/
def sess (w : Wire) : Form → Option UInt32
  | steady _ => none
  | opening id sess _ src => openSess w id sess src
  | inline sess _ _ => some sess

def addr : Form → Option TargetAddr
  | steady _ => none
  | opening _ _ addr _ => some addr
  | inline _ addr _ => some addr

/-- The source mark, where the form carries one. -/
def src (w : Wire) : Form → Bool
  | steady _ => false
  | opening _ _ _ src => src
  | inline _ _ src => inlineSrc w src

/-- A form that the revision has: the id is representable, and on rev3 only a source opens an id
of the server's half. -/
def Legal (w : Wire) : Form → Prop
  | steady id => w.Representable id
  | opening id _ _ src =>
    w.Representable id ∧ (w = rev3 → src = false → wireIdServerOwned id = false)
  | inline _ _ _ => True

/-- The address, if the form has one, can be written. -/
def AddrOk (f : Form) : Prop := ∀ a ∈ f.addr, a.Encodable

def toRev2 : Form → Rev2.Form
  | steady id => .steady id
  | opening id sess addr src => .opening id sess addr src
  | inline sess addr src => .inline sess addr src

/-- The form of rev3: a source on a client's id has a form of its own. -/
def toRev3 : Form → Option Rev3.Form
  | steady id => (fidFor id).map .steady
  | opening id sess addr src => (fidFor id).map fun fid =>
    if src && !wireIdServerOwned id then .source fid addr else .opening fid sess addr src
  | inline sess addr _ => some (.inline sess addr)

end Form

section

variable {f : Form} {payload frame chunk : Bytes} {limit : Nat} {fragId : UInt32}
  {idx total : UInt8}

lemma encodeData_rev2 (f : Form) (payload : Bytes) (limit : Nat) :
    f.encodeData rev2 payload limit = f.toRev2.encodeData payload limit := by
  cases f <;> rfl

lemma encodeFrag_rev2 :
    f.encodeFrag rev2 fragId idx total chunk limit =
      f.toRev2.encodeFrag fragId idx total chunk limit := by
  cases f <;> rfl

lemma encodeData_rev3 (f : Form) (payload : Bytes) (limit : Nat) :
    f.encodeData rev3 payload limit = f.toRev3.bind fun g => g.encodeData payload limit := by
  cases f with
  | steady id => cases h : fidFor id <;> simp [Form.encodeData, Form.toRev3, encodeDataSteady, h,
      Rev3.Form.encodeData]
  | opening id sess addr src =>
    cases h : fidFor id with
    | none => simp [Form.encodeData, Form.toRev3, encodeDataOpen, h]
    | some fid =>
      simp only [Form.encodeData, Form.toRev3, encodeDataOpen, h, bind_eq_bind, bind_some, map_some]
      split <;> rfl
  | inline sess addr src => rfl

lemma encodeFrag_rev3 :
    f.encodeFrag rev3 fragId idx total chunk limit =
      f.toRev3.bind fun g => g.encodeFrag fragId idx total chunk limit := by
  cases f with
  | steady id => cases h : fidFor id <;> simp [Form.encodeFrag, Form.toRev3, encodeFragSteady, h,
      Rev3.Form.encodeFrag]
  | opening id sess addr src =>
    cases h : fidFor id with
    | none => simp [Form.encodeFrag, Form.toRev3, encodeFragOpen, h]
    | some fid =>
      simp only [Form.encodeFrag, Form.toRev3, encodeFragOpen, h, bind_eq_bind, bind_some, map_some]
      split <;> rfl
  | inline sess addr src => rfl

lemma toRev2_ok (f : Form) : (f.toRev2.IdOk ↔ f.Legal rev2) ∧ (f.toRev2.AddrOk ↔ f.AddrOk) := by
  cases f <;>
    simp [Form.toRev2, Rev2.Form.IdOk, Rev2.Form.AddrOk, Form.Legal, Form.AddrOk, Form.addr,
      Representable, Rev2.validWireId]

lemma toRev3_ok (f : Form) :
    (f.Legal rev3 ∧ f.AddrOk) ↔ ∃ g, f.toRev3 = some g ∧ g.FidOk ∧ g.AddrOk := by
  cases f with
  | steady id =>
    cases h : fidFor id with
    | none => simp [Form.Legal, Form.toRev3, Representable, h]
    | some fid =>
      simp [Form.Legal, Form.toRev3, Representable, h, Form.AddrOk, Form.addr,
        Rev3.Form.FidOk, Rev3.Form.AddrOk, validFid_of_fidFor h]
  | opening id sess addr src =>
    cases h : fidFor id with
    | none => simp [Form.Legal, Form.toRev3, Representable, h]
    | some fid =>
      cases src <;> cases hown : wireIdServerOwned id <;>
        simp [Form.Legal, Form.toRev3, Representable, h, hown, Form.AddrOk, Form.addr,
          Rev3.Form.FidOk, Rev3.Form.AddrOk, ownedBy, openOwner,
          validFid_of_fidFor h, isServerFid_of_fidFor h, isClientFid_of_fidFor h]
  | inline sess addr src =>
    simp [Form.Legal, Form.toRev3, Form.AddrOk, Form.addr, Rev3.Form.FidOk, Rev3.Form.AddrOk]

end

/-- The arguments of one of the three train encoders. -/
inductive TrainReq where
  | same (id : UInt32) (payloads : List Bytes)
  | sameEqual (id : UInt32) (payloads : List Bytes)
  /-- Several flows, each item with an index into them. -/
  | dict (flows : List UInt32) (items : List (UInt8 × Bytes))

namespace TrainReq

def encode (w : Wire) (limit : Nat) : TrainReq → Option Bytes
  | same id payloads => encodeTrainSame w id payloads limit
  | sameEqual id payloads => encodeTrainSameEqual w id payloads limit
  | dict flows items => encodeTrainDict w flows items limit

/-- The id and payload of every item, in order. -/
def entries : TrainReq → List (UInt32 × Bytes)
  | same id payloads => payloads.map fun p => (id, p)
  | sameEqual id payloads => payloads.map fun p => (id, p)
  | dict flows items => items.map fun item => (flows.getD item.1.toNat 0, item.2)

/-- The request of rev2. -/
def toRev2 : TrainReq → Rev2.TrainReq
  | same id payloads => .same id payloads
  | sameEqual id payloads => .same id payloads
  | dict flows items => .dict flows items

/-- The request of rev3, if it can represent the ids. -/
def toRev3 : TrainReq → Option Rev3.TrainReq
  | same id payloads => (fidFor id).map (.same · payloads)
  | sameEqual id payloads => (fidFor id).map (.sameEqual · payloads)
  | dict flows items =>
    if flows.length > maxTrainItems then none
    else (flows.mapM fidFor).map (.dict · items)

section

variable (w : Wire) (r : TrainReq)

/-- The revision has the train: its codec has a length for it. -/
def Legal : Prop :=
  match w with
  | rev2 => r.toRev2.len.isSome = true
  | rev3 => ∃ t, r.toRev3 = some t ∧ t.len.isSome = true

lemma encode_rev2 (limit : Nat) : r.encode rev2 limit = r.toRev2.encode limit := by
  cases r <;> rfl

lemma encode_rev3 (limit : Nat) : r.encode rev3 limit = r.toRev3.bind fun t => t.encode limit := by
  cases r with
  | same id payloads => cases h : fidFor id <;> simp [encode, toRev3, encodeTrainSame, h,
      Rev3.TrainReq.encode]
  | sameEqual id payloads => cases h : fidFor id <;> simp [encode, toRev3, encodeTrainSameEqual, h,
      Rev3.TrainReq.encode]
  | dict flows items =>
    simp only [encode, toRev3, encodeTrainDict]
    split
    · rfl
    · cases h : flows.mapM fidFor <;> simp [Rev3.TrainReq.encode]

lemma entries_toRev2 : r.toRev2.entries = r.entries := by
  cases r <;> rfl

/-- A request comes from rev2 or rev3 with the length it is encoded in. -/
lemma exists_encode_iff : (∃ limit frame, r.encode w limit = some frame) ↔ r.Legal w := by
  cases w with
  | rev2 =>
    simp only [encode_rev2, Rev2.TrainReq.encode_eq_some, Legal, isSome_iff_exists]
    constructor
    · rintro ⟨limit, frame, n, hn, -⟩
      exact ⟨n, hn⟩
    · rintro ⟨n, hn⟩
      exact ⟨n, _, n, hn, le_rfl, rfl⟩
  | rev3 =>
    simp only [encode_rev3, bind_eq_some_iff, Rev3.TrainReq.encode_eq_some, Legal,
      isSome_iff_exists]
    constructor
    · rintro ⟨limit, frame, t, ht, n, hn, -⟩
      exact ⟨t, ht, n, hn⟩
    · rintro ⟨t, ht, n, hn⟩
      exact ⟨n, _, t, ht, n, hn, le_rfl, rfl⟩

end

/-- A rev3 item and the same item under the adapter's id. -/
def SameItem (x : UInt16 × Bytes) (y : UInt32 × Bytes) : Prop :=
  fidFor y.1 = some x.1 ∧ x.2 = y.2

lemma forall₂_of_mapM {flows : List UInt32} {fids : List UInt16}
    (h : flows.mapM fidFor = some fids) :
    List.Forall₂ (fun id fid => fidFor id = some fid) flows fids := by
  induction flows generalizing fids with
  | nil =>
    simp only [List.mapM_nil, Option.pure_def, Option.some.injEq] at h
    subst h
    exact .nil
  | cons id flows ih =>
    simp only [List.mapM_cons, Option.bind_eq_bind, Option.bind_eq_some_iff, Option.pure_def,
      Option.some.injEq] at h
    obtain ⟨fid, hfid, rest, hrest, rfl⟩ := h
    exact .cons hfid (ih hrest)

lemma sameItem_entries {r : TrainReq} {t : Rev3.TrainReq} {n : Nat} (ht : r.toRev3 = some t)
    (hn : t.len = some n) : List.Forall₂ SameItem t.entries r.entries := by
  cases r with
  | same id payloads | sameEqual id payloads =>
    obtain ⟨fid, hfid, rfl⟩ := map_eq_some_iff.mp ht
    simp only [Rev3.TrainReq.entries, entries, forall₂_map_left_iff, forall₂_map_right_iff]
    exact forall₂_same.mpr fun p _ => ⟨hfid, rfl⟩
  | dict flows items =>
    simp only [toRev3] at ht
    split at ht
    · cases ht
    obtain ⟨fids, hfids, rfl⟩ := map_eq_some_iff.mp ht
    have hflows := forall₂_of_mapM hfids
    have hidx : ∀ item ∈ items, item.1.toNat < fids.length := by
      simp only [Rev3.TrainReq.len, trainDictLen] at hn
      split at hn
      · cases hn
      split at hn
      · cases hn
      rename_i hvalid
      rw [not_eq_true', not_eq_false, validTrainFlows_iff] at hvalid
      exact hvalid.2.2.2.2.2
    simp only [Rev3.TrainReq.entries, entries, List.forall₂_map_left_iff,
      List.forall₂_map_right_iff]
    refine forall₂_same.mpr fun item hitem => ⟨?_, rfl⟩
    have hlt := hidx item hitem
    have hlt' : item.1.toNat < flows.length := by
      rw [hflows.length_eq]
      exact hlt
    have hget := hflows.get hlt' hlt
    simp only [getD_eq_getElem?_getD, getElem?_eq_getElem hlt, getElem?_eq_getElem hlt', getD_some]
    exact hget

/-- The ids of a train that comes out are those that the revision can write. -/
lemma representable_of_encode {w : Wire} {r : TrainReq} {limit : Nat} {frame : Bytes}
    (h : r.encode w limit = some frame) : ∀ e ∈ r.entries, w.Representable e.1 := by
  intro e he
  cases w with
  | rev2 =>
    rw [encode_rev2] at h
    obtain ⟨n, hn, -⟩ := Rev2.TrainReq.encode_eq_some.mp h
    rw [← entries_toRev2] at he
    exact bne_iff_ne.mp (Rev2.TrainReq.valid_of_len hn e he)
  | rev3 =>
    rw [encode_rev3] at h
    obtain ⟨t, ht, h⟩ := bind_eq_some_iff.mp h
    obtain ⟨n, hn, -⟩ := Rev3.TrainReq.encode_eq_some.mp h
    have hsame := sameItem_entries ht hn
    obtain ⟨i, hi, rfl⟩ := mem_iff_getElem.mp he
    have hget := hsame.get (hsame.length_eq.symm ▸ hi) hi
    exact isSome_iff_exists.mpr ⟨_, hget.1⟩

end TrainReq

/-- The adapter's iterator lists a rev3 train under the adapter's ids. -/
lemma yields_rev3 {it : Rev3.TrainItems} {xs : List (UInt16 × Bytes)}
    (h : Yields Rev3.TrainItems.next it xs) {ys : List (UInt32 × Bytes)}
    (hsame : List.Forall₂ TrainReq.SameItem xs ys) : Yields TrainItemIter.next (.rev3 it) ys := by
  induction h generalizing ys with
  | done hnone =>
    cases hsame
    refine .done ?_
    rw [TrainItemIter.next, hnone]
    rfl
  | more hnext _ ih =>
    cases hsame with
    | @cons x y xs ys hitem hrest =>
      obtain ⟨hfid, hpayload⟩ := hitem
      refine .more ?_ (ih hrest)
      rw [TrainItemIter.next, hnext, bind_some, wireIdForFid_fidFor hfid, hpayload]
      rfl

lemma yields_rev2 {it : Rev2.TrainItems} {xs : List (UInt32 × Bytes)}
    (h : Yields Rev2.TrainItems.next it xs) : Yields TrainItemIter.next (.rev2 it) xs := by
  induction h with
  | done hnone => exact .done hnone
  | more hnext _ ih =>
    refine .more ?_ ih
    rw [TrainItemIter.next, hnext]

/-- The arguments of an encoder of the adapter. -/
inductive Request where
  | data (form : Form) (payload : Bytes)
  | train (r : TrainReq)
  | frag (form : Form) (fragId : UInt32) (idx total : UInt8) (chunk : Bytes)

namespace Request

def encode (w : Wire) (limit : Nat) : Request → Option Bytes
  | data form payload => form.encodeData w payload limit
  | train r => r.encode w limit
  | frag form fragId idx total chunk => form.encodeFrag w fragId idx total chunk limit

/-- The class the frame has to be classified as. -/
def kind : Request → FrameKind
  | data _ _ => .data
  | train _ => .train
  | frag _ _ _ _ _ => .frag

/-- The decoder of the class returns what was encoded, up to the flow label. -/
def ReadBack (w : Wire) (frame : Bytes) : Request → Prop
  | data form payload => w.decodeData frame =
      .ok ⟨form.id, form.sess w, form.addr.map TargetAddr.clearFlow, form.src w, payload⟩
  | train r => ∃ v, w.decodeTrain frame = .ok v ∧ Yields TrainItemIter.next v.items r.entries
  | frag form fragId idx total chunk => ∃ off, w.decodeFrag frame =
      .ok ⟨form.id, form.sess w, form.addr.map TargetAddr.clearFlow, form.src w, fragId, idx, total,
        off, chunk⟩

/-- The revision has the frame: the form is legal, its address can be written, and the fields of
a fragment are valid. -/
def Legal (w : Wire) : Request → Prop
  | data form _ => form.Legal w ∧ form.AddrOk
  | train r => r.Legal w
  | frag form _ idx total chunk => (form.Legal w ∧ form.AddrOk) ∧
      match w with
      | rev2 => Rev2.fragMetaOk idx total chunk = true
      | rev3 => fragMetaOk idx total chunk = true

/-- The items of a rev2 train are shorter than `2 ^ 32` octets. -/
def ItemsFit (w : Wire) : Request → Prop
  | train r => w = rev2 → r.toRev2.ItemsFit
  | _ => True

variable {frame : Bytes} {limit : Nat} {w : Wire}

lemma readBack_data {form : Form} {payload : Bytes}
    (h : form.encodeData w payload limit = some frame) : (data form payload).ReadBack w frame := by
  cases form with
  | steady id => exact decodeData_of_steady h
  | opening id sess addr src => exact decodeData_of_open h
  | inline sess addr src => exact decodeData_of_inline h

lemma readBack_frag {form : Form} {fragId : UInt32} {idx total : UInt8} {chunk : Bytes}
    (h : form.encodeFrag w fragId idx total chunk limit = some frame) :
    (frag form fragId idx total chunk).ReadBack w frame := by
  cases form with
  | steady id =>
    obtain ⟨off, -, -, hdec⟩ := decodeFrag_of_steady h
    exact ⟨off, hdec⟩
  | opening id sess addr src =>
    obtain ⟨off, -, -, hdec⟩ := decodeFrag_of_open h
    exact ⟨off, hdec⟩
  | inline sess addr src =>
    obtain ⟨off, -, -, hdec⟩ := decodeFrag_of_inline h
    exact ⟨off, hdec⟩

lemma readBack_train {r : TrainReq} (hfit : (train r).ItemsFit w)
    (h : r.encode w limit = some frame) : (train r).ReadBack w frame := by
  cases w with
  | rev2 =>
    rw [TrainReq.encode_rev2] at h
    obtain ⟨n, hn, -, rfl⟩ := Rev2.TrainReq.encode_eq_some.mp h
    obtain ⟨f, hf, hyields⟩ := Rev2.TrainReq.yields_of_fit hn (hfit rfl)
    rw [TrainReq.entries_toRev2] at hyields
    exact ⟨.rev2 f, by simp [decodeTrain, hf, ok_bind], yields_rev2 hyields⟩
  | rev3 =>
    rw [TrainReq.encode_rev3] at h
    obtain ⟨t, ht, h⟩ := bind_eq_some_iff.mp h
    obtain ⟨n, hn, -, rfl⟩ := Rev3.TrainReq.encode_eq_some.mp h
    obtain ⟨-, htrain⟩ := Rev3.TrainReq.train_of_len hn
    obtain ⟨last, hwalk, -, hend⟩ := htrain.walk
    have hyields := hwalk.yields hend
    rw [t.cells_map_snd] at hyields
    have hdec := decodeTrain_of_train htrain
    refine ⟨.rev3 t.frame, ?_, yields_rev3 hyields (TrainReq.sameItem_entries ht hn)⟩
    unfold Rev3.TrainReq.layout
    simp [decodeTrain, hdec, ok_bind]

/-- A frame is classified by what it carries. -/
lemma kind_of_encode {r : Request} (h : r.encode w limit = some frame) :
    w.kind frame = some r.kind := by
  cases w with
  | rev2 =>
    cases r with
    | data form payload =>
      rw [encode, encodeData_rev2] at h
      obtain ⟨-, -, -, rfl⟩ := Rev2.encodeData_eq_some.mp h
      simp [Wire.kind, Rev2.kind_dataLayout, kind]
    | train r =>
      rw [encode, TrainReq.encode_rev2] at h
      obtain ⟨n, -, -, rfl⟩ := Rev2.TrainReq.encode_eq_some.mp h
      simp [Wire.kind, Rev2.TrainReq.kind_layout, kind]
    | frag form fragId idx total chunk =>
      rw [encode, encodeFrag_rev2] at h
      obtain ⟨-, -, -, -, rfl⟩ := Rev2.encodeFrag_eq_some.mp h
      simp [Wire.kind, Rev2.kind_fragLayout, kind]
  | rev3 =>
    cases r with
    | data form payload =>
      rw [encode, encodeData_rev3] at h
      obtain ⟨g, -, h⟩ := bind_eq_some_iff.mp h
      obtain ⟨-, -, -, rfl⟩ := encodeData_eq_some.mp h
      rcases kind_dataLayout g payload with hk | hk <;> simp [Wire.kind, hk, kind]
    | train r =>
      rw [encode, TrainReq.encode_rev3] at h
      obtain ⟨t, -, h⟩ := bind_eq_some_iff.mp h
      obtain ⟨n, -, -, rfl⟩ := Rev3.TrainReq.encode_eq_some.mp h
      simp [Wire.kind, Rev3.TrainReq.kind_layout, kind]
    | frag form fragId idx total chunk =>
      rw [encode, encodeFrag_rev3] at h
      obtain ⟨g, -, h⟩ := bind_eq_some_iff.mp h
      obtain ⟨-, -, -, -, rfl⟩ := encodeFrag_eq_some.mp h
      simp [Wire.kind, kind_fragLayout, kind]

/-- A frame comes out, for some limit, exactly where the revision has it. -/
lemma exists_encode_iff (w : Wire) (r : Request) :
    (∃ limit frame, r.encode w limit = some frame) ↔ r.Legal w := by
  cases r with
  | train r => exact r.exists_encode_iff w
  | data form payload =>
    cases w with
    | rev2 =>
      simp only [encode, encodeData_rev2, Rev2.encodeData_eq_some, Legal, toRev2_ok]
      constructor
      · rintro ⟨limit, frame, hid, ha, -⟩
        exact ⟨hid, ha⟩
      · rintro ⟨hid, ha⟩
        exact ⟨_, _, hid, ha, le_rfl, rfl⟩
    | rev3 =>
      simp only [encode, encodeData_rev3, bind_eq_some_iff, encodeData_eq_some, Legal, toRev3_ok]
      constructor
      · rintro ⟨limit, frame, g, hg, hid, ha, -⟩
        exact ⟨g, hg, hid, ha⟩
      · rintro ⟨g, hg, hid, ha⟩
        exact ⟨_, _, g, hg, hid, ha, le_rfl, rfl⟩
  | frag form fragId idx total chunk =>
    cases w with
    | rev2 =>
      simp only [encode, encodeFrag_rev2, Rev2.encodeFrag_eq_some, Legal, toRev2_ok]
      constructor
      · rintro ⟨limit, frame, hid, ha, hm, -⟩
        exact ⟨⟨hid, ha⟩, hm⟩
      · rintro ⟨⟨hid, ha⟩, hm⟩
        exact ⟨_, _, hid, ha, hm, le_rfl, rfl⟩
    | rev3 =>
      simp only [encode, encodeFrag_rev3, bind_eq_some_iff, encodeFrag_eq_some, Legal, toRev3_ok]
      constructor
      · rintro ⟨limit, frame, g, hg, hid, ha, hm, -⟩
        exact ⟨⟨g, hg, hid, ha⟩, hm⟩
      · rintro ⟨⟨g, hg, hid, ha⟩, hm⟩
        exact ⟨_, _, g, hg, hid, ha, hm, le_rfl, rfl⟩

end Request

/-- The adapter is transparent: its id maps are inverse to each other between all 14-bit ids and
the ids they stand for and keep the owner; and on either revision a frame comes out exactly for
what the revision has, and is classified and read back as what went in. -/
theorem adapter_transparent :
    (∀ id fid, fidFor id = some fid ↔ wireIdForFid fid = some id) ∧
    (∀ fid, (wireIdForFid fid).isSome = true ↔ fid ≤ Rev3.fidMax) ∧
    (∀ id fid, fidFor id = some fid → Rev3.isServerFid fid = wireIdServerOwned id) ∧
    ∀ (w : Wire) (r : Request),
      ((∃ limit frame, r.encode w limit = some frame) ↔ r.Legal w) ∧
      ∀ limit frame, r.encode w limit = some frame →
        w.kind frame = some r.kind ∧ (r.ItemsFit w → r.ReadBack w frame) := by
  refine ⟨fun id fid => fidFor_eq_some_iff, isSome_wireIdForFid,
    fun id fid => isServerFid_of_fidFor, fun w r => ⟨r.exists_encode_iff w, ?_⟩⟩
  intro limit frame h
  refine ⟨Request.kind_of_encode h, fun hfit => ?_⟩
  cases r with
  | data form payload => exact Request.readBack_data h
  | train r => exact Request.readBack_train hfit h
  | frag form fragId idx total chunk => exact Request.readBack_frag h

/-- The flow label of an address is not carried: on either revision an open of such an address is
read back with another one. -/
theorem adapter_drops_flow_label :
    (∃ frame, encodeDataOpen .rev2 2 7 (.ip (.v6 ⟨1⟩ 80 5 0)) false [] 64 = some frame ∧
      (decodeData .rev2 frame).toOption.bind DataView.addr = some (.ip (.v6 ⟨1⟩ 80 0 0))) ∧
    ∃ frame, encodeDataOpen .rev3 2 7 (.ip (.v6 ⟨1⟩ 80 5 0)) false [] 64 = some frame ∧
      (decodeData .rev3 frame).toOption.bind DataView.addr = some (.ip (.v6 ⟨1⟩ 80 0 0)) :=
  ⟨⟨_, rfl, by decide +kernel⟩, ⟨_, rfl, by decide +kernel⟩⟩

end Wire

end MyQuic2
