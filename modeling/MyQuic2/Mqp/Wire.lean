import MyQuic2.Mqp.Rev2.RoundTrip
import MyQuic2.Mqp.Rev3.TrainRoundTrip

/-!
# The wire adapter

Both data planes are written once, over flow ids of 32 bits that carry their
owner in the lowest bit. The adapter picks the codec of the connection's
revision and maps those ids to the 14-bit ids of rev3 and back.
-/

namespace MyQuic2

open Option Rev3 Rev2

/-- Wire revision of a connection. -/
inductive Wire where
  | rev2
  | rev3
  deriving DecidableEq

namespace Wire

/-- Highest local id a rev3 id can represent. -/
def maxR3LocalId : UInt32 := 0x2000

def fidFor (wireId : UInt32) : Option UInt16 :=
  if wireId = 0 then none
  else
    let lid := wireId >>> 1
    if lid = 0 ∨ lid > maxR3LocalId then none
    else
      let base : UInt16 := if wireId &&& 1 = 0 then 0 else serverFidBase
      some (base + (lid.toUInt16 - 1))

def wireIdForFid (fid : UInt16) : Option UInt32 :=
  if fid ≤ clientFidMax then some ((fid.toUInt32 + 1) <<< 1)
  else if serverFidBase ≤ fid ∧ fid ≤ fidMax then
    some ((((fid - serverFidBase).toUInt32 + 1) <<< 1) ||| 1)
  else none

def wireIdServerOwned (wireId : UInt32) : Bool := wireId &&& 1 != 0

def encodeDataSteady (w : Wire) (id : UInt32) (payload : Bytes) (limit : Nat) : Option Bytes :=
  match w with
  | rev2 => Rev2.encodeDataSteady id payload limit
  | rev3 => do Rev3.encodeDataSteady (← fidFor id) payload limit

/-- A new source on a client-owned id has a form of its own on rev3. -/
def encodeDataOpen (w : Wire) (id sess : UInt32) (addr : TargetAddr) (src : Bool)
    (payload : Bytes) (limit : Nat) : Option Bytes :=
  match w with
  | rev2 => Rev2.encodeDataOpen id sess addr src payload limit
  | rev3 => do
      let fid ← fidFor id
      if src && !wireIdServerOwned id then encodeDataSrc fid addr payload limit
      else Rev3.encodeDataOpen fid sess addr src payload limit

/-- The inline form of rev3 has no source mark. -/
def encodeDataInline (w : Wire) (sess : UInt32) (addr : TargetAddr) (src : Bool)
    (payload : Bytes) (limit : Nat) : Option Bytes :=
  match w with
  | rev2 => Rev2.encodeDataInline sess addr src payload limit
  | rev3 => Rev3.encodeDataInline sess addr payload limit

def encodeTrainSame (w : Wire) (id : UInt32) (payloads : List Bytes) (limit : Nat) :
    Option Bytes :=
  match w with
  | rev2 => Rev2.encodeTrainSame id payloads limit
  | rev3 => do Rev3.encodeTrainSame (← fidFor id) payloads limit

/-- Rev2 has no form for items of a common length. -/
def encodeTrainSameEqual (w : Wire) (id : UInt32) (payloads : List Bytes) (limit : Nat) :
    Option Bytes :=
  match w with
  | rev2 => Rev2.encodeTrainSame id payloads limit
  | rev3 => do Rev3.encodeTrainSameEqual (← fidFor id) payloads limit

def encodeTrainDict (w : Wire) (flows : List UInt32) (items : List (UInt8 × Bytes))
    (limit : Nat) : Option Bytes :=
  match w with
  | rev2 => Rev2.encodeTrainDict flows items limit
  | rev3 =>
    if flows.length > Rev3.maxTrainItems then none
    else do Rev3.encodeTrainDict (← flows.mapM fidFor) items limit

def encodeFragSteady (w : Wire) (id fragId : UInt32) (idx total : UInt8) (chunk : Bytes)
    (limit : Nat) : Option Bytes :=
  match w with
  | rev2 => Rev2.encodeFragSteady id fragId idx total chunk limit
  | rev3 => do Rev3.encodeFragSteady (← fidFor id) fragId idx total chunk limit

def encodeFragOpen (w : Wire) (id sess : UInt32) (addr : TargetAddr) (src : Bool)
    (fragId : UInt32) (idx total : UInt8) (chunk : Bytes) (limit : Nat) : Option Bytes :=
  match w with
  | rev2 => Rev2.encodeFragOpen id sess addr src fragId idx total chunk limit
  | rev3 => do
      let fid ← fidFor id
      if src && !wireIdServerOwned id then
        encodeFragSrc fid addr fragId idx total chunk limit
      else Rev3.encodeFragOpen fid sess addr src fragId idx total chunk limit

def encodeFragInline (w : Wire) (sess : UInt32) (addr : TargetAddr) (src : Bool)
    (fragId : UInt32) (idx total : UInt8) (chunk : Bytes) (limit : Nat) : Option Bytes :=
  match w with
  | rev2 => Rev2.encodeFragInline sess addr src fragId idx total chunk limit
  | rev3 => Rev3.encodeFragInline sess addr fragId idx total chunk limit

/-- View of a decoded DATA frame on either wire. -/
structure DataView where
  /-- Absent on the inline form. -/
  wireId : Option UInt32
  sess : Option UInt32
  addr : Option TargetAddr
  /-- The address is a source, not a target. -/
  src : Bool
  payload : Bytes

/-- View of a decoded FRAG frame on either wire. -/
structure FragView where
  /-- Absent on the inline form. -/
  wireId : Option UInt32
  sess : Option UInt32
  addr : Option TargetAddr
  /-- The address is a source, not a target. -/
  src : Bool
  fragId : UInt32
  idx : UInt8
  total : UInt8
  chunkOff : Nat
  chunk : Bytes
  deriving DecidableEq

/-- The internal id of an optional rev3 id. -/
def wireIdOfFid (bad : String) : Option UInt16 → Except MqpError (Option UInt32)
  | none => .ok none
  | some fid =>
    match wireIdForFid fid with
    | none => .error (.malformed bad)
    | some id => .ok (some id)

def decodeData (w : Wire) (b : Bytes) : Except MqpError DataView :=
  match w with
  | rev2 => do
      let d ← Rev2.decodeData b
      .ok ⟨d.id, d.sess, d.addr, d.src, d.payload⟩
  | rev3 => do
      let d ← Rev3.decodeData b
      let id ← wireIdOfFid "r3 data fid out of range" d.fid
      .ok ⟨id, d.sess, d.addr, d.src, d.payload⟩

def decodeFrag (w : Wire) (b : Bytes) : Except MqpError FragView :=
  match w with
  | rev2 => do
      let f ← Rev2.decodeFrag b
      .ok ⟨f.id, f.sess, f.addr, f.src, f.fragId, f.idx, f.total, f.chunkOff, f.chunk⟩
  | rev3 => do
      let f ← Rev3.decodeFrag b
      let id ← wireIdOfFid "r3 frag fid out of range" f.fid
      .ok ⟨id, f.sess, f.addr, f.src, f.fragId, f.idx, f.total, f.chunkOff, f.chunk⟩

lemma toNat_shiftRight_one (id : UInt32) : (id >>> 1).toNat = id.toNat / 2 := by
  rw [UInt32.toNat_shiftRight]
  simp [Nat.shiftRight_eq_div_pow]

lemma and_one_eq_zero_iff (id : UInt32) : id &&& 1 = 0 ↔ id.toNat % 2 = 0 := by
  have hbit : (id &&& 1).toNat = id.toNat % 2 := by
    rw [UInt32.toNat_and]
    exact Nat.and_one_is_mod _
  rw [← hbit]
  constructor
  · intro h
    rw [h]
    rfl
  · intro h
    exact UInt32.toNat_inj.mp h

variable {fid : UInt16} {id : UInt32}

lemma fidFor_eq_some :
    fidFor id = some fid ↔ (1 ≤ id.toNat / 2 ∧ id.toNat / 2 ≤ 0x2000) ∧
      fid.toNat = (if id.toNat % 2 = 0 then 0 else 0x2000) + (id.toNat / 2 - 1) := by
  have hmax : (maxR3LocalId).toNat = 0x2000 := rfl
  have hlid := toNat_shiftRight_one id
  unfold fidFor
  by_cases h0 : id = 0
  · rw [if_pos h0, h0]
    simp
  rw [if_neg h0]
  by_cases hrange : id >>> 1 = 0 ∨ id >>> 1 > maxR3LocalId
  · rw [if_pos hrange]
    simp only [reduceCtorEq, false_iff, not_and]
    intro hin
    rcases hrange with hz | hgt
    · rw [hz] at hlid
      simp at hlid
      omega
    · rw [gt_iff_lt, UInt32.lt_iff_toNat_lt, hmax, hlid] at hgt
      omega
  rw [if_neg hrange]
  obtain ⟨hne, hle⟩ := not_or.mp hrange
  have hpos : id.toNat / 2 ≠ 0 := by
    intro hz
    exact hne (UInt32.toNat_inj.mp (hlid.trans hz))
  have hle' : id.toNat / 2 ≤ 0x2000 := by
    rw [gt_iff_lt, UInt32.lt_iff_toNat_lt, hmax, hlid] at hle
    omega
  have hsub : ((id >>> 1).toUInt16 - 1).toNat = id.toNat / 2 - 1 := by
    have hle16 : (1 : UInt16) ≤ (id >>> 1).toUInt16 := by
      rw [UInt16.le_iff_toNat_le, UInt32.toNat_toUInt16, hlid]
      simp only [UInt16.toNat_one]
      omega
    rw [UInt16.toNat_sub_of_le _ _ hle16, UInt32.toNat_toUInt16, hlid, UInt16.toNat_one]
    omega
  have hbase : (if id &&& 1 = 0 then (0 : UInt16) else serverFidBase).toNat =
      if id.toNat % 2 = 0 then 0 else 0x2000 := by
    by_cases hb : id.toNat % 2 = 0
    · rw [if_pos ((and_one_eq_zero_iff id).mpr hb), if_pos hb]
      rfl
    · rw [if_neg (fun h => hb ((and_one_eq_zero_iff id).mp h)), if_neg hb]
      rfl
  have hsum : ((if id &&& 1 = 0 then (0 : UInt16) else serverFidBase) +
      ((id >>> 1).toUInt16 - 1)).toNat =
        (if id.toNat % 2 = 0 then 0 else 0x2000) + (id.toNat / 2 - 1) := by
    rw [UInt16.toNat_add, hbase, hsub, Nat.mod_eq_of_lt]
    split <;> omega
  rw [some.injEq, ← UInt16.toNat_inj, hsum]
  constructor
  · intro h
    exact ⟨⟨by omega, hle'⟩, h.symm⟩
  · intro h
    exact h.2.symm

/-- The id of a rev3 id is its position in the half, with the owner below. -/
lemma wireIdForFid_eq_some :
    wireIdForFid fid = some id ↔
      (fid.toNat < 0x2000 ∧ id.toNat = 2 * (fid.toNat + 1)) ∨
      (0x2000 ≤ fid.toNat ∧ fid.toNat < 0x4000 ∧ id.toNat = 2 * (fid.toNat - 0x2000 + 1) + 1) := by
  have hcm : (clientFidMax).toNat = 0x1FFF := rfl
  have hsb : (serverFidBase).toNat = 0x2000 := rfl
  have hfm : (fidMax).toNat = 0x3FFF := rfl
  unfold wireIdForFid
  by_cases hc : fid ≤ clientFidMax
  · rw [if_pos hc]
    rw [UInt16.le_iff_toNat_le, hcm] at hc
    have hval : ((fid.toUInt32 + 1) <<< 1).toNat = 2 * (fid.toNat + 1) := by
      rw [UInt32.toNat_shiftLeft, UInt32.toNat_add, UInt16.toNat_toUInt32]
      simp only [UInt32.reduceToNat, Nat.reduceMod, Nat.shiftLeft_eq]
      omega
    rw [some.injEq, ← UInt32.toNat_inj, hval]
    omega
  rw [if_neg hc]
  rw [UInt16.le_iff_toNat_le, hcm] at hc
  by_cases hs : serverFidBase ≤ fid ∧ fid ≤ fidMax
  · rw [if_pos hs]
    rw [UInt16.le_iff_toNat_le, UInt16.le_iff_toNat_le, hsb, hfm] at hs
    have hsub : (fid - serverFidBase).toNat = fid.toNat - 0x2000 := by
      rw [UInt16.toNat_sub_of_le _ _ (UInt16.le_iff_toNat_le.mpr (by rw [hsb]; omega)), hsb]
    have hval : ((((fid - serverFidBase).toUInt32 + 1) <<< 1) ||| 1).toNat =
        2 * (fid.toNat - 0x2000 + 1) + 1 := by
      rw [UInt32.toNat_or, UInt32.toNat_shiftLeft, UInt32.toNat_add, UInt16.toNat_toUInt32, hsub]
      simp only [UInt32.reduceToNat, Nat.reduceMod, Nat.shiftLeft_eq]
      have hor := Nat.two_pow_add_eq_or_of_lt (i := 1) (b := 1) (by omega)
        (fid.toNat - 0x2000 + 1)
      rw [Nat.mod_eq_of_lt (by omega), Nat.mod_eq_of_lt (by omega)]
      simp only [Nat.pow_one] at hor
      rw [Nat.pow_one, Nat.mul_comm _ 2, ← hor]
    rw [some.injEq, ← UInt32.toNat_inj, hval]
    omega
  · rw [if_neg hs]
    rw [UInt16.le_iff_toNat_le, UInt16.le_iff_toNat_le, hsb, hfm] at hs
    simp only [reduceCtorEq, false_iff]
    omega

/-- A mapped id is mapped back. -/
lemma wireIdForFid_fidFor (h : fidFor id = some fid) : wireIdForFid fid = some id := by
  obtain ⟨hrange, hval⟩ := fidFor_eq_some.mp h
  rw [wireIdForFid_eq_some]
  by_cases hb : id.toNat % 2 = 0
  · rw [if_pos hb] at hval
    omega
  · rw [if_neg hb] at hval
    omega

section

variable {w : Wire} {id sess fragId : UInt32} {addr : TargetAddr} {src : Bool} {idx total : UInt8}
  {chunk frame : Bytes} {limit : Nat}

lemma wireIdOfFid_fidFor {fid : UInt16} (h : fidFor id = some fid) (bad : String) :
    wireIdOfFid bad (some fid) = .ok (some id) := by
  simp [wireIdOfFid, wireIdForFid_fidFor h]

lemma rev2_decodeFrag {f : Rev2.Form}
    (h : f.encodeFrag fragId idx total chunk limit = some frame) :
    ∃ off ≤ 512, off + chunk.length = frame.length ∧
      decodeFrag rev2 frame = .ok ⟨f.id, f.sess, f.addr.map TargetAddr.clearFlow, f.src, fragId,
        idx, total, off, chunk⟩ := by
  obtain ⟨hdec, hlen⟩ := decodeFrag_of_encodeFrag h
  exact ⟨_, Rev2.Form.fragLen_zero_le _, hlen, by simp only [decodeFrag, hdec, ok_bind]; rfl⟩

lemma rev3_decodeFrag {f : Rev3.Form} {wireId : Option UInt32}
    (h : f.encodeFrag fragId idx total chunk limit = some frame)
    (hid : wireIdOfFid "r3 frag fid out of range" f.fid = .ok wireId) :
    ∃ off ≤ 512, off + chunk.length = frame.length ∧
      decodeFrag rev3 frame = .ok ⟨wireId, f.sess, f.addr.map TargetAddr.clearFlow, f.src, fragId,
        idx, total, off, chunk⟩ := by
  obtain ⟨hdec, hlen⟩ := decodeFrag_of_encodeFrag h
  exact ⟨_, Rev3.Form.fragLen_zero_le _, hlen,
    by simp [decodeFrag, hdec, ok_bind, Rev3.Form.fragRef, hid]⟩

/-- A steady fragment carries its id and nothing else. -/
lemma decodeFrag_of_steady (h : encodeFragSteady w id fragId idx total chunk limit = some frame) :
    ∃ off ≤ 512, off + chunk.length = frame.length ∧
      decodeFrag w frame = .ok ⟨some id, none, none, false, fragId, idx, total, off, chunk⟩ := by
  cases w with
  | rev2 => exact rev2_decodeFrag (f := .steady id) h
  | rev3 =>
    simp only [encodeFragSteady, bind_eq_bind, bind_eq_some_iff] at h
    obtain ⟨fid, hfid, h⟩ := h
    exact rev3_decodeFrag (f := .steady fid) h (wireIdOfFid_fidFor hfid _)

/-- The session an opening fragment carries: a new source on a client-owned id has none on
rev3. -/
def openSess (w : Wire) (id sess : UInt32) (src : Bool) : Option UInt32 :=
  match w with
  | rev2 => some sess
  | rev3 => if src && !wireIdServerOwned id then none else some sess

/-- An opening fragment carries its id, its address and, where the form has it, its session. -/
lemma decodeFrag_of_open
    (h : encodeFragOpen w id sess addr src fragId idx total chunk limit = some frame) :
    ∃ off ≤ 512, off + chunk.length = frame.length ∧
      decodeFrag w frame = .ok ⟨some id, openSess w id sess src, some addr.clearFlow, src, fragId,
        idx, total, off, chunk⟩ := by
  cases w with
  | rev2 => exact rev2_decodeFrag (f := .opening id sess addr src) h
  | rev3 =>
    simp only [encodeFragOpen, bind_eq_bind, bind_eq_some_iff] at h
    obtain ⟨fid, hfid, h⟩ := h
    have hid := wireIdOfFid_fidFor hfid "r3 frag fid out of range"
    by_cases hsrc : (src && !wireIdServerOwned id) = true
    · rw [if_pos hsrc] at h
      have htrue : src = true := (Bool.and_eq_true_iff.mp hsrc).1
      rw [show openSess rev3 id sess src = none from if_pos hsrc, htrue]
      exact rev3_decodeFrag (f := .source fid addr) h hid
    · rw [if_neg hsrc] at h
      rw [show openSess rev3 id sess src = some sess from if_neg hsrc]
      exact rev3_decodeFrag (f := .opening fid sess addr src) h hid

/-- The source mark an inline frame carries: rev3 has none. -/
def inlineSrc (w : Wire) (src : Bool) : Bool :=
  match w with
  | rev2 => src
  | rev3 => false

/-- An inline fragment carries its session and its address. -/
lemma decodeFrag_of_inline
    (h : encodeFragInline w sess addr src fragId idx total chunk limit = some frame) :
    ∃ off ≤ 512, off + chunk.length = frame.length ∧
      decodeFrag w frame = .ok ⟨none, some sess, some addr.clearFlow, inlineSrc w src, fragId, idx,
        total, off, chunk⟩ := by
  cases w with
  | rev2 => exact rev2_decodeFrag (f := .inline sess addr src) h
  | rev3 => exact rev3_decodeFrag (f := .inline sess addr) h rfl

/-- The chunk of a decoded fragment is the rest of the frame. -/
lemma chunk_of_decodeFrag {b : Bytes} {f : FragView} (h : decodeFrag w b = .ok f) :
    f.chunk = b.drop f.chunkOff := by
  cases w with
  | rev2 =>
    simp only [decodeFrag, Rev2.decodeFrag, bind_eq_ok] at h
    obtain ⟨d, ⟨⟨off, bound, inl, s⟩, -, ⟨i, off⟩, -, ⟨fr, off⟩, -, ix, -, tot, -, ⟨se, ad, off⟩, -,
      -, -, hd⟩, h⟩ := h
    cases hd
    cases h
    rfl
  | rev3 =>
    simp only [decodeFrag, Rev3.decodeFrag, bind_eq_ok] at h
    obtain ⟨d, ⟨b0, -, -, -, flags, -, ⟨i, s, off⟩, -, ⟨fr, off⟩, -, ix, -, tot, -, ⟨se, ad, off⟩,
      -, -, -, hd⟩, wid, -, h⟩ := h
    cases hd
    cases h
    rfl

lemma id_ne_zero_of_fidFor {fid : UInt16} (h : fidFor id = some fid) : id ≠ 0 := by
  rintro rfl
  simp [fidFor] at h

lemma id_ne_zero_of_steady
    (h : encodeFragSteady w id fragId idx total chunk limit = some frame) : id ≠ 0 := by
  cases w with
  | rev2 =>
    rintro rfl
    simp [encodeFragSteady, Rev2.encodeFragSteady, Rev2.validWireId] at h
  | rev3 =>
    simp only [encodeFragSteady, bind_eq_bind, bind_eq_some_iff] at h
    obtain ⟨fid, hfid, -⟩ := h
    exact id_ne_zero_of_fidFor hfid

lemma id_ne_zero_of_open
    (h : encodeFragOpen w id sess addr src fragId idx total chunk limit = some frame) : id ≠ 0 := by
  cases w with
  | rev2 =>
    rintro rfl
    simp [encodeFragOpen, Rev2.encodeFragOpen, Rev2.validWireId] at h
  | rev3 =>
    simp only [encodeFragOpen, bind_eq_bind, bind_eq_some_iff] at h
    obtain ⟨fid, hfid, -⟩ := h
    exact id_ne_zero_of_fidFor hfid

end

section

variable {w : Wire} {id sess : UInt32} {addr : TargetAddr} {src : Bool} {payload frame : Bytes}
  {limit : Nat}

lemma rev2_decodeData {f : Rev2.Form} (h : f.encodeData payload limit = some frame) :
    decodeData rev2 frame = .ok ⟨f.id, f.sess, f.addr.map TargetAddr.clearFlow, f.src,
      payload⟩ := by
  obtain ⟨hid, ha, -, rfl⟩ := encodeData_eq_some.mp h
  simp only [decodeData, decodeData_dataLayout hid ha, ok_bind]
  rfl

lemma rev3_decodeData {f : Rev3.Form} {wireId : Option UInt32}
    (h : f.encodeData payload limit = some frame)
    (hid : wireIdOfFid "r3 data fid out of range" f.fid = .ok wireId) :
    decodeData rev3 frame = .ok ⟨wireId, f.sess, f.addr.map TargetAddr.clearFlow, f.src,
      payload⟩ := by
  obtain ⟨hf, ha, -, rfl⟩ := encodeData_eq_some.mp h
  simp [decodeData, decodeData_dataLayout hf ha, ok_bind, Rev3.Form.dataRef, hid]

lemma decodeData_of_steady (h : encodeDataSteady w id payload limit = some frame) :
    decodeData w frame = .ok ⟨some id, none, none, false, payload⟩ := by
  cases w with
  | rev2 => exact rev2_decodeData (f := .steady id) h
  | rev3 =>
    simp only [encodeDataSteady, bind_eq_bind, bind_eq_some_iff] at h
    obtain ⟨fid, hfid, h⟩ := h
    exact rev3_decodeData (f := .steady fid) h (wireIdOfFid_fidFor hfid _)

/-- An opening payload carries its id, its address and, where the form has it, its session. -/
lemma decodeData_of_open (h : encodeDataOpen w id sess addr src payload limit = some frame) :
    decodeData w frame =
      .ok ⟨some id, openSess w id sess src, some addr.clearFlow, src, payload⟩ := by
  cases w with
  | rev2 => exact rev2_decodeData (f := .opening id sess addr src) h
  | rev3 =>
    simp only [encodeDataOpen, bind_eq_bind, bind_eq_some_iff] at h
    obtain ⟨fid, hfid, h⟩ := h
    have hid := wireIdOfFid_fidFor hfid "r3 data fid out of range"
    by_cases hsrc : (src && !wireIdServerOwned id) = true
    · rw [if_pos hsrc] at h
      have htrue : src = true := (Bool.and_eq_true_iff.mp hsrc).1
      rw [show openSess rev3 id sess src = none from if_pos hsrc, htrue]
      exact rev3_decodeData (f := .source fid addr) h hid
    · rw [if_neg hsrc] at h
      rw [show openSess rev3 id sess src = some sess from if_neg hsrc]
      exact rev3_decodeData (f := .opening fid sess addr src) h hid

lemma decodeData_of_inline (h : encodeDataInline w sess addr src payload limit = some frame) :
    decodeData w frame = .ok ⟨none, some sess, some addr.clearFlow, inlineSrc w src, payload⟩ := by
  cases w with
  | rev2 => exact rev2_decodeData (f := .inline sess addr src) h
  | rev3 => exact rev3_decodeData (f := .inline sess addr) h rfl

end

end Wire

end MyQuic2
