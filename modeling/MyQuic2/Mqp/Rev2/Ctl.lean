import MyQuic2.Mqp.Rev2.Frame

/-!
# Revision 2: control frames

Control messages of revision 2 are datagrams of their own. The encoder writes whatever
id it is given; the decoder refuses the id that names no flow.
-/

namespace MyQuic2.Rev2

def magic : Bytes := [0x4D, 0x33]

def ctlHello : UInt8 := 0x01
def ctlCaps : UInt8 := 0x02
def ctlFlowAck : UInt8 := 0x10
def ctlFlowReject : UInt8 := 0x11
def ctlFlowClose : UInt8 := 0x12
def ctlSessClose : UInt8 := 0x20

/-- The limits that are negotiated. -/
structure Caps where
  wireVer : UInt16
  flags : UInt16
  maxConnFlows : UInt16
  maxFlowsSess : UInt16
  maxTrainItems : UInt8
  maxFrameBytes : UInt16
  maxReassembly : UInt16
  deriving DecidableEq

/-- A control message. -/
inductive Ctl where
  | hello (wireVer flags : UInt16)
  | caps (c : Caps)
  | flowAck (id : UInt32) (status : UInt8)
  | flowReject (id : UInt32) (reason : UInt8)
  | flowClose (id : UInt32)
  | sessClose (sess : UInt32) (reason : UInt8)
  deriving DecidableEq

namespace Ctl

def len : Ctl → Nat
  | hello _ _ => 8
  | caps _ => 17
  | flowAck id _ | flowReject id _ => 3 + varintLen id
  | flowClose id => 2 + varintLen id
  | sessClose _ _ => 7

/-- The flow a message is about. -/
def id? : Ctl → Option UInt32
  | flowAck id _ | flowReject id _ | flowClose id => some id
  | _ => none

end Ctl

private def le16 (n : UInt16) : Bytes := leBytes 2 n.toNat

private def of16 (lo hi : UInt8) : UInt16 := UInt16.ofNat (ofLeBytes [lo, hi])

def encodeCtl : Ctl → Bytes
  | .hello wireVer flags => kindCtl :: ctlHello :: magic ++ le16 wireVer ++ le16 flags
  | .caps c =>
    kindCtl :: ctlCaps :: magic ++ le16 c.wireVer ++ le16 c.flags ++ le16 c.maxConnFlows ++
      le16 c.maxFlowsSess ++ [c.maxTrainItems] ++ le16 c.maxFrameBytes ++ le16 c.maxReassembly
  | .flowAck id status => kindCtl :: ctlFlowAck :: putVarint id ++ [status]
  | .flowReject id reason => kindCtl :: ctlFlowReject :: putVarint id ++ [reason]
  | .flowClose id => kindCtl :: ctlFlowClose :: putVarint id
  | .sessClose sess reason => kindCtl :: ctlSessClose :: pushU32 sess ++ [reason]

/-- An id and an octet behind it, which end the frame. -/
def ctlIdByte (b : Bytes) (zero short trailing : String) : Except MqpError (UInt32 × UInt8) := do
  let (id, off) ← getWireId zero b 2
  let x ← readByte (.malformed short) b off
  let _ ← ensure (off + 1 == b.length) (.malformed trailing)
  .ok (id, x)

def decodeHello : Bytes → Except MqpError Ctl
  | [_, _, m, n, v0, v1, f0, f1] =>
    if [m, n] ≠ magic then .error (.malformed "bad r2 hello")
    else .ok (.hello (of16 v0 v1) (of16 f0 f1))
  | _ => .error (.malformed "bad r2 hello")

def decodeCaps : Bytes → Except MqpError Ctl
  | [_, _, m, n, v0, v1, f0, f1, c0, c1, s0, s1, items, b0, b1, r0, r1] =>
    if [m, n] ≠ magic then .error (.malformed "bad r2 caps")
    else
      .ok (.caps ⟨of16 v0 v1, of16 f0 f1, of16 c0 c1, of16 s0 s1, items, of16 b0 b1, of16 r0 r1⟩)
  | _ => .error (.malformed "bad r2 caps")

def decodeSessClose : Bytes → Except MqpError Ctl
  | [_, _, s0, s1, s2, s3, reason] =>
    .ok (.sessClose (UInt32.ofNat (ofLeBytes [s0, s1, s2, s3])) reason)
  | _ => .error (.malformed "bad r2 sess close")

/-- Read a control message. -/
def decodeCtl (b : Bytes) : Except MqpError Ctl := do
  let _ ← ensure (b.head? == some kindCtl) (.malformed "bad r2 ctl kind")
  let opcode ← readByte (.malformed "short r2 ctl") b 1
  if opcode = ctlHello then decodeHello b
  else if opcode = ctlCaps then decodeCaps b
  else if opcode = ctlFlowAck then do
    let (id, status) ← ctlIdByte b "r2 ack id 0" "short r2 ack" "r2 ack trailing bytes"
    .ok (.flowAck id status)
  else if opcode = ctlFlowReject then do
    let (id, reason) ← ctlIdByte b "r2 reject id 0" "short r2 reject" "r2 reject trailing bytes"
    .ok (.flowReject id reason)
  else if opcode = ctlFlowClose then do
    let (id, off) ← getWireId "r2 close id 0" b 2
    let _ ← ensure (off == b.length) (.malformed "r2 close trailing bytes")
    .ok (.flowClose id)
  else if opcode = ctlSessClose then decodeSessClose b
  else .error (.malformed "bad r2 ctl opcode")

lemma length_encodeCtl (c : Ctl) : (encodeCtl c).length = c.len := by
  cases c <;> simp [encodeCtl, Ctl.len, magic, le16, length_putVarint, pushU32] <;> omega

lemma of16_le16 (n : UInt16) : of16 n.toUInt8 (UInt8.ofNat (n.toNat / 256)) = n := by
  have h := ofLeBytes_leBytes_of_lt (n := n.toNat) (w := 2) (by simpa using n.toNat_lt)
  simp only [leBytes, UInt8.ofNat_uInt16ToNat] at h
  rw [of16, h, UInt16.ofNat_toNat]

lemma getWireId_ctl {id : UInt32} (hid : validWireId id = true) (k op : UInt8)
    (t : Bytes) (zero : String) :
    getWireId zero (k :: op :: putVarint id ++ t) 2 = .ok (id, 2 + varintLen id) ∧
      Rest (k :: op :: putVarint id ++ t) (2 + varintLen id) t := by
  have hrest : Rest (k :: op :: putVarint id ++ t) 2 (putVarint id ++ t) := (Rest.zero _).tail.tail
  refine ⟨?_, rest_putVarint hrest⟩
  rw [getWireId, getVarint_of_rest hrest]
  simp [hid]

lemma ctlIdByte_ctl {id : UInt32} (hid : validWireId id = true) (k op x : UInt8)
    (zero short trailing : String) :
    ctlIdByte (k :: op :: putVarint id ++ [x]) zero short trailing = .ok (id, x) := by
  obtain ⟨hget, hrest⟩ := getWireId_ctl hid k op [x] zero
  rw [ctlIdByte, hget, ok_bind]
  dsimp only
  rw [readByte_of_rest hrest, ok_bind, ← hrest.length]
  simp

/-- A message about no flow, or about one that an id can name, is read back. -/
lemma decodeCtl_encodeCtl (c : Ctl) (hid : ∀ id, c.id? = some id → validWireId id = true) :
    decodeCtl (encodeCtl c) = .ok c := by
  cases c with
  | hello wireVer flags =>
    simp [encodeCtl, decodeCtl, readByte, decodeHello, magic, le16, leBytes, of16_le16]
  | caps c =>
    simp [encodeCtl, decodeCtl, readByte, decodeCaps, magic, le16, leBytes, of16_le16,
      show ctlCaps ≠ ctlHello by decide]
  | flowAck id status =>
    have hread := ctlIdByte_ctl (hid id rfl) kindCtl ctlFlowAck status
    simp [encodeCtl, decodeCtl, readByte, show ctlFlowAck ≠ ctlHello by decide,
      show ctlFlowAck ≠ ctlCaps by decide] at hread ⊢
    simp [hread]
  | flowReject id reason =>
    have hread := ctlIdByte_ctl (hid id rfl) kindCtl ctlFlowReject reason
    simp [encodeCtl, decodeCtl, readByte, show ctlFlowReject ≠ ctlHello by decide,
      show ctlFlowReject ≠ ctlCaps by decide, show ctlFlowReject ≠ ctlFlowAck by decide] at hread ⊢
    simp [hread]
  | flowClose id =>
    obtain ⟨hget, hrest⟩ := getWireId_ctl (hid id rfl) kindCtl ctlFlowClose [] "r2 close id 0"
    have hlen := hrest.length
    simp only [List.append_nil, List.length_nil, Nat.add_zero] at hget hlen
    simp [encodeCtl, decodeCtl, readByte, show ctlFlowClose ≠ ctlHello by decide,
      show ctlFlowClose ≠ ctlCaps by decide, show ctlFlowClose ≠ ctlFlowAck by decide,
      show ctlFlowClose ≠ ctlFlowReject by decide, hget, hlen]
  | sessClose sess reason =>
    have hsess := ofLeBytes_leBytes_of_lt (n := sess.toNat) (w := 4) (by simpa using sess.toNat_lt)
    simp [leBytes] at hsess
    simp [encodeCtl, decodeCtl, readByte, decodeSessClose, pushU32, u32Bytes, leBytes,
      show ctlSessClose ≠ ctlHello by decide, show ctlSessClose ≠ ctlCaps by decide,
      show ctlSessClose ≠ ctlFlowAck by decide, show ctlSessClose ≠ ctlFlowReject by decide,
      show ctlSessClose ≠ ctlFlowClose by decide, hsess]

/-- The decoder refuses each of the three messages about the flow 0. -/
lemma decodeCtl_id_zero {c : Ctl} (h : c.id? = some 0) :
    ∃ e, decodeCtl (encodeCtl c) = .error e := by
  cases c with
  | hello _ _ | caps _ | sessClose _ _ => cases h
  | flowAck id status => cases h; exact ⟨_, rfl⟩
  | flowReject id reason => cases h; exact ⟨_, rfl⟩
  | flowClose id => cases h; exact ⟨_, rfl⟩

/-- A control message has the announced length, and it is read back as it was written exactly
when the flow it is about, if any, is not 0. -/
theorem ctl_round_trip_iff (c : Ctl) :
    (decodeCtl (encodeCtl c) = .ok c ↔ c.id? ≠ some 0) ∧ (encodeCtl c).length = c.len := by
  refine ⟨⟨fun hread h => ?_, fun h => decodeCtl_encodeCtl c fun id hid => ?_⟩, length_encodeCtl c⟩
  · obtain ⟨e, he⟩ := decodeCtl_id_zero h
    cases hread.symm.trans he
  · have hne : id ≠ 0 := fun h0 => h (h0 ▸ hid)
    simpa [validWireId] using hne

/-- The encoder writes messages about the flow 0, which its decoder refuses. -/
theorem ctl_id_zero_refused :
    encodeCtl (.flowAck 0 0) = [0x0C, 0x10, 0, 0] ∧
      decodeCtl (encodeCtl (.flowAck 0 0)) = .error (.malformed "r2 ack id 0") ∧
      decodeCtl (encodeCtl (.flowReject 0 0)) = .error (.malformed "r2 reject id 0") ∧
      decodeCtl (encodeCtl (.flowClose 0)) = .error (.malformed "r2 close id 0") :=
  ⟨rfl, rfl, rfl, rfl⟩

end MyQuic2.Rev2
