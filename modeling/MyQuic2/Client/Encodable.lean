import MyQuic2.Client.Bindings
import MyQuic2.Udp.Packing

/-!
# What the client stages can be encoded

A staged payload waits in a form that was chosen when it was sent; the frame is made by
the drain. Every flow that a table of the client can hold has an id that the wire
carries: the client's own ids are granted for the wire, and those of the server come out
of a frame. The one form that the encoder still refuses is the binding form on a flow of
the server's own.
-/

namespace MyQuic2

open Option R2StageKind Uplink

namespace Wire

variable {w : Wire}

variable {id : UInt32}

lemma representable_of_wireIdOfFid {bad : String} {fid : Option UInt16}
    (h : wireIdOfFid bad fid = .ok (some id)) : rev3.Representable id := by
  unfold wireIdOfFid at h
  split at h
  · cases h
  rename_i fid
  split at h
  · cases h
  rename_i id' hid
  cases h
  exact isSome_iff_exists.mpr ⟨fid, fidFor_eq_some_iff.mpr hid⟩

lemma representable_of_getWireId {zero : String} {b : Bytes} {off off' : Nat}
    (h : Rev2.getWireId zero b off = .ok (id, off')) : rev2.Representable id := by
  obtain ⟨⟨id', off''⟩, -, h⟩ := bind_eq_ok.mp h
  obtain ⟨⟨⟩, hvalid, h⟩ := bind_eq_ok.mp h
  cases h
  exact bne_iff_ne.mp (ensure_eq_ok.mp hvalid)

/-- An id in a DATA frame is one that the wire carries. -/
lemma representable_of_decodeData {b : Bytes} {f : DataView} (h : w.decodeData b = .ok f)
    (hid : f.wireId = some id) : w.Representable id := by
  cases w with
  | rev2 =>
    obtain ⟨d, hd, h⟩ := bind_eq_ok.mp h
    cases h
    obtain ⟨first, -, hd⟩ := bind_eq_ok.mp hd
    split at hd
    · obtain ⟨⟨id', off⟩, hread, hd⟩ := bind_eq_ok.mp hd
      cases hd
      cases hid
      exact representable_of_getWireId hread
    split at hd
    · obtain ⟨flags, -, hd⟩ := bind_eq_ok.mp hd
      obtain ⟨⟨inline, src⟩, -, hd⟩ := bind_eq_ok.mp hd
      dsimp only at hd
      split at hd
      · obtain ⟨⟨sess, off⟩, -, hd⟩ := bind_eq_ok.mp hd
        obtain ⟨⟨addr, n⟩, -, hd⟩ := bind_eq_ok.mp hd
        cases hd
        cases hid
      obtain ⟨⟨id', off⟩, hread, hd⟩ := bind_eq_ok.mp hd
      obtain ⟨⟨sess, off⟩, -, hd⟩ := bind_eq_ok.mp hd
      obtain ⟨⟨addr, n⟩, -, hd⟩ := bind_eq_ok.mp hd
      cases hd
      cases hid
      exact representable_of_getWireId hread
    · cases hd
  | rev3 =>
    obtain ⟨d, -, h⟩ := bind_eq_ok.mp h
    obtain ⟨id', hid', h⟩ := bind_eq_ok.mp h
    cases h
    obtain rfl : id' = some id := hid
    exact representable_of_wireIdOfFid hid'

lemma representable_of_decodeFrag {b : Bytes} {f : FragView} (h : w.decodeFrag b = .ok f)
    (hid : f.wireId = some id) : w.Representable id := by
  cases w with
  | rev2 =>
    simp only [decodeFrag, Rev2.decodeFrag, bind_eq_ok] at h
    obtain ⟨d, ⟨⟨off, bound, inline, src⟩, -, ⟨id', off'⟩, hread, ⟨fragId, off''⟩, -, idx, -, total,
      -, ⟨sess, addr, stop⟩, -, -, -, hd⟩, h⟩ := h
    cases h
    cases hd
    obtain rfl : id' = some id := hid
    unfold Rev2.decodeFragId at hread
    split at hread
    · cases hread
    obtain ⟨⟨id', off⟩, hread, hlast⟩ := bind_eq_ok.mp hread
    cases hlast
    exact representable_of_getWireId hread
  | rev3 =>
    obtain ⟨d, -, h⟩ := bind_eq_ok.mp h
    obtain ⟨id', hid', h⟩ := bind_eq_ok.mp h
    cases h
    obtain rfl : id' = some id := hid
    exact representable_of_wireIdOfFid hid'

lemma representable_of_grant {ids : FlowIds} {out : Option UInt32 × FlowIds} (h : ids.Grant w out)
    (hid : out.1 = some id) : w.Representable id := by
  obtain ⟨hlt, hval, hfid⟩ := h.fresh id hid
  cases w with
  | rev2 =>
    rintro rfl
    have hpos : 0 < out.2.next.toNat := Nat.zero_lt_of_lt (UInt32.lt_iff_toNat_lt.mp hlt)
    rw [UInt32.toNat_zero] at hval
    omega
  | rev3 => exact hfid rfl

/-- Length of the DATA frame of a form. -/
def Form.dataLen (w : Wire) (n : Nat) (f : Form) : Nat :=
  match w with
  | rev2 => f.toRev2.dataLen n
  | rev3 => (f.toRev3.map fun g => g.dataLen n).getD 0

/-- A form that the revision has is encoded wherever its frame has room. -/
lemma Form.encodeData_of_legal {f : Form} {payload : Bytes} {limit : Nat} (hlegal : f.Legal w)
    (haddr : f.AddrOk) (hlen : f.dataLen w payload.length ≤ limit) :
    ∃ frame, f.encodeData w payload limit = some frame := by
  cases w with
  | rev2 =>
    obtain ⟨hid, ha⟩ := toRev2_ok f
    exact ⟨_, (encodeData_rev2 f payload limit).trans
      (Rev2.encodeData_eq_some.mpr ⟨hid.mpr hlegal, ha.mpr haddr, hlen, rfl⟩)⟩
  | rev3 =>
    obtain ⟨g, hg, hfid, ha⟩ := (toRev3_ok f).mp ⟨hlegal, haddr⟩
    rw [Form.dataLen, hg] at hlen
    refine ⟨g.dataLayout payload, ?_⟩
    rw [encodeData_rev3, hg, bind_some]
    exact Rev3.encodeData_eq_some.mpr ⟨hfid, ha, hlen, rfl⟩

end Wire

/-- The form of a staged payload, as the adapter has it. -/
def R2StageKind.form : R2StageKind → Wire.Form
  | steady id => .steady id
  | opening id sess addr src => .opening id sess addr src
  | inline sess addr src => .inline sess addr src

/-- The form that describes the payload itself: the address in full, and the id if there is one. -/
def R2StageKind.described (sess : UInt32) (addr : TargetAddr) : R2StageKind → Wire.Form
  | steady id => .opening id sess addr false
  | opening id _ _ _ => .opening id sess addr false
  | inline _ _ _ => .inline sess addr false

lemma encodeStandaloneItemFor_eq (w : Wire) (item : R2StageItem) (limit : Nat) :
    encodeStandaloneItemFor w item limit = item.kind.form.encodeData w item.payload limit := by
  unfold encodeStandaloneItemFor
  cases item.kind <;> rfl

/-- What can happen on the client's side of a connection. -/
inductive ClientEvent where
  /-- An application comes; its fragment ids start anywhere. -/
  | openAssoc (key : Nat) (sess nextId : UInt32)
  | closeAssoc (key : Nat)
  | send (key : Nat) (addr : TargetAddr) (payload : Bytes) (e : SendEnv)
  | emit (shape : FrameShape) (run : List Nat) (limit : Nat)
  | sync (key : Nat)
  | data (d : Bytes)
  | train (d : Bytes)
  /-- A fragment that completes a payload; what the earlier ones told is kept with them. -/
  | frag (d : Bytes) (sess : Option UInt32) (addr : Option TargetAddr) (src : Bool)
      (payload : Bytes)
  | flowAck (wireId : UInt32)
  | needContext (wireId : UInt32)
  | flowClose (wireId : UInt32)
  | sessClose (sess : UInt32)

namespace Uplink

section

variable (cached : String → UInt16 → Option SocketAddr)

variable (u : Uplink) (d : Bytes) (sess : Option UInt32) (addr : Option TargetAddr) (src : Bool)

/-- The connection of the flows has changed. -/
def withConn (conn : ClientConn) : Uplink :=
  u.withFlows (u.flows.setRegistry conn.registry)

def receiveData : Uplink :=
  match u.flows.wire.decodeData d with
  | .error _ => u
  | .ok f => u.withConn (u.flows.conn.dispatchData cached u.flows.wire f).2

/-- The items of a train are dispatched like frames that carry the id alone. -/
def receiveTrain : Uplink :=
  match u.flows.wire.decodeTrain d with
  | .error _ => u
  | .ok view => u.withConn (view.toList.foldl
      (fun conn item => (conn.dispatchData cached u.flows.wire
        ⟨some item.1, none, none, false, item.2⟩).2) u.flows.conn)

def receiveFrag (payload : Bytes) : Uplink :=
  match u.flows.wire.decodeFrag d with
  | .error _ => u
  | .ok f => u.withConn
      (u.flows.conn.dispatchFrag cached u.flows.wire ⟨f.wireId, sess, addr, src, payload⟩).2

/-- The client after a step. -/
def next : ClientEvent → Uplink
  | .openAssoc key sess nextId => u.openAssoc key sess nextId
  | .closeAssoc key => u.closeAssoc key
  | .send key addr payload e =>
    match u.assocs.lookup key with
    | none => u
    | some a => u.sendUplink key a addr payload e
  | .emit shape run limit => u.emit shape run limit
  | .sync key => u.sync key
  | .data d => u.receiveData cached d
  | .train d => u.receiveTrain cached d
  | .frag d sess addr src payload => u.receiveFrag cached d sess addr src payload
  | .flowAck wireId => u.flowAck wireId
  | .needContext wireId => u.needContext wireId
  | .flowClose wireId => u.flowClose wireId
  | .sessClose sess => u.sessClose sess

end

/-- A staged item is short, and its id, if it has one, is one that the wire carries. -/
def Carried (w : Wire) (item : R2StageItem) : Prop :=
  item.payload.length ≤ batchSmallMax ∧ ∀ id, item.kind.wireId? = some id → w.Representable id

/-- Every flow has an id that the wire carries, and so has every item that was staged. -/
structure Carries (w : Wire) (u : Uplink) : Prop where
  wire : u.flows.wire = w
  holds : u.Holds fun k => w.Representable k.1
  staged : ∀ item ∈ u.staged, Carried w item

variable {w : Wire} {u : Uplink} (cached : String → UInt16 → Option SocketAddr)

lemma Carries.of_holds {u' : Uplink} (h : u.Carries w) (hwire : u'.flows.wire = u.flows.wire)
    (hholds : u'.Holds fun k => w.Representable k.1) (hstaged : u'.staged = u.staged) :
    u'.Carries w :=
  ⟨hwire.trans h.wire, hholds, hstaged ▸ h.staged⟩

lemma new_carries (cap : Nat) : (new w cap).Carries w :=
  ⟨rfl, new_holds w cap, fun item hitem => by cases hitem⟩

variable {a : Assoc} {key : Nat} {addr : TargetAddr} {e : SendEnv} {item : R2StageItem}
  {payload : Bytes}

/-- A payload is addressed to a flow whose id the wire carries. -/
lemma Carries.about (h : u.Carries w) (ha : u.assocs.lookup key = some a) (addr : TargetAddr)
    (e : SendEnv) :
    (address u.flows a addr e).1.About (fun k => w.Representable k.1) a.sess addr := by
  obtain ⟨got, hspec⟩ := address_spec u.flows a addr e
  obtain ⟨-, -, habout⟩ := hspec.holds _ h.holds.conn (h.holds.assocs key a ha)
    fun id hid => h.wire ▸ Wire.representable_of_grant hspec.grant hid
  exact habout

section

variable (h : u.Carries w) (d : Bytes)
include h

lemma Carries.carried (ha : u.assocs.lookup key = some a)
    (hstage : u.leaving a addr payload e = .stage item) : Carried w item := by
  have habout := h.about ha addr e
  obtain ⟨rfl, hlen⟩ := stage_of_leaving hstage
  refine ⟨hlen, fun id hid => ?_⟩
  generalize (address u.flows a addr e).1 = kind at habout hid
  cases kind with
  | steady id' =>
    cases hid
    exact habout
  | opening id' sess addr' src =>
    cases hid
    exact habout.2.2.2
  | inline sess addr' src => cases hid

lemma Carries.sendUplink (addr : TargetAddr) (payload : Bytes) (e : SendEnv)
    (ha : u.assocs.lookup key = some a) : (u.sendUplink key a addr payload e).Carries w := by
  obtain ⟨got, hspec⟩ := address_spec u.flows a addr e
  have hholds := h.holds.sendUplink ha hspec
    (fun id hid => h.wire ▸ Wire.representable_of_grant hspec.grant hid) payload
  have hwire := hspec.wire.trans h.wire
  revert hholds
  unfold Uplink.sendUplink
  split
  · exact fun _ => h
  dsimp only
  split
  · exact fun hholds => ⟨hwire, hholds, h.staged⟩
  · rename_i item hstage
    refine fun hholds => ⟨hwire, hholds, fun x hx => ?_⟩
    rcases List.mem_append.mp hx with hx | hx
    · exact h.staged x hx
    · rw [List.mem_singleton.mp hx]
      exact h.carried ha hstage
  · exact fun hholds => ⟨hwire, hholds, h.staged⟩
  · exact fun hholds => ⟨hwire, hholds, h.staged⟩

lemma Carries.withConn {conn : ClientConn} (hconn : conn.Holds fun k => w.Representable k.1) :
    (u.withConn conn).Carries w :=
  h.of_holds rfl (holds_withFlows hconn h.holds.assocs) rfl

lemma Carries.receiveData : (u.receiveData cached d).Carries w := by
  unfold Uplink.receiveData
  split
  · exact h
  rename_i f hdec
  rw [h.wire] at hdec
  exact h.withConn (h.holds.conn.dispatchData cached _ f fun id _ _ _ hid _ _ _ _ =>
    Wire.representable_of_decodeData hdec hid)

lemma Carries.receiveTrain : (u.receiveTrain cached d).Carries w := by
  unfold Uplink.receiveTrain
  split
  · exact h
  rename_i view hdec
  refine h.withConn ?_
  have hfold : ∀ (items : List (UInt32 × Bytes)) (conn : ClientConn),
      conn.Holds (fun k => w.Representable k.1) →
      (items.foldl (fun conn item => (conn.dispatchData cached u.flows.wire
        ⟨some item.1, none, none, false, item.2⟩).2) conn).Holds
          fun k => w.Representable k.1 := by
    intro items
    induction items with
    | nil => exact fun conn hconn => hconn
    | cons item items ih =>
      -- An item without an address announces no flow.
      exact fun conn hconn => ih _ (hconn.dispatchData cached _ _ (by simp))
  exact hfold view.toList u.flows.conn h.holds.conn

lemma Carries.receiveFrag (sess : Option UInt32) (addr : Option TargetAddr) (src : Bool)
    (payload : Bytes) : (u.receiveFrag cached d sess addr src payload).Carries w := by
  unfold Uplink.receiveFrag
  split
  · exact h
  rename_i f hdec
  rw [h.wire] at hdec
  rw [ClientConn.dispatchFrag_eq]
  exact h.withConn (h.holds.conn.dispatchData cached _ _ fun id _ _ _ hid _ _ _ _ =>
    Wire.representable_of_decodeFrag hdec hid)

end

lemma wire_sync : (u.sync key).flows.wire = u.flows.wire := by
  have hfold : ∀ (bs : List FlowBinding) (f : ClientFlows),
      (bs.foldl (fun f b => f.remove b.wireId) f).wire = f.wire := by
    intro bs
    induction bs with
    | nil => exact fun _ => rfl
    | cons b bs ih => exact fun f => ih (f.remove b.wireId)
  unfold sync
  split
  · rfl
  · exact hfold _ _

lemma staged_sync : (u.sync key).staged = u.staged := by
  unfold sync
  split <;> rfl

lemma Carries.emit (h : u.Carries w) (shape : FrameShape) (run : List Nat) (limit : Nat) :
    (u.emit shape run limit).Carries w := by
  have hholds := h.holds.emit shape run limit
  revert hholds
  unfold Uplink.emit
  dsimp only
  split
  · exact fun _ => h
  · exact fun hholds => h.of_holds rfl hholds rfl

lemma Carries.openAssoc (h : u.Carries w) (key : Nat) (sess nextId : UInt32) :
    (u.openAssoc key sess nextId).Carries w := by
  have hholds := h.holds.openAssoc key sess nextId
  revert hholds
  unfold Uplink.openAssoc
  split
  · exact fun _ => h
  · exact fun hholds => h.of_holds rfl hholds rfl

lemma Carries.closeAssoc (h : u.Carries w) (key : Nat) : (u.closeAssoc key).Carries w := by
  have hholds := h.holds.closeAssoc key
  revert hholds
  unfold Uplink.closeAssoc
  split
  · exact fun _ => h
  · exact fun hholds => h.of_holds rfl hholds rfl

lemma Carries.next (h : u.Carries w) (ev : ClientEvent) : (u.next cached ev).Carries w := by
  cases ev with
  | openAssoc key sess nextId => exact h.openAssoc key sess nextId
  | closeAssoc key => exact h.closeAssoc key
  | send key addr payload e =>
    unfold Uplink.next
    dsimp only
    split
    · exact h
    · next a ha => exact h.sendUplink addr payload e ha
  | emit shape run limit => exact h.emit shape run limit
  | sync key => exact h.of_holds (wire_sync) (h.holds.sync key) (staged_sync)
  | data d => exact h.receiveData cached d
  | train d => exact h.receiveTrain cached d
  | frag d sess addr src payload => exact h.receiveFrag cached d sess addr src payload
  | flowAck wireId => exact h.of_holds rfl (h.holds.flowAck wireId) rfl
  | needContext wireId => exact h.of_holds rfl (h.holds.needContext wireId) rfl
  | flowClose wireId => exact h.of_holds rfl (h.holds.flowClose wireId) rfl
  | sessClose sess => exact h.of_holds rfl (h.holds.sessClose sess) rfl

lemma carries_after (w : Wire) (cap : Nat) (es : List ClientEvent) :
    (after (next cached) (new w cap) es).Carries w :=
  after_of_kept (fun _ ev h => h.next cached ev) (new_carries cap) es

/-- The payload would go out in the binding form on a flow of the server's own: during the
handshake, or while the flow's window is open again. -/
def announcesServerFlow (u : Uplink) (a : Assoc) (addr : TargetAddr) (e : SendEnv) : Bool :=
  u.flows.wire = .rev3 && (u.flows.ensureBinding e.rejected a addr).1.any fun b =>
    Wire.wireIdServerOwned b.wireId && (!e.handshakeDone || b.state = .opening)

lemma usesBindingContext_rev3 (handshakeDone : Bool) (b : FlowBinding) :
    (usesBindingContext .rev3 handshakeDone b).1 =
      (!handshakeDone || decide (b.state = .opening)) := by
  unfold usesBindingContext FlowBinding.takeContextSlot
  cases handshakeDone with
  | false => rfl
  | true =>
    by_cases hopening : b.state = .opening
    · by_cases hlast : b.contextLeft ≤ 1 <;> simp [hopening, hlast]
    · simp [hopening]

/-- A payload is in the binding form while the context of its flow is due. -/
lemma address_kind (f : ClientFlows) (a : Assoc) (addr : TargetAddr) (e : SendEnv) :
    ∃ sess, (address f a addr e).1 = match (f.ensureBinding e.rejected a addr).1 with
      | none => .inline sess addr false
      | some b => if (usesBindingContext f.wire e.handshakeDone b).1
        then .opening b.wireId sess addr false else .steady b.wireId := by
  obtain ⟨got, hbinds⟩ := f.ensureBinding_binds e.rejected a addr
  have hwire := hbinds.wire
  unfold address
  generalize f.ensureBinding e.rejected a addr = out at hwire ⊢
  obtain ⟨_ | b, f', a'⟩ := out
  · exact ⟨a'.sess, rfl⟩
  · exact ⟨a'.sess, by rw [← hwire]⟩

section

variable (h : u.Carries w) (ha : u.assocs.lookup key = some a)
  (hstage : u.leaving a addr payload e = .stage item)
include h ha hstage

/-- The revision has the form of a staged payload, unless it announces a flow of the server's. -/
lemma Carries.legal_iff : item.kind.form.Legal w ↔ u.announcesServerFlow a addr e = false := by
  obtain ⟨-, hids⟩ := h.carried ha hstage
  obtain ⟨rfl, -⟩ := stage_of_leaving hstage
  obtain ⟨sess, hkind⟩ := address_kind u.flows a addr e
  rw [announcesServerFlow, hkind, h.wire]
  rw [hkind] at hids
  generalize (u.flows.ensureBinding e.rejected a addr).1 = found at hids ⊢
  cases found with
  | none => simp [form, Wire.Form.Legal]
  | some b =>
    have hid : w.Representable b.wireId := hids b.wireId (by dsimp only; split <;> rfl)
    dsimp only
    cases w with
    | rev2 => split <;> simpa [form, Wire.Form.Legal] using hid
    | rev3 =>
      rw [usesBindingContext_rev3, any_some]
      cases !e.handshakeDone || decide (b.state = .opening) <;> simp [form, Wire.Form.Legal, hid]

lemma Carries.refused (hannounces : u.announcesServerFlow a addr e = true) (limit : Nat) :
    encodeStandaloneItemFor w item limit = none := by
  rw [encodeStandaloneItemFor_eq, eq_none_iff_forall_ne_some]
  intro frame hframe
  obtain ⟨hlegal, -⟩ := (Wire.Request.exists_encode_iff w (.data item.kind.form item.payload)).mp
    ⟨limit, frame, hframe⟩
  exact absurd (((h.legal_iff ha hstage).mp hlegal).symm.trans hannounces) (by decide)

lemma Carries.form_eq :
    (∃ id, item.kind = .steady id) ∨ item.kind.form = item.kind.described a.sess addr := by
  have habout := h.about ha addr e
  obtain ⟨rfl, -⟩ := stage_of_leaving hstage
  generalize (address u.flows a addr e).1 = kind at habout
  cases kind with
  | steady id => exact .inl ⟨id, rfl⟩
  | opening id sess addr' src =>
    obtain ⟨rfl, rfl, rfl, -⟩ := habout
    exact .inr rfl
  | inline sess addr' src =>
    obtain ⟨rfl, rfl, rfl⟩ := habout
    exact .inr rfl

lemma Carries.dataLen_le (n : Nat) :
    item.kind.form.dataLen w n ≤ (item.kind.described a.sess addr).dataLen w n := by
  rcases h.form_eq ha hstage with ⟨id, hkind⟩ | hsame
  · rw [hkind]
    cases w with
    | rev2 =>
      dsimp only [form, described, Wire.Form.dataLen, Wire.Form.toRev2,
        Rev2.Form.dataLen, Rev2.dataSteadyLen, Rev2.dataOpenLen]
      omega
    | rev3 =>
      obtain ⟨fid, hfid⟩ := isSome_iff_exists.mp ((h.carried ha hstage).2 id (by rw [hkind]; rfl))
      simp only [form, described, Wire.Form.dataLen, Wire.Form.toRev3,
        hfid, map_some, getD_some, Bool.false_and, Bool.false_eq_true, if_false,
        Rev3.Form.dataLen, Rev3.dataSteadyLen, Rev3.dataOpenLen]
      omega
  · rw [hsame]

lemma Carries.encodes (haddr : addr.Encodable) (hplain : u.announcesServerFlow a addr e = false)
    {limit : Nat} (hfits : (item.kind.described a.sess addr).dataLen w payload.length ≤ limit) :
    ∃ frame, encodeStandaloneItemFor w item limit = some frame := by
  have hpayload : item.payload = payload := by
    obtain ⟨rfl, -⟩ := stage_of_leaving hstage
    rfl
  rw [encodeStandaloneItemFor_eq, hpayload]
  refine Wire.Form.encodeData_of_legal ((h.legal_iff ha hstage).mpr hplain) ?_
    ((h.dataLen_le ha hstage payload.length).trans hfits)
  rcases h.form_eq ha hstage with ⟨id, hkind⟩ | hsame
  · rw [hkind]
    exact nofun
  rw [hsame]
  intro addr' haddr'
  cases hkind : item.kind with
  | steady id | opening id sess addr'' src | inline sess addr'' src =>
    rw [hkind] at haddr'
    cases haddr'
    exact haddr

end

lemma packedSteadyLen_eq_dataLen {id : UInt32} (hkind : item.kind = .steady id)
    (hid : w.Representable id) :
    packedSteadyLen w [] item id [] true = item.kind.form.dataLen w item.payload.length := by
  rw [hkind]
  cases w with
  | rev2 => rfl
  | rev3 =>
    obtain ⟨fid, hfid⟩ := isSome_iff_exists.mp hid
    simp only [form, Wire.Form.dataLen, Wire.Form.toRev3, hfid, map_some, getD_some]
    rfl

/-- A payload that was staged is encoded by every drain under whose limit its self-describing form
fits: alone, and in every frame that the drain claims it in. Only the binding form on a flow of the
server's own is refused, under every limit. -/
theorem staged_item_encoded (w : Wire) (cap : Nat) (es es' : List ClientEvent) (key : Nat)
    (a : Assoc) (addr : TargetAddr) (payload : Bytes) (e : SendEnv) (item : R2StageItem)
    (limit maxItems maxBytes : Nat) (ops : List StagerOp) (maxFrames maxBatch : Nat)
    (ha : (after (next cached) (.new w cap) es).assocs.lookup key = some a)
    (haddr : addr.Encodable)
    (hstage : (after (next cached) (.new w cap) es).leaving a addr payload e = .stage item)
    (hfits : (item.kind.described a.sess addr).dataLen w payload.length ≤ limit)
    (hqueue : ∀ x ∈ (after R2Stager.next (.withCapacityWire maxItems maxBytes w) ops).queued,
      x ∈ (after (next cached) (.new w cap) (es ++ .send key addr payload e :: es')).staged) :
    ((after (next cached) (.new w cap) es).announcesServerFlow a addr e = false →
      (∃ frame, encodeStandaloneItemFor w item limit = some frame) ∧
        let claim := (after R2Stager.next (.withCapacityWire maxItems maxBytes w) ops).claimBatch
          limit maxFrames maxBatch (.empty w)
        item ∉ claim.booked ∧ ∀ f ∈ claim.q.frames, item ∈ claim.q.run f →
          ∃ body, claim.q.encodeFrame f limit = some body) ∧
      ((after (next cached) (.new w cap) es).announcesServerFlow a addr e = true →
        ∀ limit, encodeStandaloneItemFor w item limit = none) := by
  have h := carries_after cached w cap es
  refine ⟨fun hplain => ?_, h.refused ha hstage⟩
  have halone := h.encodes ha hstage haddr hplain hfits
  have hcarried : ∀ x ∈ (after R2Stager.next (.withCapacityWire maxItems maxBytes w) ops).queued,
      Carried w x := fun x hx => (carries_after cached w cap _).staged x (hqueue x hx)
  have hdrain := R2Stager.drainable_after maxItems maxBytes w ops
  have hgathered := (R2Stager.trained_after maxItems maxBytes w ops).claimBatch limit maxFrames
    maxBatch
  generalize after R2Stager.next (.withCapacityWire maxItems maxBytes w) ops = st at *
  refine ⟨halone, fun hlost => ?_, fun f hf hitem => ?_⟩
  · -- An item that was given up has no room even with its id alone.
    obtain ⟨id, hkind, hlimit⟩ := hgathered.lost item hlost
    have hcarry := h.carried ha hstage
    have hpayload : item.payload = payload := by
      obtain ⟨rfl, -⟩ := stage_of_leaving hstage
      rfl
    rw [packedSteadyLen_eq_dataLen hkind (hcarry.2 id (by rw [hkind]; rfl)), hpayload] at hlimit
    exact absurd ((h.dataLen_le ha hstage payload.length).trans hfits) (Nat.not_le.mpr hlimit)
  have hrun : ∀ x ∈ (st.claimBatch limit maxFrames maxBatch (.empty w)).q.run f, Carried w x :=
    fun x hx => hcarried x (R2Stager.mem_queued_of_claimed hdrain.exact.keyed
      (List.mem_of_mem_drop (List.mem_of_mem_take hx)))
  rcases hgathered.framed f hf with ⟨hshape, x, hx⟩ | ⟨hshape, hne, flows, hpacked⟩
  · rw [hx, List.mem_singleton] at hitem
    subst hitem
    rw [PackedFrames.encodeFrame, hshape, hx, hgathered.wire]
    exact halone
  rw [← hgathered.wire] at hpacked hrun
  obtain ⟨body, hbody, -⟩ := hpacked.encodeFrame hne hshape
    (fun x hx => Wire.carries_of_le _ ((hrun x hx).1.trans (by decide)))
    fun x hx id hkind => (hrun x hx).2 id (by rw [hkind]; rfl)
  exact ⟨body, hbody⟩

def reflector : TargetAddr := .ip (.v4 (.new 9 9 9 9) 1000)

/-- Surroundings that grant everything. -/
def plainSurroundings (handshakeDone : Bool) : SendEnv :=
  ⟨false, handshakeDone, true, 1200, .sent, 65536, fun _ => .sent⟩

/-- The server announces a flow for a source that the application has not talked to. -/
def reflected : List ClientEvent :=
  [.openAssoc 0 1 0, .data ((Wire.rev3.encodeDataOpen 3 1 reflector true [7] 1200).getD [])]

/-- The application has answered once on that flow, and the server asks for its context. -/
def reasked : List ClientEvent :=
  reflected ++ [.send 0 reflector [8] (plainSurroundings true), .needContext 3]

section

variable (es : List ClientEvent) (handshakeDone : Bool)

/-- A client of rev3 after a run, with its association. -/
def clientOf : Uplink × Assoc :=
  let u := after (next fun _ _ => none) (.new .rev3 4096) es
  (u, (u.assocs.lookup 0).getD (.new .rev3 0 0))

def answerOf : Option R2StageItem :=
  match (clientOf es).1.leaving (clientOf es).2 reflector [8] (plainSurroundings handshakeDone) with
  | .stage item => some item
  | _ => none

/-- The items that a drain gives up, with one item in the queue. -/
def givenUp (item : R2StageItem) : List R2StageItem :=
  let st := after R2Stager.next (.withCapacityWire 1024 65536 .rev3) [.push item]
  ((st.claimBatch 1200 64 1024 (.empty .rev3)).q.encodeClaimed 1200).2

lemma lookup_clientOf (h : ((clientOf es).1.assocs.lookup 0).isSome = true) :
    (clientOf es).1.assocs.lookup 0 = some (clientOf es).2 := by
  obtain ⟨a, ha⟩ := isSome_iff_exists.mp h
  have hget : (clientOf es).2 = ((clientOf es).1.assocs.lookup 0).getD (.new .rev3 0 0) := rfl
  rw [hget, ha, getD_some]

lemma leaving_of_answerOf (h : answerOf es handshakeDone = some item) :
    (clientOf es).1.leaving (clientOf es).2 reflector [8] (plainSurroundings handshakeDone) =
      .stage item := by
  unfold answerOf at h
  split at h
  · rename_i hstage
    cases h
    exact hstage
  · cases h

end

/-- An answer on the server's flow, with its window closed, is encoded. -/
theorem staged_item_encoded_reflected :
    ∃ frame, encodeStandaloneItemFor .rev3 ⟨1, .steady 3, [8], 0⟩ 1200 = some frame :=
  ((staged_item_encoded (fun _ _ => none) .rev3 4096 reflected [] 0 (clientOf reflected).2 reflector
    [8] (plainSurroundings true) ⟨1, .steady 3, [8], 0⟩ 1200 1024 65536
    [.push ⟨1, .steady 3, [8], 0⟩] 64 1024 (lookup_clientOf reflected (by decide +kernel))
    (by decide) (leaving_of_answerOf reflected true (by decide +kernel)) (by decide +kernel)
    (by decide +kernel)).1 (by decide +kernel)).1

/-- The binding form on the server's flow is staged and refused by every encoder, during the
handshake and after the server has asked for the context of the flow. -/
theorem answer_on_server_flow_refused :
    reflector.Encodable ∧
      answerOf reflected false = some ⟨1, .opening 3 1 reflector false, [8], 0⟩ ∧
      answerOf reasked true = some ⟨1, .opening 3 1 reflector false, [8], 1⟩ ∧
      ((R2StageKind.opening 3 1 reflector false).described 1 reflector).dataLen .rev3 1 ≤ 1200 ∧
      givenUp ⟨1, .opening 3 1 reflector false, [8], 0⟩ =
        [⟨1, .opening 3 1 reflector false, [8], 0⟩] ∧
      givenUp ⟨1, .opening 3 1 reflector false, [8], 1⟩ =
        [⟨1, .opening 3 1 reflector false, [8], 1⟩] := by
  decide +kernel

end Uplink

end MyQuic2
