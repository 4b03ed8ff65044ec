import MyQuic2.Mqp.Rev2.Frame

/-!
# The forms of rev2 DATA and FRAG

A frame carries its id alone, a binding that opens the id, or a binding without
id. For each form the encoder answers with one layout of octets, of the announced
length, and the decoder recovers every field of it.
-/

namespace MyQuic2.Rev2

open TargetAddr

/-- The binding a DATA or FRAG frame carries. -/
inductive Form where
  /-- Only the id: the binding is installed already. -/
  | steady (id : UInt32)
  /-- Session and address for the id; a source address when `src` is set. -/
  | opening (id sess : UInt32) (addr : TargetAddr) (src : Bool)
  | inline (sess : UInt32) (addr : TargetAddr) (src : Bool)

namespace Form

/-- The id, if the form has one, names a flow. -/
def IdOk : Form → Prop
  | .steady id => validWireId id = true
  | .opening id _ _ _ => validWireId id = true
  | .inline _ _ _ => True

/-- The address, if the form has one, can be written. -/
def AddrOk : Form → Prop
  | .steady _ => True
  | .opening _ _ addr _ => addr.Encodable
  | .inline _ addr _ => addr.Encodable

/-- The length helper that belongs to the form, for DATA. -/
def dataLen (n : Nat) : Form → Nat
  | .steady id => dataSteadyLen id n
  | .opening id _ addr _ => dataOpenLen id addr.headerLen n
  | .inline _ addr _ => dataInlineLen addr.headerLen n

variable (fragId : UInt32) (idx total : UInt8) (chunk : Bytes) (limit : Nat)

/-- The length helper that belongs to the form, for FRAG. -/
def fragLen (n : Nat) : Form → Nat
  | .steady id => fragSteadyLen id n
  | .opening id _ addr _ => fragOpenLen id addr.headerLen n
  | .inline _ addr _ => fragInlineLen addr.headerLen n

/-- The fields in front of the chunk are short. -/
lemma fragLen_zero_le (form : Form) : form.fragLen 0 ≤ 512 := by
  cases form <;> simp only [fragLen, fragSteadyLen, fragOpenLen, fragInlineLen] <;>
    grind [varintLen_le, headerLen_le]

/-- The encoder that belongs to the form, for DATA. -/
def encodeData (payload : Bytes) (limit : Nat) : Form → Option Bytes
  | .steady id => encodeDataSteady id payload limit
  | .opening id sess addr src => encodeDataOpen id sess addr src payload limit
  | .inline sess addr src => encodeDataInline sess addr src payload limit

/-- The encoder that belongs to the form, for FRAG. -/
def encodeFrag : Form → Option Bytes
  | .steady id => encodeFragSteady id fragId idx total chunk limit
  | .opening id sess addr src => encodeFragOpen id sess addr src fragId idx total chunk limit
  | .inline sess addr src => encodeFragInline sess addr src fragId idx total chunk limit

def id : Form → Option UInt32
  | .steady id => some id
  | .opening id _ _ _ => some id
  | .inline _ _ _ => none

def sess : Form → Option UInt32
  | .steady _ => none
  | .opening _ sess _ _ => some sess
  | .inline sess _ _ => some sess

def addr : Form → Option TargetAddr
  | .steady _ => none
  | .opening _ _ addr _ => some addr
  | .inline _ addr _ => some addr

def src : Form → Bool
  | .steady _ => false
  | .opening _ _ _ src => src
  | .inline _ _ src => src

/-- What the decoder has to answer for a DATA frame of this form. -/
def dataRef (payload : Bytes) (form : Form) : DataRef :=
  ⟨form.id, form.sess, form.addr.map clearFlow, form.src, payload⟩

/-- What the decoder has to answer for a FRAG frame of this form. -/
def fragRef (form : Form) : FragRef :=
  ⟨form.id, form.sess, form.addr.map clearFlow, form.src, fragId, idx, total, form.fragLen 0, chunk⟩

/-- The octets of a DATA frame of this form. -/
def dataLayout (payload : Bytes) : Form → Bytes
  | .steady id => kindData :: (putVarint id ++ payload)
  | .opening id sess addr src => kindDataExt :: extFlags flagOpen src ::
      (putVarint id ++ (pushU32 sess ++ (addr.addrBytes ++ payload)))
  | .inline sess addr src => kindDataExt :: extFlags flagInline src ::
      (pushU32 sess ++ (addr.addrBytes ++ payload))

/-- The octets of a FRAG frame of this form. -/
def fragLayout : Form → Bytes
  | .steady id => kindFrag :: (putVarint id ++ (pushU32 fragId ++ (idx :: total :: chunk)))
  | .opening id sess addr src => kindFragExt :: extFlags flagOpen src ::
      (putVarint id ++ (pushU32 fragId ++ (idx :: total ::
        (pushU32 sess ++ (addr.addrBytes ++ chunk)))))
  | .inline sess addr src => kindFragExt :: extFlags flagInline src ::
      (pushU32 fragId ++ (idx :: total :: (pushU32 sess ++ (addr.addrBytes ++ chunk))))

end Form

section

variable {b t : Bytes} {off : Nat}

lemma getU32_of_rest {n : UInt32} (h : Rest b off (pushU32 n ++ t))
    (ho : off + 4 < usizeSize) : getU32 b off = .ok (n, off + 4) :=
  readU32_of_rest h ho _ _

lemma getWireId_of_rest {id : UInt32} (h : Rest b off (putVarint id ++ t))
    (hid : validWireId id = true) (zero : String) :
    getWireId zero b off = .ok (id, off + varintLen id) := by
  simp [getWireId, getVarint_of_rest h, ok_bind, hid, ensure_true]

end

/-- The flags an encoder sets pass the decoder's checks and are read back. -/
lemma checkFlags_extFlags (src : Bool) (bad both neither : String) :
    checkFlags (extFlags flagOpen src) bad both neither = .ok (false, src) ∧
      checkFlags (extFlags flagInline src) bad both neither = .ok (true, src) := by
  cases src <;> exact ⟨rfl, rfl⟩

variable {form : Form} {frame chunk : Bytes} {limit : Nat} {fragId : UInt32} {idx total : UInt8}

/-- The encoder answers exactly for a valid id, an encodable address and room, and then with
the layout of the form. -/
lemma encodeData_eq_some {payload : Bytes} :
    form.encodeData payload limit = some frame ↔
      form.IdOk ∧ form.AddrOk ∧ form.dataLen payload.length ≤ limit ∧
        frame = form.dataLayout payload := by
  rcases form with ⟨id⟩ | ⟨id, sess, a, src⟩ | ⟨sess, a, src⟩
  · exact (room_eq_some (validWireId id)).trans (by simp [Form.AddrOk]; rfl)
  · exact guarded_header_eq_some (validWireId id) (fun n => dataOpenLen id n payload.length)
      (fun a => _ :: _ :: (putVarint id ++ (pushU32 sess ++ (a ++ payload))))
  · exact (header_bind_eq_some (fun n => dataInlineLen n payload.length)
      (fun a => _ :: _ :: (pushU32 sess ++ (a ++ payload)))).trans (and_iff_right trivial).symm

lemma length_dataLayout (ha : form.AddrOk) (payload : Bytes) :
    (form.dataLayout payload).length = form.dataLen payload.length := by
  rcases form with ⟨id⟩ | ⟨id, sess, a, src⟩ | ⟨sess, a, src⟩ <;>
    simp [Form.dataLayout, Form.dataLen, dataSteadyLen, dataOpenLen, dataInlineLen,
      length_putVarint, pushU32, length_u32Bytes]
  case steady => omega
  all_goals
    rw [(header_of_encodable ha).2]
    omega

lemma kind_dataLayout (form : Form) (payload : Bytes) :
    kind (form.dataLayout payload) = some .data := by
  cases form <;> rfl

lemma decodeData_dataLayout (hid : form.IdOk) (ha : form.AddrOk) (payload : Bytes) :
    decodeData (form.dataLayout payload) = .ok (form.dataRef payload) := by
  generalize hb : form.dataLayout payload = b
  have r0 := Rest.of_eq hb
  have hext : ¬ kindDataExt = kindData := by decide
  have hflags := fun src => checkFlags_extFlags src "bad r2 data flags" "r2 data open+inline"
    "r2 data ext without open/inline"
  rcases form with ⟨id⟩ | ⟨id, sess, a, src⟩ | ⟨sess, a, src⟩
  · have r1 := r0.tail
    simp only [decodeData, readByte_of_rest r0, ok_bind, if_true, getWireId_of_rest r1 hid,
      (rest_putVarint r1).drop]
    rfl
  · have r2 := r0.tail.tail
    have r3 := rest_putVarint r2
    have hle := varintLen_le id
    have hsess := getU32_of_rest r3 (by rw [usizeSize]; omega)
    obtain ⟨haddr, rp⟩ := decode_of_rest ha (rest_u32Bytes r3)
    simp only [decodeData, readByte_of_rest r0, readByte_of_rest r0.tail, ok_bind, if_neg hext,
      if_true, hflags, Bool.false_eq_true, if_false, getWireId_of_rest r2 hid, hsess, haddr,
      rp.drop]
    rfl
  · have r2 := r0.tail.tail
    have hsess := getU32_of_rest r2 (by decide)
    obtain ⟨haddr, rp⟩ := decode_of_rest ha (rest_u32Bytes r2)
    simp only [decodeData, readByte_of_rest r0, readByte_of_rest r0.tail, ok_bind, if_neg hext,
      if_true, hflags, hsess, haddr, rp.drop]
    rfl

/-- The encoder answers exactly for a valid id, an encodable address, valid fragment fields
and room, and then with the layout of the form. -/
lemma encodeFrag_eq_some :
    form.encodeFrag fragId idx total chunk limit = some frame ↔
      form.IdOk ∧ form.AddrOk ∧ fragMetaOk idx total chunk = true ∧
        form.fragLen chunk.length ≤ limit ∧ frame = form.fragLayout fragId idx total chunk := by
  rcases form with ⟨id⟩ | ⟨id, sess, a, src⟩ | ⟨sess, a, src⟩ <;>
    simp only [Form.encodeFrag, encodeFragSteady, encodeFragOpen, encodeFragInline, ← Bool.not_and]
  · rw [room_eq_some, Bool.and_eq_true, and_assoc]
    simp [Form.AddrOk]
    rfl
  · refine (guarded_header_eq_some _ (fun n => fragOpenLen id n chunk.length)
      (fun a => _ :: _ :: (putVarint id ++ (pushU32 fragId ++ (idx :: total ::
        (pushU32 sess ++ (a ++ chunk))))))).trans ?_
    rw [Bool.and_eq_true, and_assoc, and_left_comm (b := a.Encodable)]
    rfl
  · refine (guarded_header_eq_some _ (fun n => fragInlineLen n chunk.length)
      (fun a => _ :: _ :: (pushU32 fragId ++ (idx :: total :: (pushU32 sess ++ (a ++ chunk)))))).trans
      ?_
    rw [and_left_comm]
    exact (and_iff_right trivial).symm

lemma length_fragLayout (ha : form.AddrOk) (fragId : UInt32) (idx total : UInt8) (chunk : Bytes) :
    (form.fragLayout fragId idx total chunk).length = form.fragLen chunk.length := by
  rcases form with ⟨id⟩ | ⟨id, sess, a, src⟩ | ⟨sess, a, src⟩ <;>
    simp [Form.fragLayout, Form.fragLen, fragSteadyLen, fragOpenLen, fragInlineLen,
      length_putVarint, pushU32, length_u32Bytes]
  case steady => omega
  all_goals
    rw [(header_of_encodable ha).2]
    omega

lemma kind_fragLayout (form : Form) (fragId : UInt32) (idx total : UInt8) (chunk : Bytes) :
    kind (form.fragLayout fragId idx total chunk) = some .frag := by
  cases form <;> rfl

/-- The fields between the id and the binding are read from any form alike. -/
lemma decodeFrag_of_parts {b t : Bytes} {id : Option UInt32} {bound inline src : Bool}
    {start off stop : Nat} {sess : Option UInt32} {addr : Option TargetAddr}
    (hkind : decodeFragKind b = .ok (start, bound, inline, src))
    (hid : decodeFragId b inline start = .ok (id, off)) (hoff : off ≤ 7)
    (hr : Rest b off (pushU32 fragId ++ (idx :: total :: t)))
    (hctx : decodeFragCtx b bound (off + 6) = .ok (sess, addr, stop)) (hchunk : b.drop stop = chunk)
    (hm : fragMetaOk idx total chunk = true) :
    decodeFrag b = .ok ⟨id, sess, addr, src, fragId, idx, total, stop, chunk⟩ := by
  have hword : off + 4 < usizeSize := by
    rw [usizeSize]
    omega
  have r4 := rest_u32Bytes hr
  simp [decodeFrag, hkind, ok_bind, hid, getU32_of_rest hr hword, readByte_of_rest r4,
    readByte_of_rest r4.tail, hctx, hchunk, hm, ensure_true]

lemma decodeFrag_fragLayout (hid : form.IdOk) (ha : form.AddrOk)
    (hm : fragMetaOk idx total chunk = true) :
    decodeFrag (form.fragLayout fragId idx total chunk) =
      .ok (form.fragRef fragId idx total chunk) := by
  generalize hb : form.fragLayout fragId idx total chunk = b
  have r0 := Rest.of_eq hb
  have hext : ¬ kindFragExt = kindFrag := by decide
  have hflags := fun src => checkFlags_extFlags src "bad r2 frag flags" "r2 frag open+inline"
    "r2 frag ext without open/inline"
  rcases form with ⟨id⟩ | ⟨id, sess, a, src⟩ | ⟨sess, a, src⟩
  · have r1 := r0.tail
    have rid := rest_putVarint r1
    have rchunk := (rest_u32Bytes rid).tail.tail
    have hle := varintLen_le id
    have hkind : decodeFragKind b = .ok (1, false, false, false) := by
      simp [decodeFragKind, readByte_of_rest r0, ok_bind]
    have hwire : decodeFragId b false 1 = .ok (some id, 1 + varintLen id) := by
      have hread := getWireId_of_rest r1 hid "r2 frag id 0"
      rw [Nat.zero_add] at hread
      simp [decodeFragId, hread, ok_bind]
    rw [Nat.zero_add] at rid rchunk
    exact decodeFrag_of_parts hkind hwire (by omega) rid rfl rchunk.drop hm
  · have r2 := r0.tail.tail
    have rid := rest_putVarint r2
    have rsess := (rest_u32Bytes rid).tail.tail
    have hle := varintLen_le id
    have hread := getWireId_of_rest r2 hid "r2 frag id 0"
    simp only [Nat.zero_add, Nat.reduceAdd] at rid rsess hread
    obtain ⟨haddr, rp⟩ := decode_of_rest ha (rest_u32Bytes rsess)
    have hkind : decodeFragKind b = .ok (2, true, false, src) := by
      simp [decodeFragKind, readByte_of_rest r0, readByte_of_rest r0.tail, ok_bind, if_neg hext,
        hflags]
    have hwire : decodeFragId b false 2 = .ok (some id, 2 + varintLen id) := by
      simp [decodeFragId, hread, ok_bind]
    have hsess := getU32_of_rest rsess (by rw [usizeSize]; omega)
    refine decodeFrag_of_parts hkind hwire (by omega) rid ?_ rp.drop hm
    simp only [decodeFragCtx, if_true, hsess, ok_bind, haddr]
    rfl
  · have r2 := r0.tail.tail
    have rsess := (rest_u32Bytes r2).tail.tail
    obtain ⟨haddr, rp⟩ := decode_of_rest ha (rest_u32Bytes rsess)
    have hkind : decodeFragKind b = .ok (2, true, true, src) := by
      simp [decodeFragKind, readByte_of_rest r0, readByte_of_rest r0.tail, ok_bind, if_neg hext,
        hflags]
    have hsess := getU32_of_rest rsess (by decide)
    refine decodeFrag_of_parts hkind rfl (by omega) r2 ?_ rp.drop hm
    simp only [decodeFragCtx, if_true, hsess, ok_bind, haddr]
    rfl

/-- What an encoded fragment is decoded to; its chunk is the rest of the frame. -/
lemma decodeFrag_of_encodeFrag (h : form.encodeFrag fragId idx total chunk limit = some frame) :
    decodeFrag frame = .ok (form.fragRef fragId idx total chunk) ∧
      form.fragLen 0 + chunk.length = frame.length := by
  obtain ⟨hid, ha, hm, -, rfl⟩ := encodeFrag_eq_some.mp h
  refine ⟨decodeFrag_fragLayout hid ha hm, ?_⟩
  rw [length_fragLayout ha]
  cases form <;> rfl

end MyQuic2.Rev2
