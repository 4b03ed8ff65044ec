import MyQuic2.Mqp.Rev3.Frame

/-!
# Rev3 DATA and FRAG round trip

The nine encoders are gathered by the binding a frame carries: none beyond its
id, a binding that opens the id, a new source for the id, or a binding without
id. For each of them the encoder answers exactly under the stated conditions,
with the announced length, and the decoder recovers every field.
-/

namespace MyQuic2.Rev3

open TargetAddr

section

variable {b t : Bytes} {off : Nat}

lemma getU16_of_rest {n : UInt16} (h : Rest b off (putU16 n ++ t))
    (ho : off + 2 < usizeSize) : getU16 b off = .ok (n, off + 2) := by
  rw [getU16, readWord_leBytes h (by simpa using n.toNat_lt) ho]
  simp [Except.map, UInt16.ofNat_toNat]

lemma getU32_of_rest {n : UInt32} (h : Rest b off (putU32 n ++ t))
    (ho : off + 4 < usizeSize) : getU32 b off = .ok (n, off + 4) :=
  readU32_of_rest h ho _ _

lemma rest_putU16 {n : UInt16} (h : Rest b off (putU16 n ++ t)) : Rest b (off + 2) t := by
  simpa [putU16, length_leBytes] using h.append

lemma rest_putU32 {n : UInt32} (h : Rest b off (putU32 n ++ t)) : Rest b (off + 4) t :=
  rest_u32Bytes h

/-- A successful read of two octets says what they were. -/
lemma rest_of_getU16 {n : UInt16} {stop : Nat} (h : getU16 b off = .ok (n, stop)) :
    stop = off + 2 ∧ Rest b off (putU16 n ++ b.drop stop) := by
  rw [getU16] at h
  cases hw : readWord (MqpError.malformed "r3 u16 offset overflow")
      (.malformed "truncated r3 u16") 2 b off with
  | error e => simp [hw, Except.map] at h
  | ok r =>
    obtain ⟨m, e⟩ := r
    simp only [hw, Except.map, Except.ok.injEq, Prod.mk.injEq] at h
    obtain ⟨hn, rfl⟩ := h
    obtain ⟨s, hs, rfl, rfl, -, hrest⟩ := rest_of_readWord hw
    have hlt := ofLeBytes_lt s
    rw [hs] at hlt
    have hput : putU16 n = s := by
      rw [putU16, ← hn, UInt16.toNat_ofNat', Nat.mod_eq_of_lt (by omega), ← hs, leBytes_ofLeBytes]
    exact ⟨rfl, by rw [hput]; exact hrest⟩

end

/-- The class bits and the form bits of an extended first octet do not interfere. -/
lemma extended_octet (flags : UInt8)
    (hf : flags ∈ [formOpen, formSrc, formOpenSrc, formInline]) (bad : String) :
    (classDataExt ||| flags) &&& classMask = classDataExt ∧
      extFlags (classDataExt ||| flags) bad = .ok flags ∧
      (classFrag ||| flags) &&& classMask = classFrag ∧
      extFlags (classFrag ||| flags) bad = .ok flags := by
  simp only [List.mem_cons, List.not_mem_nil, or_false] at hf
  rcases hf with rfl | rfl | rfl | rfl <;> exact ⟨rfl, rfl, rfl, rfl⟩

/-- Fourteen bits survive the split over the first two octets. -/
lemma packed_fid (fid : UInt16) (h : validFid fid = true) :
    ((fid >>> 8).toUInt8 &&& 0x3F) &&& classMask = classData ∧
      ((((fid >>> 8).toUInt8 &&& 0x3F) &&& 0x3F).toUInt16 <<< 8) ||| fid.toUInt8.toUInt16 =
        fid := by
  have hle : fid.toNat ≤ 0x3FFF := by
    have hb : fid ≤ fidMax := by simpa [validFid] using h
    exact UInt16.le_iff_toNat_le.mp hb
  constructor
  · rw [UInt8.and_assoc]
    have hz : (0x3F : UInt8) &&& classMask = 0 := rfl
    rw [hz, UInt8.and_zero]
    rfl
  rw [UInt8.and_assoc]
  have hz : (0x3F : UInt8) &&& 0x3F = 0x3F := rfl
  rw [hz]
  apply UInt16.toNat_inj.mp
  have hhigh : ((fid >>> 8).toUInt8 &&& 0x3F).toNat = fid.toNat / 256 := by
    rw [UInt8.toNat_and, UInt16.toNat_toUInt8, UInt16.toNat_shiftRight]
    have hm := Nat.and_two_pow_sub_one_eq_mod (fid.toNat >>> 8 % 2 ^ 8) 6
    simp only [Nat.shiftRight_eq_div_pow] at hm ⊢
    have h8 : (8 : UInt16).toNat % 16 = 8 := rfl
    have h63 : (0x3F : UInt8).toNat = 2 ^ 6 - 1 := rfl
    rw [h8, h63, hm]
    omega
  have hlow : fid.toUInt8.toUInt16.toNat = fid.toNat % 256 := by
    rw [UInt8.toNat_toUInt16, UInt16.toNat_toUInt8]
  have h8 : (8 : UInt16).toNat % 16 = 8 := rfl
  rw [UInt16.toNat_or, UInt16.toNat_shiftLeft, UInt8.toNat_toUInt16, hhigh, hlow, h8,
    Nat.mod_eq_of_lt (by rw [Nat.shiftLeft_eq]; omega),
    ← Nat.shiftLeft_add_eq_or_of_lt (by omega), Nat.shiftLeft_eq]
  omega

/-- The binding a DATA or FRAG frame carries. -/
inductive Form where
  /-- Only the id: the binding is installed already. -/
  | steady (fid : UInt16)
  /-- Session and address for the id; a source address when `src` is set. -/
  | opening (fid : UInt16) (sess : UInt32) (addr : TargetAddr) (src : Bool)
  | source (fid : UInt16) (addr : TargetAddr)
  | inline (sess : UInt32) (addr : TargetAddr)

namespace Form

/-- The id lies where the form requires it. -/
def FidOk : Form → Prop
  | .steady fid => validFid fid = true
  | .opening fid _ _ src => ownedBy (openOwner src) fid = true
  | .source fid _ => validFid fid = true
  | .inline _ _ => True

/-- The address, if the form has one, can be written. -/
def AddrOk : Form → Prop
  | .steady _ => True
  | .opening _ _ addr _ => addr.Encodable
  | .source _ addr => addr.Encodable
  | .inline _ addr => addr.Encodable

/-- The length helper that belongs to the form, for DATA. -/
def dataLen (n : Nat) : Form → Nat
  | .steady _ => dataSteadyLen n
  | .opening _ _ addr _ => dataOpenLen addr.headerLen n
  | .source _ addr => dataSrcLen addr.headerLen n
  | .inline _ addr => dataInlineLen addr.headerLen n

variable (fragId : UInt32) (idx total : UInt8) (chunk : Bytes) (limit : Nat)

/-- The length helper that belongs to the form, for FRAG. -/
def fragLen (n : Nat) : Form → Nat
  | .steady _ => fragSteadyLen n
  | .opening _ _ addr _ => fragOpenLen addr.headerLen n
  | .source _ addr => fragSrcLen addr.headerLen n
  | .inline _ addr => fragInlineLen addr.headerLen n

/-- The fields in front of the chunk are short. -/
lemma fragLen_zero_le (form : Form) : form.fragLen 0 ≤ 512 := by
  cases form <;> simp only [fragLen, fragSteadyLen, fragOpenLen, fragSrcLen, fragInlineLen] <;>
    grind [headerLen_le]

/-- The encoder that belongs to the form, for DATA. -/
def encodeData (payload : Bytes) (limit : Nat) : Form → Option Bytes
  | .steady fid => encodeDataSteady fid payload limit
  | .opening fid sess addr src => encodeDataOpen fid sess addr src payload limit
  | .source fid addr => encodeDataSrc fid addr payload limit
  | .inline sess addr => encodeDataInline sess addr payload limit

/-- The encoder that belongs to the form, for FRAG. -/
def encodeFrag : Form → Option Bytes
  | .steady fid => encodeFragSteady fid fragId idx total chunk limit
  | .opening fid sess addr src => encodeFragOpen fid sess addr src fragId idx total chunk limit
  | .source fid addr => encodeFragSrc fid addr fragId idx total chunk limit
  | .inline sess addr => encodeFragInline sess addr fragId idx total chunk limit

def fid : Form → Option UInt16
  | .steady fid => some fid
  | .opening fid _ _ _ => some fid
  | .source fid _ => some fid
  | .inline _ _ => none

def sess : Form → Option UInt32
  | .opening _ sess _ _ => some sess
  | .inline sess _ => some sess
  | _ => none

def addr : Form → Option TargetAddr
  | .steady _ => none
  | .opening _ _ addr _ => some addr
  | .source _ addr => some addr
  | .inline _ addr => some addr

def src : Form → Bool
  | .opening _ _ _ src => src
  | .source _ _ => true
  | _ => false

/-- What the decoder has to answer for a DATA frame of this form. -/
def dataRef (payload : Bytes) (form : Form) : DataRef :=
  ⟨form.fid, form.sess, form.addr.map clearFlow, form.src, payload⟩

/-- What the decoder has to answer for a FRAG frame of this form. -/
def fragRef (form : Form) : FragRef :=
  ⟨form.fid, form.sess, form.addr.map clearFlow, form.src, fragId, idx, total,
    form.fragLen 0, chunk⟩

/-- The octets of a DATA frame of this form. -/
def dataLayout (payload : Bytes) : Form → Bytes
  | .steady fid => ((fid >>> 8).toUInt8 &&& 0x3F) :: fid.toUInt8 :: payload
  | .opening fid sess addr src => (classDataExt ||| if src then formOpenSrc else formOpen) ::
      (putU16 fid ++ (putU32 sess ++ (addr.addrBytes ++ payload)))
  | .source fid addr => (classDataExt ||| formSrc) :: (putU16 fid ++ (addr.addrBytes ++ payload))
  | .inline sess addr =>
    (classDataExt ||| formInline) :: (putU32 sess ++ (addr.addrBytes ++ payload))

/-- The octets of a FRAG frame of this form. -/
def fragLayout : Form → Bytes
  | .steady fid => classFrag :: (putU16 fid ++ (putU32 fragId ++ (idx :: total :: chunk)))
  | .opening fid sess addr src => (classFrag ||| if src then formOpenSrc else formOpen) ::
      (putU16 fid ++ (putU32 fragId ++ (idx :: total ::
        (putU32 sess ++ (addr.addrBytes ++ chunk)))))
  | .source fid addr => (classFrag ||| formSrc) ::
      (putU16 fid ++ (putU32 fragId ++ (idx :: total :: (addr.addrBytes ++ chunk))))
  | .inline sess addr => (classFrag ||| formInline) ::
      (putU32 fragId ++ (idx :: total :: (putU32 sess ++ (addr.addrBytes ++ chunk))))

end Form

variable {form : Form} {frame chunk : Bytes} {limit : Nat} {fragId : UInt32} {idx total : UInt8}

lemma requireFidOwner_bind {fid : UInt16} {owner : FidOwner} (bad : String)
    (rest : Option Bytes) :
    ((requireFidOwner fid owner bad).toOption.bind fun _ => rest) =
      if !ownedBy owner fid then none else rest := by
  cases h : ownedBy owner fid <;> simp [requireFidOwner, h, Except.toOption]

lemma guard_guard (p q : Bool) (r : Option Bytes) :
    (if !p then none else if !q then none else r) = if !(p && q) then none else r := by
  cases p <;> rfl

/-- The encoder answers exactly for an owned id, an encodable address and room, and then
with the layout of the form. -/
lemma encodeData_eq_some {payload : Bytes} :
    form.encodeData payload limit = some frame ↔
      form.FidOk ∧ form.AddrOk ∧ form.dataLen payload.length ≤ limit ∧
        frame = form.dataLayout payload := by
  rcases form with ⟨fid⟩ | ⟨fid, sess, a, src⟩ | ⟨fid, a⟩ | ⟨sess, a⟩
  · exact (room_eq_some (validFid fid)).trans (by simp [Form.AddrOk]; rfl)
  · refine Iff.trans ?_ (guarded_header_eq_some (ownedBy (openOwner src) fid)
      (fun n => dataOpenLen n payload.length)
      (fun a => _ :: (putU16 fid ++ (putU32 sess ++ (a ++ payload)))))
    rw [← requireFidOwner_bind "r3 data open fid owner"]
    rfl
  · exact guarded_header_eq_some (validFid fid) (fun n => dataSrcLen n payload.length)
      (fun a => _ :: (putU16 fid ++ (a ++ payload)))
  · exact (header_bind_eq_some (fun n => dataInlineLen n payload.length)
      (fun a => _ :: (putU32 sess ++ (a ++ payload)))).trans (and_iff_right trivial).symm

lemma length_dataLayout (ha : form.AddrOk) (payload : Bytes) :
    (form.dataLayout payload).length = form.dataLen payload.length := by
  rcases form with ⟨fid⟩ | ⟨fid, sess, a, src⟩ | ⟨fid, a⟩ | ⟨sess, a⟩ <;>
    simp [Form.dataLayout, Form.dataLen, dataSteadyLen, dataOpenLen, dataSrcLen, dataInlineLen,
      putU16, putU32, length_u32Bytes, length_leBytes]
  case steady => omega
  all_goals
    rw [(header_of_encodable ha).2]
    omega

lemma open_flags (src : Bool) {f : UInt8}
    (hf : f = if src then formOpenSrc else formOpen) :
    f ∈ [formOpen, formSrc, formOpenSrc, formInline] ∧ (f == formOpenSrc) = src ∧
      (f = formOpen ∨ f = formOpenSrc) ∧ f ≠ 0 := by
  subst hf
  cases src <;> decide

lemma decodeData_dataLayout (hf : form.FidOk) (ha : form.AddrOk) (payload : Bytes) :
    decodeData (form.dataLayout payload) = .ok (form.dataRef payload) := by
  generalize hb : form.dataLayout payload = b
  have r0 := Rest.of_eq hb
  rcases form with ⟨fid⟩ | ⟨fid, sess, a, src⟩ | ⟨fid, a⟩ | ⟨sess, a⟩
  · have hfid := packed_fid fid hf
    have hrest : b.drop 2 = payload := r0.tail.tail.drop
    simp only [decodeData, readByte_of_rest r0, readByte_of_rest r0.tail, ok_bind, hfid.1, hfid.2,
      if_true, hrest]
    rfl
  · obtain ⟨hflags, hsrc, hopen, -⟩ := open_flags src rfl
    obtain ⟨hclass, hext, -, -⟩ := extended_octet _ hflags "bad r3 data reserved"
    have r1 := r0.tail
    have r3 := rest_putU16 r1
    have r7 := rest_putU32 r3
    obtain ⟨haddr, rp⟩ := decode_of_rest ha r7
    have hclass' : ¬ classDataExt = classData := by decide
    have hown : ownedBy (openOwner src) fid = true := hf
    simp only [decodeData, readByte_of_rest r0, ok_bind, hclass, if_neg hclass', if_true, hext,
      if_pos hopen, getU16_of_rest r1 (by decide), hsrc, requireFidOwner, hown, ensure_true,
      getU32_of_rest r3 (by decide), haddr, rp.drop]
    rfl
  · obtain ⟨hclass, hext, -, -⟩ := extended_octet formSrc (by decide) "bad r3 data reserved"
    have r1 := r0.tail
    have r3 := rest_putU16 r1
    obtain ⟨haddr, rp⟩ := decode_of_rest ha r3
    have hclass' : ¬ classDataExt = classData := by decide
    have hopen : ¬ (formSrc = formOpen ∨ formSrc = formOpenSrc) := by decide
    have hvalid : validFid fid = true := hf
    simp only [decodeData, readByte_of_rest r0, ok_bind, hclass, if_neg hclass', if_true, hext,
      if_neg hopen, getU16_of_rest r1 (by decide), hvalid, ensure_true, haddr, rp.drop]
    rfl
  · obtain ⟨hclass, hext, -, -⟩ := extended_octet formInline (by decide) "bad r3 data reserved"
    have r1 := r0.tail
    have r5 := rest_putU32 r1
    obtain ⟨haddr, rp⟩ := decode_of_rest ha r5
    have hclass' : ¬ classDataExt = classData := by decide
    have hopen : ¬ (formInline = formOpen ∨ formInline = formOpenSrc) := by decide
    have hsource : ¬ formInline = formSrc := by decide
    simp only [decodeData, readByte_of_rest r0, ok_bind, hclass, if_neg hclass', if_true, hext,
      if_neg hopen, if_neg hsource, getU32_of_rest r1 (by decide), haddr, rp.drop]
    rfl

/-- The encoder answers exactly for an owned id, an encodable address, valid fragment fields
and room, and then with the layout of the form. -/
lemma encodeFrag_eq_some :
    form.encodeFrag fragId idx total chunk limit = some frame ↔
      form.FidOk ∧ form.AddrOk ∧ fragMetaOk idx total chunk = true ∧
        form.fragLen chunk.length ≤ limit ∧ frame = form.fragLayout fragId idx total chunk := by
  rcases form with ⟨fid⟩ | ⟨fid, sess, a, src⟩ | ⟨fid, a⟩ | ⟨sess, a⟩ <;>
    simp only [Form.encodeFrag, encodeFragSteady, encodeFragOpen, encodeFragSrc, encodeFragInline,
      ← Bool.not_and]
  · rw [room_eq_some, Bool.and_eq_true, and_assoc]
    simp [Form.AddrOk]
    rfl
  · rw [Option.bind_eq_bind, requireFidOwner_bind, guard_guard]
    refine (guarded_header_eq_some _ (fun n => fragOpenLen n chunk.length)
      (fun a => _ :: (putU16 fid ++ (putU32 fragId ++ (idx :: total ::
        (putU32 sess ++ (a ++ chunk))))))).trans ?_
    rw [Bool.and_eq_true, and_assoc, and_left_comm (b := a.Encodable)]
    rfl
  · refine (guarded_header_eq_some _ (fun n => fragSrcLen n chunk.length)
      (fun a => _ :: (putU16 fid ++ (putU32 fragId ++ (idx :: total :: (a ++ chunk)))))).trans ?_
    rw [Bool.and_eq_true, and_assoc, and_left_comm (b := a.Encodable)]
    rfl
  · refine (guarded_header_eq_some _ (fun n => fragInlineLen n chunk.length)
      (fun a => _ :: (putU32 fragId ++ (idx :: total :: (putU32 sess ++ (a ++ chunk)))))).trans ?_
    rw [and_left_comm]
    exact (and_iff_right trivial).symm

lemma length_fragLayout (ha : form.AddrOk) (fragId : UInt32) (idx total : UInt8) (chunk : Bytes) :
    (form.fragLayout fragId idx total chunk).length = form.fragLen chunk.length := by
  rcases form with ⟨fid⟩ | ⟨fid, sess, a, src⟩ | ⟨fid, a⟩ | ⟨sess, a⟩ <;>
    simp [Form.fragLayout, Form.fragLen, fragSteadyLen, fragOpenLen, fragSrcLen, fragInlineLen,
      putU16, putU32, length_u32Bytes, length_leBytes]
  case steady => omega
  all_goals
    rw [(header_of_encodable ha).2]
    omega

/-- The fields between the id and the binding are read from any form alike. -/
lemma decodeFrag_of_parts {b s t : Bytes} {b0 flags : UInt8} {fid : Option UInt16} {src : Bool}
    {off stop : Nat} {sess : Option UInt32} {addr : Option TargetAddr} (hb0 : Rest b 0 (b0 :: s))
    (hclass : b0 &&& classMask = classFrag) (hext : extFlags b0 "bad r3 frag reserved" = .ok flags)
    (hid : decodeFragId b flags = .ok (fid, src, off)) (hoff : off ≤ 3)
    (hr : Rest b off (putU32 fragId ++ (idx :: total :: t)))
    (hctx : decodeFragCtx b flags (off + 6) = .ok (sess, addr, stop)) (hchunk : b.drop stop = chunk)
    (hm : fragMetaOk idx total chunk = true) :
    decodeFrag b = .ok ⟨fid, sess, addr, src, fragId, idx, total, stop, chunk⟩ := by
  have hword : off + 4 < usizeSize := by
    rw [usizeSize]
    omega
  have r4 := rest_putU32 hr
  have hkind : (b0 &&& classMask == classFrag) = true := by rw [hclass]; rfl
  simp [decodeFrag, readByte_of_rest hb0, ok_bind, hkind, ensure_true, hext, hid,
    getU32_of_rest hr hword, readByte_of_rest r4, readByte_of_rest r4.tail, hctx, hchunk, hm]

lemma decodeFrag_fragLayout (hf : form.FidOk) (ha : form.AddrOk)
    (hm : fragMetaOk idx total chunk = true) :
    decodeFrag (form.fragLayout fragId idx total chunk) =
      .ok (form.fragRef fragId idx total chunk) := by
  generalize hb : form.fragLayout fragId idx total chunk = b
  have r0 := Rest.of_eq hb
  rcases form with ⟨fid⟩ | ⟨fid, sess, a, src⟩ | ⟨fid, a⟩ | ⟨sess, a⟩
  · have r1 := r0.tail
    have r3 := rest_putU16 r1
    have rchunk := (rest_putU32 r3).tail.tail
    have hvalid : validFid fid = true := hf
    refine decodeFrag_of_parts r0 rfl rfl ?_ (by omega) r3 rfl rchunk.drop hm
    simp only [decodeFragId, show classFrag &&& extFlagsMask = 0 from rfl, if_true,
      getU16_of_rest r1 (by decide), ok_bind, hvalid, ensure_true]
    rfl
  · obtain ⟨hflags, hsrc, hopen, hsteady⟩ := open_flags src rfl
    obtain ⟨-, -, hclass, hext⟩ := extended_octet _ hflags "bad r3 frag reserved"
    have r1 := r0.tail
    have r3 := rest_putU16 r1
    have r9 := (rest_putU32 r3).tail.tail
    have r13 := rest_putU32 r9
    obtain ⟨haddr, rp⟩ := decode_of_rest ha r13
    have hown : ownedBy (openOwner src) fid = true := hf
    refine decodeFrag_of_parts r0 hclass hext ?_ (by omega) r3 ?_ rp.drop hm
    · simp only [decodeFragId, if_neg hsteady, if_pos hopen, getU16_of_rest r1 (by decide),
        ok_bind, requireFidOwner, hsrc, hown, ensure_true]
      rfl
    · simp only [decodeFragCtx, if_pos (hopen.imp_right Or.inl),
        getU32_of_rest r9 (by decide), ok_bind, haddr]
      rfl
  · obtain ⟨-, -, hclass, hext⟩ := extended_octet formSrc (by decide) "bad r3 frag reserved"
    have r1 := r0.tail
    have r3 := rest_putU16 r1
    have r9 := (rest_putU32 r3).tail.tail
    obtain ⟨haddr, rp⟩ := decode_of_rest ha r9
    have hvalid : validFid fid = true := hf
    refine decodeFrag_of_parts r0 hclass hext ?_ (by omega) r3 ?_ rp.drop hm
    · have hsteady : ¬ formSrc = 0 := by decide
      have hopen : ¬ (formSrc = formOpen ∨ formSrc = formOpenSrc) := by decide
      simp only [decodeFragId, if_neg hsteady, if_neg hopen, if_true,
        getU16_of_rest r1 (by decide), ok_bind, hvalid, ensure_true]
      rfl
    · have hctx : ¬ (formSrc = formOpen ∨ formSrc = formOpenSrc ∨ formSrc = formInline) := by
        decide
      simp only [decodeFragCtx, if_neg hctx, if_true, haddr, ok_bind]
      rfl
  · obtain ⟨-, -, hclass, hext⟩ := extended_octet formInline (by decide) "bad r3 frag reserved"
    have r1 := r0.tail
    have r7 := (rest_putU32 r1).tail.tail
    have r11 := rest_putU32 r7
    obtain ⟨haddr, rp⟩ := decode_of_rest ha r11
    refine decodeFrag_of_parts r0 hclass hext rfl (by omega) r1 ?_ rp.drop hm
    simp only [decodeFragCtx, getU32_of_rest r7 (by decide), ok_bind, haddr]
    rfl

/-- Every form of DATA and FRAG is written exactly under its conditions, with its announced
length, and is read back unchanged up to the flow label of the address. -/
theorem data_frag_round_trip (form : Form) (fragId : UInt32) (idx total : UInt8) (body : Bytes)
    (limit : Nat) :
    (((∃ frame, form.encodeData body limit = some frame) ↔
        form.FidOk ∧ form.AddrOk ∧ form.dataLen body.length ≤ limit) ∧
      ∀ frame, form.encodeData body limit = some frame →
        frame.length = form.dataLen body.length ∧ decodeData frame = .ok (form.dataRef body)) ∧
    ((∃ frame, form.encodeFrag fragId idx total body limit = some frame) ↔
        form.FidOk ∧ form.AddrOk ∧ fragMetaOk idx total body = true ∧
          form.fragLen body.length ≤ limit) ∧
      ∀ frame, form.encodeFrag fragId idx total body limit = some frame →
        frame.length = form.fragLen body.length ∧
          decodeFrag frame = .ok (form.fragRef fragId idx total body) := by
  refine ⟨⟨?_, ?_⟩, ?_, ?_⟩
  · simp only [encodeData_eq_some]
    constructor
    · rintro ⟨frame, hf, ha, hl, -⟩
      exact ⟨hf, ha, hl⟩
    · rintro ⟨hf, ha, hl⟩
      exact ⟨_, hf, ha, hl, rfl⟩
  · intro frame h
    obtain ⟨hf, ha, -, rfl⟩ := encodeData_eq_some.mp h
    exact ⟨length_dataLayout ha body, decodeData_dataLayout hf ha body⟩
  · simp only [encodeFrag_eq_some]
    constructor
    · rintro ⟨frame, hf, ha, hm, hl, -⟩
      exact ⟨hf, ha, hm, hl⟩
    · rintro ⟨hf, ha, hm, hl⟩
      exact ⟨_, hf, ha, hm, hl, rfl⟩
  · intro frame h
    obtain ⟨hf, ha, hm, -, rfl⟩ := encodeFrag_eq_some.mp h
    exact ⟨length_fragLayout ha fragId idx total body, decodeFrag_fragLayout hf ha hm⟩

/-- What an encoded fragment is decoded to; its chunk is the rest of the frame. -/
lemma decodeFrag_of_encodeFrag (h : form.encodeFrag fragId idx total chunk limit = some frame) :
    decodeFrag frame = .ok (form.fragRef fragId idx total chunk) ∧
      form.fragLen 0 + chunk.length = frame.length := by
  obtain ⟨hf, ha, hm, -, rfl⟩ := encodeFrag_eq_some.mp h
  refine ⟨decodeFrag_fragLayout hf ha hm, ?_⟩
  rw [length_fragLayout ha]
  cases form <;> rfl

lemma kind_dataLayout (form : Form) (payload : Bytes) :
    kind (form.dataLayout payload) = some .data ∨
      kind (form.dataLayout payload) = some .dataExt := by
  cases form with
  | steady fid =>
    left
    have hclass : ((fid >>> 8).toUInt8 &&& 0x3F) &&& classMask = classData := by
      rw [UInt8.and_assoc]
      have hz : (0x3F : UInt8) &&& classMask = 0 := rfl
      rw [hz, UInt8.and_zero]
      rfl
    simp [Form.dataLayout, kind, hclass]
  | opening fid sess addr src => cases src <;> exact .inr rfl
  | source _ _ | inline _ _ => exact .inr rfl

lemma kind_fragLayout (form : Form) (fragId : UInt32) (idx total : UInt8) (chunk : Bytes) :
    kind (form.fragLayout fragId idx total chunk) = some .frag := by
  cases form with
  | opening fid sess addr src => cases src <;> rfl
  | _ => rfl

end MyQuic2.Rev3
