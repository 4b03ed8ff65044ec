import MyQuic2.Net.Addr

/-!
# Target addresses and their wire form

An address is written as a type octet, the address octets and the port, most
significant octet first. The header of an address is its validated and measured
form; encoders size their buffer by it and then write exactly that many octets.
Decoding loses the flow label and nothing else.
-/

namespace MyQuic2

open List

/-- A decode or validation failure, with the text of the failed check. -/
inductive MqpError where
  /-- Shape failure: truncated field, wrong frame type, trailing octets. -/
  | malformed (msg : String)
  | refused (msg : String)
  | badAtyp (atyp : UInt8)
  | badBndAtyp (atyp : UInt8)
  | badDomainUtf8
  | badBatchCount (count : UInt8)
  deriving DecidableEq

/-- Where a datagram is to be sent: an endpoint, or a name with a port. -/
inductive TargetAddr where
  | ip (s : SocketAddr)
  | domain (d : String) (port : UInt16)
  deriving DecidableEq

/-- A validated address and the length of its wire form. -/
structure AddrHeader where
  addr : TargetAddr
  /-- Number of octets `encodeInto` writes. -/
  len : Nat

namespace TargetAddr

/-- The numeric endpoint, when there is one. -/
def socketAddr : TargetAddr → Option SocketAddr
  | .ip s => some s
  | .domain _ _ => none

/-- The same address with its flow label cleared: the wire does not carry one. -/
def clearFlow : TargetAddr → TargetAddr
  | .ip s => .ip s.clearFlow
  | .domain d p => .domain d p

/-- Validate and measure once, so that an encoder can size its buffer. -/
def header (t : TargetAddr) : Except MqpError AddrHeader :=
  match t with
  | .ip (.v4 a _) =>
    if a.isUnspecified then .error (.refused "refuse unspecified v4")
    else .ok ⟨t, 1 + 4 + 2⟩
  | .ip (.v6 a _ _ scope) =>
    if a.isUnspecified then .error (.refused "refuse unspecified v6")
    else if scope ≠ 0 then
      .error (.refused "v6 scope_id dropped on wire, refuse scoped addr")
    else .ok ⟨t, 1 + 16 + 2⟩
  | .domain d _ =>
    if (utf8 d).length = 0 then .error (.refused "empty domain")
    else if (utf8 d).length > 255 then .error (.refused "domain too long")
    else .ok ⟨t, 1 + 1 + (utf8 d).length + 2⟩

/-- Read an address at the front of `b`, with the number of octets it took. -/
def decode (b : Bytes) : Except MqpError (TargetAddr × Nat) :=
  match b[0]? with
  | none => .error (.malformed "empty addr")
  | some atyp =>
    if atyp = 0x01 then
      if b.length < 7 then .error (.malformed "short v4")
      else
        let a := Ipv4Addr.ofOctets (cut b 1 5)
        if a.isUnspecified then .error (.refused "refuse unspecified v4 target")
        else .ok (.ip (.new (.v4 a) (UInt16.ofNat (ofBeBytes (cut b 5 7)))), 7)
    else if atyp = 0x04 then
      if b.length < 19 then .error (.malformed "short v6")
      else
        let a := Ipv6Addr.ofOctets (cut b 1 17)
        if a.isUnspecified then .error (.refused "refuse unspecified v6 target")
        else .ok (.ip (.new (.v6 a) (UInt16.ofNat (ofBeBytes (cut b 17 19)))), 19)
    else if atyp = 0x03 then
      match b[1]? with
      | none => .error (.malformed "short domain")
      | some len =>
        let n := len.toNat
        if n = 0 then .error (.malformed "bad domain len")
        else if b.length < 2 + n + 2 then .error (.malformed "short domain body")
        else
          match ofUtf8 (cut b 2 (2 + n)) with
          | none => .error .badDomainUtf8
          | some d =>
            .ok (.domain d (UInt16.ofNat (ofBeBytes (cut b (2 + n) (4 + n)))), 4 + n)
    else .error (.badAtyp atyp)

end TargetAddr

/-- The octets a header writes. Validation already happened, so nothing is refused here. -/
def AddrHeader.encodeInto (h : AddrHeader) : Bytes :=
  match h.addr with
  | .ip (.v4 a p) => 0x01 :: (a.octets ++ beBytes 2 p.toNat)
  | .ip (.v6 a p _ _) => 0x04 :: (a.octets ++ beBytes 2 p.toNat)
  | .domain d p => 0x03 :: UInt8.ofNat (utf8 d).length :: (utf8 d ++ beBytes 2 p.toNat)

namespace TargetAddr

/-- The addresses the wire can carry. -/
def Encodable : TargetAddr → Prop
  | .ip (.v4 a _) => a.isUnspecified = false
  | .ip (.v6 a _ _ scope) => a.isUnspecified = false ∧ scope = 0
  | .domain d _ => 0 < (utf8 d).length ∧ (utf8 d).length ≤ 255

instance : DecidablePred Encodable
  | .ip (.v4 _ _) => inferInstanceAs (Decidable (_ = _))
  | .ip (.v6 _ _ _ _) => inferInstanceAs (Decidable (_ ∧ _))
  | .domain _ _ => inferInstanceAs (Decidable (_ ∧ _))

open AddrHeader

lemma header_eq_encodeInto {t : TargetAddr} (he : t.Encodable) :
    t.header = .ok ⟨t, (mk t 0).encodeInto.length⟩ := by
  rcases t with ((⟨a, p⟩ | ⟨a, p, flow, scope⟩) | ⟨d, p⟩)
  · simp [header, encodeInto, show a.isUnspecified = false from he]
  · simp [header, encodeInto, show a.isUnspecified = false ∧ scope = 0 from he]
  · obtain ⟨hpos, h255⟩ := (show 0 < (utf8 d).length ∧ (utf8 d).length ≤ 255 from he)
    simp only [header, if_neg hpos.ne', if_neg (Nat.not_lt.mpr h255), encodeInto,
      length_cons, length_append, length_beBytes, Except.ok.injEq, mk.injEq,
      true_and]
    omega

/-- A header is issued for exactly the encodable addresses, and measures what it writes. -/
lemma header_eq_ok {t : TargetAddr} {h : AddrHeader} :
    t.header = .ok h ↔ t.Encodable ∧ h.addr = t ∧ h.len = h.encodeInto.length := by
  constructor
  · intro hh
    have he : t.Encodable := by
      rcases t with ((⟨a, p⟩ | ⟨a, p, flow, scope⟩) | ⟨d, p⟩) <;> simp only [header] at hh <;>
        split at hh
      · cases hh
      · rename_i ha
        exact Bool.eq_false_iff.mpr ha
      · cases hh
      · rename_i ha
        split at hh
        · cases hh
        · rename_i hs
          exact ⟨Bool.eq_false_iff.mpr ha, not_not.mp hs⟩
      · cases hh
      · rename_i h0
        split at hh
        · cases hh
        · rename_i h255
          exact ⟨Nat.pos_of_ne_zero h0, Nat.not_lt.mp h255⟩
    obtain rfl := Except.ok.inj ((header_eq_encodeInto he).symm.trans hh)
    exact ⟨he, rfl, rfl⟩
  · rintro ⟨he, rfl, hl⟩
    rw [header_eq_encodeInto he]
    exact congrArg Except.ok (congrArg (mk h.addr) hl.symm)

/-- The parts of an address behind its type, where the decoder looks for them. -/
lemma parts_of_address (pre os rest : Bytes) (p : UInt16) {i j k : Nat}
    (hi : pre.length = i) (hj : i + os.length = j) (hk : j + 2 = k) :
    let b := pre ++ (os ++ (beBytes 2 p.toNat ++ rest))
    ¬ b.length < k ∧ cut b i j = os ∧ UInt16.ofNat (ofBeBytes (cut b j k)) = p := by
  have r0 := Rest.zero (pre ++ (os ++ (beBytes 2 p.toNat ++ rest)))
  have r1 := r0.append
  have r2 := r1.append
  rw [Nat.zero_add, hi] at r1 r2
  have hos := r1.cut
  rw [hj] at hos r2
  have hport := r2.cut
  have hlen := r2.length
  rw [length_beBytes, hk] at hport
  rw [length_append, length_beBytes] at hlen
  refine ⟨by omega, hos, ?_⟩
  rw [hport, ofBeBytes_beBytes_of_lt (by simpa using p.toNat_lt), UInt16.ofNat_toNat]

/-- What a header writes is read back up to the flow label, whatever follows it. -/
lemma decode_encodeInto {t : TargetAddr} {h : AddrHeader} (hh : t.header = .ok h)
    (rest : Bytes) : decode (h.encodeInto ++ rest) = .ok (t.clearFlow, h.len) := by
  obtain ⟨he, ht, hl⟩ := header_eq_ok.mp hh
  obtain ⟨addr, len⟩ := h
  subst ht
  rw [hl]
  rcases addr with ((⟨a, p⟩ | ⟨a, p, flow, scope⟩) | ⟨d, p⟩) <;>
    simp only [decode, encodeInto, cons_append, append_assoc, getElem?_cons_zero]
  · obtain ⟨hlen, hip, hport⟩ := parts_of_address [0x01] a.octets rest p (i := 1) (j := 5) rfl
      (by simp) rfl
    simp only [cons_append, nil_append, Nat.reduceAdd] at hlen hip hport
    simp only [hlen, hip, hport, Ipv4Addr.ofOctets_octets, show a.isUnspecified = false from he]
    simp [clearFlow, SocketAddr.clearFlow, SocketAddr.new]
  · obtain ⟨hu, rfl⟩ := (show a.isUnspecified = false ∧ scope = 0 from he)
    obtain ⟨hlen, hip, hport⟩ := parts_of_address [0x04] a.octets rest p (i := 1) (j := 17) rfl
      (by simp) rfl
    simp only [cons_append, nil_append, Nat.reduceAdd] at hlen hip hport
    simp only [hlen, hip, hport, Ipv6Addr.ofOctets_octets, hu]
    simp [clearFlow, SocketAddr.clearFlow, SocketAddr.new]
  obtain ⟨hpos, h255⟩ := (show 0 < (utf8 d).length ∧ (utf8 d).length ≤ 255 from he)
  generalize hn : UInt8.ofNat (utf8 d).length = n
  have hlen : n.toNat = (utf8 d).length := by
    rw [← hn, UInt8.toNat_ofNat']
    omega
  obtain ⟨hlong, hname, hport⟩ := parts_of_address [0x03, n] (utf8 d) rest p (i := 2) rfl rfl rfl
  simp only [cons_append, nil_append] at hlong hname hport
  simp only [getElem?_cons_succ, getElem?_cons_zero, hlen, if_neg hpos.ne', hlong, hname,
    show 4 + (utf8 d).length = 2 + (utf8 d).length + 2 by omega, hport, ofUtf8_utf8]
  simp [clearFlow]
  omega

/-- Octets of the address as its header measures them. -/
def headerLen (t : TargetAddr) : Nat := (t.header.toOption.map len).getD 0

/-- The header of an address is short. -/
lemma headerLen_le (t : TargetAddr) : t.headerLen ≤ 259 := by
  unfold headerLen
  rcases t with ((⟨a, p⟩ | ⟨a, p, flow, scope⟩) | ⟨d, p⟩)
  · by_cases ha : a.isUnspecified <;> simp [header, ha, Except.toOption]
  · by_cases ha : a.isUnspecified <;> by_cases hs : scope = 0 <;>
      simp [header, ha, hs, Except.toOption]
  · by_cases h0 : (utf8 d).length = 0
    · simp [header, h0, Except.toOption]
    by_cases h255 : (utf8 d).length > 255
    · simp [header, h0, h255, Except.toOption]
    simp only [header, if_neg h0, if_neg h255, Except.toOption, Option.map_some, Option.getD_some]
    omega

/-- The octets of an address that has a header. -/
def addrBytes (t : TargetAddr) : Bytes := (mk t 0).encodeInto

variable {a : TargetAddr}

lemma header_of_encodable (h : a.Encodable) :
    a.header = .ok ⟨a, headerLen a⟩ ∧ (addrBytes a).length = headerLen a := by
  have hh := header_eq_encodeInto h
  have hlen : headerLen a = (addrBytes a).length := by
    rw [headerLen, hh]
    rfl
  rw [hlen]
  exact ⟨hh, rfl⟩

lemma header_none (h : ¬ a.Encodable) : a.header.toOption = none := by
  cases hh : a.header with
  | error e => rfl
  | ok hd => exact absurd (header_eq_ok.mp hh).1 h

variable {frame : Bytes} {limit : Nat}

section

variable (ok : Bool) (size : Nat → Nat) (layout : Bytes → Bytes)

/-- A frame is written when its fields are fine and it fits. -/
lemma room_eq_some {n : Nat} {layout : Bytes} :
    (if !ok then none else if n > limit then none else some layout) = some frame ↔
      ok = true ∧ n ≤ limit ∧ frame = layout := by
  cases ok <;> grind

/-- A measured encoder answers exactly for an encodable address and room for its frame. -/
lemma header_bind_eq_some :
    (a.header.toOption.bind fun hd =>
        if size hd.len > limit then none else some (layout hd.encodeInto)) = some frame ↔
      a.Encodable ∧ size (headerLen a) ≤ limit ∧ frame = layout (addrBytes a) := by
  by_cases ha : a.Encodable
  · rw [(header_of_encodable ha).1, and_iff_right ha]
    exact (room_eq_some true).trans (and_iff_right rfl)
  · simp [header_none ha, ha]

lemma guarded_header_eq_some :
    (if !ok then none else a.header.toOption.bind fun hd =>
        if size hd.len > limit then none else some (layout hd.encodeInto)) = some frame ↔
      ok = true ∧ a.Encodable ∧ size (headerLen a) ≤ limit ∧ frame = layout (addrBytes a) := by
  cases ok with
  | false => simp
  | true => simpa using header_bind_eq_some size layout

end

/-- An address is decoded where its header wrote it. -/
lemma decode_of_rest {b t : Bytes} {off : Nat} (ha : a.Encodable)
    (h : Rest b off (addrBytes a ++ t)) :
    decode (b.drop off) = .ok (a.clearFlow, headerLen a) ∧ Rest b (off + headerLen a) t := by
  obtain ⟨hheader, hlen⟩ := header_of_encodable ha
  rw [h.drop, ← hlen]
  refine ⟨?_, h.append⟩
  rw [hlen]
  exact decode_encodeInto hheader t

end TargetAddr

end MyQuic2
