import MyQuic2.Mqp.Rev3.Frame

/-!
# Revision 3: the control stream

Control messages follow each other on a stream of their own, each behind its type and the
length of its body. The receiver reads a header and a body in exact reads, whatever the
pieces in which the stream arrives; the decoder works on a buffer. `readExact` stands for
the read of quinn.
-/

namespace MyQuic2.Rev3

open List Option

def maxCtlBody : Nat := 64

def ctlAssocClose : UInt8 := 0x01
def ctlFlowClose : UInt8 := 0x02
def ctlReject : UInt8 := 0x81
def ctlNeedContext : UInt8 := 0x82
def ctlSessClose : UInt8 := 0x83
def ctlGoaway : UInt8 := 0x84

inductive CtlMessage where
  | assocClose (sess : UInt32) (reason : UInt8)
  | flowClose (fid : UInt16) (reason : UInt8)
  | reject (fid : UInt16) (reason : UInt8)
  | needContext (fid : UInt16)
  | sessClose (sess : UInt32) (reason : UInt8)
  | goaway
  deriving DecidableEq

namespace CtlMessage

def msgType : CtlMessage → UInt8
  | assocClose _ _ => ctlAssocClose
  | flowClose _ _ => ctlFlowClose
  | reject _ _ => ctlReject
  | needContext _ => ctlNeedContext
  | sessClose _ _ => ctlSessClose
  | goaway => ctlGoaway

def bodyLen : CtlMessage → Nat
  | assocClose _ _ | sessClose _ _ => 5
  | flowClose _ _ | reject _ _ => 3
  | needContext _ => 2
  | goaway => 0

def fidInRange : CtlMessage → Bool
  | flowClose fid _ | reject fid _ | needContext fid => validFid fid
  | _ => true

def body : CtlMessage → Bytes
  | assocClose sess reason | sessClose sess reason => putU32 sess ++ [reason]
  | flowClose fid reason | reject fid reason => putU16 fid ++ [reason]
  | needContext fid => putU16 fid
  | goaway => []

end CtlMessage

def encodeCtlMessage (m : CtlMessage) : Option Bytes :=
  if !m.fidInRange then none
  else some (m.msgType :: (putU16 (UInt16.ofNat m.bodyLen) ++ m.body))

def ctlSessReason (body : Bytes) : Except MqpError (UInt32 × UInt8) :=
  if body.length ≠ 5 then .error (.malformed "bad r3 ctl body len")
  else .ok (UInt32.ofNat (ofLeBytes (body.take 4)), body.getD 4 0)

/-- A flow id at the front of a body of the given length. -/
def ctlFid (len : Nat) (body : Bytes) : Except MqpError UInt16 :=
  if body.length ≠ len then .error (.malformed "bad r3 ctl body len")
  else
    let fid := UInt16.ofNat (ofLeBytes (body.take 2))
    if !validFid fid then .error (.malformed "bad r3 ctl fid") else .ok fid

def ctlFidReason (body : Bytes) : Except MqpError (UInt16 × UInt8) := do
  let fid ← ctlFid 3 body
  .ok (fid, body.getD 2 0)

def decodeCtlBody (ty : UInt8) (body : Bytes) : Except MqpError CtlMessage :=
  if ty = ctlAssocClose then do
    let (sess, reason) ← ctlSessReason body
    .ok (.assocClose sess reason)
  else if ty = ctlFlowClose then do
    let (fid, reason) ← ctlFidReason body
    .ok (.flowClose fid reason)
  else if ty = ctlReject then do
    let (fid, reason) ← ctlFidReason body
    .ok (.reject fid reason)
  else if ty = ctlNeedContext then do
    let fid ← ctlFid 2 body
    .ok (.needContext fid)
  else if ty = ctlSessClose then do
    let (sess, reason) ← ctlSessReason body
    .ok (.sessClose sess reason)
  else if ty = ctlGoaway then
    if body ≠ [] then .error (.malformed "bad r3 ctl body len") else .ok .goaway
  else .error (.malformed "bad r3 ctl type")

/-- The length that a header announces. -/
def announced (b : Bytes) : Nat := ofLeBytes ((b.drop 1).take 2)

def decodeCtlMessage (b : Bytes) : Except MqpError (CtlMessage × Nat) :=
  if b.length < 3 then .error (.malformed "short r3 ctl message")
  else if maxCtlBody < announced b then .error (.malformed "r3 ctl body too long")
  else if b.length < 3 + announced b then .error (.malformed "truncated r3 ctl body")
  else do
    let msg ← decodeCtlBody (b.getD 0 0) ((b.take (3 + announced b)).drop 3)
    .ok (msg, 3 + announced b)

/-- The message at the front of a buffer, with the octets it takes; `none` if it is not all
there yet. -/
def decodeMessage (buf : Bytes) : Except MqpError (Option (CtlMessage × Nat)) :=
  if buf.length < 3 then .ok none
  else if maxCtlBody < announced buf then .error (.malformed "r3 ctl message body too long")
  else if buf.length < 3 + announced buf then .ok none
  else do
    let (msg, consumed) ← decodeCtlMessage (buf.take (3 + announced buf))
    if consumed ≠ 3 + announced buf then .error (.malformed "r3 ctl message length mismatch")
    else .ok (some (msg, 3 + announced buf))

/-- Read exactly `n` octets of a stream that arrives in pieces. At the end of the stream the
read fails with the number of octets that it got. -/
def readExact : Nat → List Bytes → Except Nat (Bytes × List Bytes)
  | 0, chunks => .ok ([], chunks)
  | _ + 1, [] => .error 0
  | n + 1, c :: chunks =>
    if n + 1 ≤ c.length then .ok (c.take (n + 1), c.drop (n + 1) :: chunks)
    else
      match readExact (n + 1 - c.length) chunks with
      | .ok (s, rest) => .ok (c ++ s, rest)
      | .error k => .error (c.length + k)

inductive RecvError where
  | finishedEarly
  | bodyTooLong (n : Nat)
  | malformed (e : MqpError)
  | lengthMismatch
  deriving DecidableEq

/-- The next message of the stream; `none` when the peer closed it. -/
def recv (chunks : List Bytes) : Except RecvError (Option (CtlMessage × List Bytes)) :=
  match readExact 3 chunks with
  | .error 0 => .ok none
  | .error _ => .error .finishedEarly
  | .ok (head, chunks) =>
    if maxCtlBody < announced head then .error (.bodyTooLong (announced head))
    else
      match if 0 < announced head then readExact (announced head) chunks else .ok ([], chunks) with
      | .error _ => .error .finishedEarly
      | .ok (body, chunks) =>
        match decodeCtlMessage (head ++ body) with
        | .error e => .error (.malformed e)
        | .ok (msg, consumed) =>
          if consumed ≠ (head ++ body).length then .error .lengthMismatch
          else .ok (some (msg, chunks))

variable {b : Bytes} {chunks : List Bytes} {m : CtlMessage} {n : Nat}

/-- An exact read takes octets off the stream, wherever it was cut. -/
lemma readExact_of_le (h : n ≤ chunks.flatten.length) :
    ∃ rest, readExact n chunks = .ok (chunks.flatten.take n, rest) ∧
      rest.flatten = chunks.flatten.drop n := by
  induction chunks generalizing n with
  | nil =>
    obtain rfl : n = 0 := by simpa using h
    exact ⟨[], rfl, rfl⟩
  | cons c chunks ih =>
    cases n with
    | zero => exact ⟨c :: chunks, rfl, rfl⟩
    | succ n =>
      rw [flatten_cons, length_append] at h
      by_cases hc : n + 1 ≤ c.length
      · refine ⟨c.drop (n + 1) :: chunks, ?_, ?_⟩
        · simp [readExact, hc, take_append_of_le_length hc]
        · simp [drop_append_of_le_length hc]
      obtain ⟨rest, hread, hrest⟩ := ih (n := n + 1 - c.length) (by omega)
      refine ⟨rest, ?_, ?_⟩
      · simp [readExact, hc, hread, take_append, take_of_length_le (Nat.le_of_not_le hc)]
      · simp [hrest, drop_append, drop_of_length_le (Nat.le_of_not_le hc)]

lemma readExact_of_lt (h : chunks.flatten.length < n) :
    readExact n chunks = .error chunks.flatten.length := by
  induction chunks generalizing n with
  | nil => cases n <;> simp_all [readExact]
  | cons c chunks ih =>
    rw [flatten_cons, length_append] at h
    cases n with
    | zero => omega
    | succ n =>
      have hc : ¬ n + 1 ≤ c.length := by omega
      simp [readExact, hc, ih (n := n + 1 - c.length) (by omega)]

lemma announced_take {k : Nat} (hk : 3 ≤ k) : announced (b.take k) = announced b := by
  simp only [announced, drop_take, take_take]
  congr 2
  omega

/-- What a complete message at the front of a buffer is decoded to. -/
def front (b : Bytes) : Except MqpError CtlMessage :=
  decodeCtlBody (b.getD 0 0) ((b.take (3 + announced b)).drop 3)

lemma decodeCtlMessage_take (hlen : 3 + announced b ≤ b.length)
    (hmax : announced b ≤ maxCtlBody) :
    decodeCtlMessage (b.take (3 + announced b)) = (front b).map (·, 3 + announced b) := by
  have hann := announced_take (b := b) (Nat.le_add_right 3 (announced b))
  have hhead : (b.take (3 + announced b)).getD 0 0 = b.getD 0 0 := by
    simp [getD_eq_getElem?_getD]
  simp only [decodeCtlMessage, hann, length_take, Nat.min_eq_left hlen, take_take,
    Nat.min_self, hhead]
  simp only [Nat.not_lt.mpr hmax, Nat.lt_irrefl, if_false]
  rw [if_neg (by omega), front]
  cases decodeCtlBody (b.getD 0 0) ((b.take (3 + announced b)).drop 3) <;> rfl

/-- The decoder by what the buffer holds. -/
lemma decodeMessage_eq : decodeMessage b =
    if 3 ≤ b.length ∧ maxCtlBody < announced b then
      .error (.malformed "r3 ctl message body too long")
    else if b.length < 3 + announced b then .ok none
    else (front b).map fun m => some (m, 3 + announced b) := by
  unfold decodeMessage
  by_cases h3 : b.length < 3
  · simp [h3, show ¬ 3 ≤ b.length by omega, show b.length < 3 + announced b by omega]
  simp only [h3, if_false, show 3 ≤ b.length by omega, true_and]
  split
  · rfl
  split
  · rfl
  · rw [decodeCtlMessage_take (by omega) (by omega)]
    cases front b <;> simp [Except.map]

lemma readBody (hlen : 3 + announced b ≤ b.length) (hrest : chunks.flatten = b.drop 3) :
    ∃ rest, (if 0 < announced b then readExact (announced b) chunks else .ok ([], chunks)) =
      .ok ((b.drop 3).take (announced b), rest) ∧ rest.flatten = b.drop (3 + announced b) := by
  split
  · obtain ⟨rest, hread, hflat⟩ := readExact_of_le
      (show announced b ≤ chunks.flatten.length by rw [hrest, length_drop]; omega)
    rw [hrest] at hread hflat
    exact ⟨rest, hread, by rw [hflat, drop_drop]⟩
  · rename_i hzero
    obtain hzero : announced b = 0 := by omega
    exact ⟨chunks, by simp [hzero], by simp [hzero, hrest]⟩

/-- The receiver takes from the stream what the decoder takes from all that is to come, and
fails where the decoder fails or is left with a part of a message. -/
lemma recv_spec (chunks : List Bytes) :
    (∀ m n, decodeMessage chunks.flatten = .ok (some (m, n)) →
      ∃ rest, recv chunks = .ok (some (m, rest)) ∧ rest.flatten = chunks.flatten.drop n) ∧
    (decodeMessage chunks.flatten = .ok none →
      if chunks.flatten = [] then recv chunks = .ok none else ∃ e, recv chunks = .error e) ∧
    ∀ e, decodeMessage chunks.flatten = .error e → ∃ e, recv chunks = .error e := by
  generalize hb : chunks.flatten = b
  rw [decodeMessage_eq]
  unfold recv
  by_cases h3 : b.length < 3
  · rw [readExact_of_lt (by rwa [hb]), hb]
    simp only [show ¬ 3 ≤ b.length by omega, false_and, if_false,
      show b.length < 3 + announced b by omega, if_true]
    cases b <;> simp
  obtain ⟨rest, hread, hrest⟩ := readExact_of_le (show 3 ≤ chunks.flatten.length by rw [hb]; omega)
  rw [hb] at hread hrest
  have hne : b ≠ [] := by
    rintro rfl
    simp at h3
  simp only [hread, announced_take (b := b) le_rfl, show 3 ≤ b.length by omega, true_and, hne,
    if_false]
  by_cases hmax : maxCtlBody < announced b
  · simp [hmax]
  simp only [hmax, if_false]
  by_cases hshort : b.length < 3 + announced b
  · have hbody := readExact_of_lt
      (show rest.flatten.length < announced b by rw [hrest, length_drop]; omega)
    simp [hshort, show 0 < announced b by omega, hbody]
  obtain ⟨rest', hbody, hflat⟩ := readBody (Nat.le_of_not_lt hshort) hrest
  rw [hbody]
  simp only [← take_add, decodeCtlMessage_take (Nat.le_of_not_lt hshort) (Nat.le_of_not_lt hmax),
    hshort, if_false, length_take, Nat.min_eq_left (Nat.le_of_not_lt hshort)]
  cases front b with
  | error e => simp [Except.map]
  | ok m => simpa [Except.map] using hflat

lemma length_of_decodeMessage (h : decodeMessage b = .ok (some (m, n))) : 0 < n ∧ n ≤ b.length := by
  rw [decodeMessage_eq] at h
  split at h
  · cases h
  split at h
  · cases h
  cases hf : front b <;> simp [hf, Except.map] at h
  omega

/-- All messages of a buffer, with the rest that is not a message yet. -/
def decodeAll (b : Bytes) : List CtlMessage × Except MqpError Bytes :=
  match _h : decodeMessage b with
  | .ok (some (m, n)) => (m :: (decodeAll (b.drop n)).1, (decodeAll (b.drop n)).2)
  | .ok none => ([], .ok b)
  | .error e => ([], .error e)
termination_by b.length
decreasing_by all_goals
  have := length_of_decodeMessage _h
  rw [length_drop]
  omega

lemma length_of_recv {rest : List Bytes} (h : recv chunks = .ok (some (m, rest))) :
    rest.flatten.length < chunks.flatten.length := by
  obtain ⟨hsome, hnone, herror⟩ := recv_spec chunks
  rcases hdec : decodeMessage chunks.flatten with e | _ | ⟨m', n⟩
  · simpa [h] using herror e hdec
  · have hend := hnone hdec
    split at hend <;> simp [h] at hend
  · obtain ⟨rest', hrecv, hflat⟩ := hsome m' n hdec
    have := length_of_decodeMessage hdec
    rw [h] at hrecv
    cases hrecv
    rw [hflat, length_drop]
    omega

/-- All messages that a stream gives, until it ends or a call fails. -/
def recvAll (chunks : List Bytes) : List CtlMessage × Except RecvError Unit :=
  match _h : recv chunks with
  | .ok (some (m, rest)) => (m :: (recvAll rest).1, (recvAll rest).2)
  | .ok none => ([], .ok ())
  | .error e => ([], .error e)
termination_by chunks.flatten.length
decreasing_by all_goals exact length_of_recv _h

/-- The calls on a stream give the messages of its octets. -/
lemma recvAll_eq (chunks : List Bytes) :
    (recvAll chunks).1 = (decodeAll chunks.flatten).1 ∧
      ((recvAll chunks).2 = .ok () ↔ (decodeAll chunks.flatten).2 = .ok []) := by
  obtain ⟨hsome, hnone, herror⟩ := recv_spec chunks
  rw [recvAll, decodeAll]
  rcases hdec : decodeMessage chunks.flatten with e | _ | ⟨m, n⟩ <;>
    rcases hrecv : recv chunks with e' | _ | ⟨m', rest⟩ <;>
    simp only [hdec, hrecv] at hsome hnone herror ⊢ <;> try simp_all
  · exact hnone
  · rw [← hsome.2]
    exact recvAll_eq rest
termination_by chunks.flatten.length
decreasing_by exact length_of_recv hrecv

lemma ofLeBytes_putU16 (n : UInt16) : UInt16.ofNat (ofLeBytes (putU16 n)) = n := by
  rw [putU16, ofLeBytes_leBytes_of_lt (by simpa using n.toNat_lt), UInt16.ofNat_toNat]

lemma ofLeBytes_putU32 (n : UInt32) : UInt32.ofNat (ofLeBytes (putU32 n)) = n := by
  rw [putU32, u32Bytes, ofLeBytes_leBytes_of_lt (by simpa using n.toNat_lt), UInt32.ofNat_toNat]

lemma ctlSessReason_body (sess : UInt32) (reason : UInt8) :
    ctlSessReason (putU32 sess ++ [reason]) = .ok (sess, reason) := by
  have hlen : (putU32 sess).length = 4 := length_u32Bytes sess
  simp [ctlSessReason, hlen, take_left' hlen, ofLeBytes_putU32]

lemma ctlFid_body {fid : UInt16} (hfid : validFid fid = true) (t : Bytes) :
    ctlFid (2 + t.length) (putU16 fid ++ t) = .ok fid := by
  have hlen : (putU16 fid).length = 2 := length_leBytes 2 _
  simp [ctlFid, hlen, take_left' hlen, ofLeBytes_putU16, hfid]

lemma ctlFidReason_body {fid : UInt16} (hfid : validFid fid = true) (reason : UInt8) :
    ctlFidReason (putU16 fid ++ [reason]) = .ok (fid, reason) := by
  have hread := ctlFid_body hfid [reason]
  have hlen : (putU16 fid).length = 2 := length_leBytes 2 _
  simp only [length_singleton, Nat.reduceAdd] at hread
  simp [ctlFidReason, hread, hlen]

lemma decodeCtlBody_body (hfid : m.fidInRange = true) : decodeCtlBody m.msgType m.body = .ok m := by
  have hneed := fun fid (hfid : validFid fid = true) => ctlFid_body hfid []
  simp only [length_nil, Nat.add_zero, append_nil] at hneed
  cases m <;> simp_all [decodeCtlBody, CtlMessage.msgType, CtlMessage.body,
    CtlMessage.fidInRange, ctlAssocClose, ctlFlowClose, ctlReject, ctlNeedContext, ctlSessClose,
    ctlGoaway, ctlSessReason_body, ctlFidReason_body]

lemma front_encode {v : Bytes} (h : encodeCtlMessage m = some v) :
    v.length = 3 + m.bodyLen ∧ m.bodyLen ≤ maxCtlBody ∧
      ∀ t, announced (v ++ t) = m.bodyLen ∧ front (v ++ t) = .ok m := by
  obtain ⟨hfid, hv⟩ := guard_eq_some h
  obtain rfl := some.inj hv
  have hbody : m.body.length = m.bodyLen := by
    cases m <;> simp [CtlMessage.body, CtlMessage.bodyLen, putU16, putU32]
  have hmax : m.bodyLen ≤ 5 := by cases m <;> simp [CtlMessage.bodyLen]
  have hann : ∀ t, announced (m.msgType :: (putU16 (UInt16.ofNat m.bodyLen) ++ m.body) ++ t) =
      m.bodyLen := by
    intro t
    have hlen : (putU16 (UInt16.ofNat m.bodyLen)).length = 2 := length_leBytes 2 _
    rw [announced, cons_append, drop_one, tail_cons, append_assoc,
      take_left' hlen, putU16, UInt16.toNat_ofNat', ofLeBytes_leBytes_of_lt (by omega)]
    omega
  have hlen : (m.msgType :: (putU16 (UInt16.ofNat m.bodyLen) ++ m.body)).length =
      3 + m.bodyLen := by
    simp [putU16, hbody]
    omega
  refine ⟨hlen, hmax.trans (by decide), fun t => ⟨hann t, ?_⟩⟩
  rw [front, hann, take_left' hlen]
  simpa [putU16] using decodeCtlBody_body hfid

lemma decodeMessage_append {v : Bytes} (h : encodeCtlMessage m = some v) (t : Bytes) :
    decodeMessage (v ++ t) = .ok (some (m, v.length)) := by
  obtain ⟨hlen, hmax, hfront⟩ := front_encode h
  obtain ⟨hann, hread⟩ := hfront t
  rw [decodeMessage_eq, hann, hread, if_neg (by omega), if_neg (by rw [length_append]; omega), hlen]
  rfl

lemma decodeAll_encode {msgs : List CtlMessage} {encs : List Bytes}
    (h : msgs.mapM encodeCtlMessage = some encs) : decodeAll encs.flatten = (msgs, .ok []) := by
  induction msgs generalizing encs with
  | nil =>
    obtain rfl : encs = [] := by simpa using h.symm
    rw [decodeAll]
    simp [decodeMessage]
  | cons m msgs ih =>
    simp only [mapM_cons, bind_eq_bind, bind_eq_some_iff, Option.pure_def, some.injEq] at h
    obtain ⟨v, hv, encs, hencs, rfl⟩ := h
    have hdec := decodeMessage_append hv encs.flatten
    rw [decodeAll, flatten_cons]
    split <;> simp_all

/-- The stream gives back the messages that were written, wherever it is cut; a part of a
message is no message; and the calls on a stream give the messages of its octets and end
without an error exactly if nothing is left over. -/
theorem ctl_stream_framing :
    (∀ msgs encs chunks, msgs.mapM encodeCtlMessage = some encs →
      chunks.flatten = encs.flatten → recvAll chunks = (msgs, .ok ())) ∧
    (∀ m v p, encodeCtlMessage m = some v → p <+: v → p ≠ v → decodeMessage p = .ok none) ∧
    ∀ chunks, (recvAll chunks).1 = (decodeAll chunks.flatten).1 ∧
      ((recvAll chunks).2 = .ok () ↔ (decodeAll chunks.flatten).2 = .ok []) := by
  refine ⟨?_, ?_, recvAll_eq⟩
  · intro msgs encs chunks h hflat
    have heq := recvAll_eq chunks
    rw [hflat, decodeAll_encode h] at heq
    exact Prod.ext heq.1 (heq.2.mpr rfl)
  rintro m v p h ⟨t, rfl⟩ hne
  obtain ⟨hlen, hmax, hfront⟩ := front_encode h
  have hpos : 0 < t.length := length_pos_iff.mpr fun ht => hne (by simp [ht])
  rw [length_append] at hlen
  have hann : 3 ≤ p.length → announced p = m.bodyLen := by
    intro h3
    have htake := announced_take (b := p ++ t) h3
    rwa [take_left, ← append_nil (p ++ t), (hfront []).1] at htake
  rw [decodeMessage_eq, if_neg (by omega), if_pos (by omega)]

/-- A stream that ends inside a message: the decoder waits, the receiver fails. -/
theorem recv_fails_on_part :
    decodeMessage [0x84] = .ok none ∧ recv [[0x84]] = .error .finishedEarly := by
  decide +kernel

end MyQuic2.Rev3
