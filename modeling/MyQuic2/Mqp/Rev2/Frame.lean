import MyQuic2.Mqp.Rev2.Varint

/-!
# Rev2 frames: wire ids, DATA, FRAG and TRAIN

The first octet of a rev2 frame names its kind. A wire id is a local number with
the owner in its lowest bit; zero is no id. The extended kinds carry a flag octet
that says whether a binding opens an id or stands alone, and whether its address
is a target or a source. A train carries up to 64 payloads, of one flow or of several
flows named in a dictionary; its decoder walks the whole frame once, and the iterator
walks the items again with its own reader.
-/

namespace MyQuic2.Rev2

def kindData : UInt8 := 0x00
def kindDataExt : UInt8 := 0x01
def kindTrain : UInt8 := 0x04
def kindFrag : UInt8 := 0x08
def kindFragExt : UInt8 := 0x09
def kindCtl : UInt8 := 0x0C

def flagOpen : UInt8 := 0x01
def flagInline : UInt8 := 0x02
def flagSrc : UInt8 := 0x04
def extFlagsMask : UInt8 := flagOpen ||| flagInline ||| flagSrc

def maxTrainItems : Nat := 64
def maxFragTotal : UInt8 := 64

/-- Framing kind of a rev2 frame. -/
inductive Kind where
  | data
  | train
  | frag
  | ctl

/-- Classify the first octet; most octets are no rev2 kind. -/
def kind (b : Bytes) : Option Kind := do
  let b0 ← b[0]?
  if b0 = kindData ∨ b0 = kindDataExt then some .data
  else if b0 = kindTrain then some .train
  else if b0 = kindFrag ∨ b0 = kindFragExt then some .frag
  else if b0 = kindCtl then some .ctl
  else none

/-- The id 0 is no flow. -/
def validWireId (id : UInt32) : Bool := id != 0

def getU32 (b : Bytes) (off : Nat) : Except MqpError (UInt32 × Nat) :=
  readU32 (.malformed "r2 u32 offset overflow") (.malformed "truncated r2 u32") b off

def pushU32 (n : UInt32) : Bytes := u32Bytes n

/-- The flag octet of an extended header. -/
def extFlags (form : UInt8) (src : Bool) : UInt8 := form ||| if src then flagSrc else 0

/-- A varint id that names a flow. -/
def getWireId (zero : String) (b : Bytes) (off : Nat) : Except MqpError (UInt32 × Nat) := do
  let (id, off) ← getVarint b off
  let _ ← ensure (validWireId id) (.malformed zero)
  .ok (id, off)

/-- View of a decoded DATA frame. -/
structure DataRef where
  /-- Absent on the inline form. -/
  id : Option UInt32
  sess : Option UInt32
  addr : Option TargetAddr
  /-- The address is a source, not a target. -/
  src : Bool
  payload : Bytes

def dataSteadyLen (id : UInt32) (payloadLen : Nat) : Nat := 1 + varintLen id + payloadLen

section

variable (id sess : UInt32) (addr : TargetAddr) (src : Bool) (payload : Bytes) (limit : Nat)

def dataOpenLen (addrLen payloadLen : Nat) : Nat :=
  2 + varintLen id + 4 + addrLen + payloadLen

def dataInlineLen (addrLen payloadLen : Nat) : Nat := 2 + 4 + addrLen + payloadLen

def encodeDataSteady : Option Bytes :=
  if !validWireId id then none
  else if dataSteadyLen id payload.length > limit then none
  else some (kindData :: (putVarint id ++ payload))

def encodeDataOpen : Option Bytes :=
  if !validWireId id then none
  else do
    let header ← addr.header.toOption
    if dataOpenLen id header.len payload.length > limit then none
    else some (kindDataExt :: extFlags flagOpen src ::
      (putVarint id ++ (pushU32 sess ++ (header.encodeInto ++ payload))))

def encodeDataInline : Option Bytes := do
  let header ← addr.header.toOption
  if dataInlineLen header.len payload.length > limit then none
  else some (kindDataExt :: extFlags flagInline src ::
    (pushU32 sess ++ (header.encodeInto ++ payload)))

end

/-- Check a flag octet: no unknown flag, and exactly one of open and inline. Returns inline
and source. -/
def checkFlags (flags : UInt8) (bad both neither : String) : Except MqpError (Bool × Bool) := do
  let _ ← ensure (flags &&& ~~~extFlagsMask == 0) (.malformed bad)
  let inline := flags &&& flagInline != 0
  let opening := flags &&& flagOpen != 0
  let _ ← ensure (!(inline && opening)) (.malformed both)
  let _ ← ensure (inline || opening) (.malformed neither)
  .ok (inline, flags &&& flagSrc != 0)

/-- Read a DATA frame of any form. -/
def decodeData (b : Bytes) : Except MqpError DataRef := do
  let b0 ← readByte (.malformed "empty r2 frame") b 0
  if b0 = kindData then
    let (id, off) ← getWireId "r2 data id 0" b 1
    .ok ⟨some id, none, none, false, b.drop off⟩
  else if b0 = kindDataExt then
    let flags ← readByte (.malformed "truncated r2 data flags") b 1
    let (inline, src) ← checkFlags flags "bad r2 data flags" "r2 data open+inline"
      "r2 data ext without open/inline"
    if inline then
      let (sess, off) ← getU32 b 2
      let (addr, n) ← TargetAddr.decode (b.drop off)
      .ok ⟨none, some sess, some addr, src, b.drop (off + n)⟩
    else
      -- A frame that is not inline is open, so the source's third case cannot occur.
      let (id, off) ← getWireId "r2 data id 0" b 2
      let (sess, off) ← getU32 b off
      let (addr, n) ← TargetAddr.decode (b.drop off)
      .ok ⟨some id, some sess, some addr, src, b.drop (off + n)⟩
  else .error (.malformed "bad r2 data kind")

/-- View of a decoded FRAG frame. -/
structure FragRef where
  /-- Absent on the inline form. -/
  id : Option UInt32
  sess : Option UInt32
  addr : Option TargetAddr
  /-- The address is a source, not a target. -/
  src : Bool
  fragId : UInt32
  idx : UInt8
  total : UInt8
  chunkOff : Nat
  chunk : Bytes

def fragSteadyLen (id : UInt32) (chunkLen : Nat) : Nat := 1 + varintLen id + 4 + 1 + 1 + chunkLen

def fragOpenLen (id : UInt32) (addrLen chunkLen : Nat) : Nat :=
  2 + varintLen id + 4 + 1 + 1 + 4 + addrLen + chunkLen

section

variable (id sess : UInt32) (addr : TargetAddr) (src : Bool) (fragId : UInt32) (idx total : UInt8)

section

variable (chunk : Bytes) (limit : Nat)

def fragInlineLen (addrLen chunkLen : Nat) : Nat := 2 + 4 + 1 + 1 + 4 + addrLen + chunkLen

/-- Bounds shared by the encoder and the decoder. -/
def fragMetaOk : Bool :=
  (1 ≤ total && total ≤ maxFragTotal) && idx < total && !chunk.isEmpty

def encodeFragSteady : Option Bytes :=
  if !validWireId id || !fragMetaOk idx total chunk then none
  else if fragSteadyLen id chunk.length > limit then none
  else some (kindFrag :: (putVarint id ++ (pushU32 fragId ++ (idx :: total :: chunk))))

def encodeFragOpen : Option Bytes :=
  if !validWireId id || !fragMetaOk idx total chunk then none
  else do
    let header ← addr.header.toOption
    if fragOpenLen id header.len chunk.length > limit then none
    else some (kindFragExt :: extFlags flagOpen src :: (putVarint id ++ (pushU32 fragId ++
      (idx :: total :: (pushU32 sess ++ (header.encodeInto ++ chunk))))))

def encodeFragInline : Option Bytes :=
  if !fragMetaOk idx total chunk then none
  else do
    let header ← addr.header.toOption
    if fragInlineLen header.len chunk.length > limit then none
    else some (kindFragExt :: extFlags flagInline src :: (pushU32 fragId ++
      (idx :: total :: (pushU32 sess ++ (header.encodeInto ++ chunk)))))

end

/-- The kind and flags of a FRAG frame: where its fields start, whether it carries a binding,
whether it is inline, and the source mark. -/
def decodeFragKind (b : Bytes) : Except MqpError (Nat × Bool × Bool × Bool) := do
  let first ← readByte (.malformed "empty r2 frame") b 0
  if first = kindFrag then .ok (1, false, false, false)
  else if first = kindFragExt then
    let flags ← readByte (.malformed "truncated r2 frag flags") b 1
    let (inline, src) ← checkFlags flags "bad r2 frag flags" "r2 frag open+inline"
      "r2 frag ext without open/inline"
    .ok (2, true, inline, src)
  else .error (.malformed "bad r2 frag kind")

/-- The id field of a FRAG frame. -/
def decodeFragId (b : Bytes) (inline : Bool) (off : Nat) :
    Except MqpError (Option UInt32 × Nat) := do
  if inline then .ok (none, off)
  else
    let (id, off) ← getWireId "r2 frag id 0" b off
    .ok (some id, off)

/-- The session and address fields of a FRAG frame. -/
def decodeFragCtx (b : Bytes) (bound : Bool) (off : Nat) :
    Except MqpError (Option UInt32 × Option TargetAddr × Nat) := do
  if bound then
    let (sess, off) ← getU32 b off
    let (addr, n) ← TargetAddr.decode (b.drop off)
    .ok (some sess, some addr, off + n)
  else .ok (none, none, off)

/-- Read a FRAG frame of any form. -/
def decodeFrag (b : Bytes) : Except MqpError FragRef := do
  let (off, bound, inline, src) ← decodeFragKind b
  let (id, off) ← decodeFragId b inline off
  let (fragId, off) ← getU32 b off
  let idx ← readByte (.malformed "short r2 frag idx") b off
  let total ← readByte (.malformed "short r2 frag total") b (off + 1)
  let (sess, addr, off) ← decodeFragCtx b bound (off + 2)
  let chunk := b.drop off
  let _ ← ensure (fragMetaOk idx total chunk) (.malformed "bad r2 frag meta")
  .ok ⟨id, sess, addr, src, fragId, idx, total, off, chunk⟩

def trainFormSame : UInt8 := 0
def trainFormDict : UInt8 := 1

section

variable (flows : List UInt32) (items : List (UInt8 × Bytes))

def validTrainCount (n : Nat) : Bool := !(n == 0 || maxTrainItems < n)

/-- The item length the encoders write: `as u32` drops everything above 32 bits. -/
def itemLen32 (p : Bytes) : UInt32 := UInt32.ofNat p.length

/-- Wire length of a train of one flow. -/
def trainSameLen (payloads : List Bytes) : Option Nat :=
  if !validTrainCount payloads.length then none
  else if !validWireId id then none
  else payloads.foldlM (fun total p => checkedAdd total (varintLen (itemLen32 p) + p.length))
    (3 + varintLen id)

/-- The shape of a dictionary: distinct valid ids, no more than items, indexes inside. -/
def validTrainFlows : Bool :=
  !(flows.isEmpty || 255 < flows.length || maxTrainItems < flows.length) &&
    !(items.length < flows.length : Bool) && (flows.all fun f => validWireId f) && flows.Nodup &&
    items.all fun item => item.1.toNat < flows.length

/-- Wire length of a train with a dictionary. -/
def trainDictLen : Option Nat :=
  if !validTrainCount items.length then none
  else if !validTrainFlows flows items then none
  else do
    let total ← flows.foldlM (fun total f => checkedAdd total (varintLen f)) 4
    items.foldlM (fun total item =>
      checkedAdd total (1 + varintLen (itemLen32 item.2) + item.2.length)) total

end

def encodeTrainSame (payloads : List Bytes) (limit : Nat) : Option Bytes := do
  let total ← trainSameLen id payloads
  if total > limit then none
  else some (kindTrain :: trainFormSame :: UInt8.ofNat payloads.length ::
    (putVarint id ++ payloads.flatMap fun p => putVarint (itemLen32 p) ++ p))

end

def encodeTrainDict (flows : List UInt32) (items : List (UInt8 × Bytes)) (limit : Nat) :
    Option Bytes := do
  let total ← trainDictLen flows items
  if total > limit then none
  else some (kindTrain :: trainFormDict :: UInt8.ofNat items.length ::
    UInt8.ofNat flows.length :: (flows.flatMap putVarint ++
      items.flatMap fun item => item.1 :: (putVarint (itemLen32 item.2) ++ item.2)))

/-- View of a decoded train. -/
structure TrainFrame where
  form : UInt8
  count : UInt8
  nfl : UInt8
  /-- The listed flows. The source pads them with zeros to a fixed array. -/
  flows : List UInt32
  itemBytes : Bytes

section

variable (b : Bytes) (form count : UInt8)

/-- The decoder's reader of an item length. -/
def getItemLen (off : Nat) : Except MqpError (Nat × Nat) :=
  (getVarint b off).map fun r => (r.1.toNat, r.2)

def decodeFlows : Except MqpError (List UInt32 × Nat) := do
  if form = trainFormSame then
    let (id, off) ← getWireId "r2 train id 0" b 3
    .ok ([id], off)
  else if form = trainFormDict then
    let nfl ← readByte (.malformed "short r2 train dict") b 3
    let _ ← ensure (!(nfl == 0 || count < nfl || maxTrainItems < nfl.toNat))
      (.malformed "bad r2 train dict")
    readDistinct getVarint validWireId (.malformed "bad r2 train flow id") b nfl.toNat 4 []
  else .error (.malformed "bad r2 train form")

/-- Walk `n` items from offset `p` on, with an index in front of each under a dictionary. -/
def checkItems (dict : Option Nat) (n p : Nat) : Except MqpError Nat :=
  walkItems
    (itemHead (.malformed "short r2 train item") (.malformed "bad r2 train item flow") getItemLen
      dict)
    (.malformed "r2 train item overflow") (.malformed "bad r2 train item length") b n p

/-- The bound of item indexes, for the form that has them. -/
def dictOf (flows : List UInt32) : Option Nat :=
  if form = trainFormDict then some flows.length else none

def decodeTrain : Except MqpError TrainFrame := do
  let b0 ← readByte (.malformed "bad r2 train kind") b 0
  let _ ← ensure (b0 == kindTrain) (.malformed "bad r2 train kind")
  let form ← readByte (.malformed "short r2 train") b 1
  let count ← readByte (.malformed "short r2 train count") b 2
  let _ ← ensure (validTrainCount count.toNat) (.malformed "bad r2 train count")
  let (flows, off) ← decodeFlows b form count
  let p ← checkItems b (dictOf form flows) count.toNat off
  let _ ← ensure (p == b.length) (.malformed "r2 train trailing bytes")
  .ok ⟨form, count, UInt8.ofNat flows.length, flows, b.drop off⟩

end

/-- The state of the item iterator. -/
structure TrainItems where
  form : UInt8
  nfl : Nat
  flows : List UInt32
  items : Bytes

/-- Start iterating a decoded train. -/
def TrainFrame.items (f : TrainFrame) : TrainItems := ⟨f.form, f.nfl.toNat, f.flows, f.itemBytes⟩

/-- The iterator's reader of an item length. -/
def itemLenAt (b : Bytes) (off : Nat) : Option (Nat × Nat) :=
  (varintAt b off).map fun r => (r.1.toNat, r.2)

namespace TrainItems

/-- The flow of the next item and where its length stands. -/
def flow (it : TrainItems) : Option (UInt32 × Nat) := do
  if it.form = trainFormDict then
    let idx ← it.items[0]?
    if it.nfl ≤ idx.toNat then none else some (it.flows.getD idx.toNat 0, 1)
  else if it.form = trainFormSame then some (it.flows.getD 0 0, 0)
  else none

/-- One step of the iterator; a step that ends it leaves the octets alone. -/
def next (it : TrainItems) : Option (UInt32 × Bytes) × TrainItems :=
  if it.items.isEmpty then (none, it)
  else
    match it.flow with
    | none => (none, it)
    | some (id, off) =>
      match takeItem itemLenAt it.items off with
      | none => (none, it)
      | some (payload, rest) => (some (id, payload), { it with items := rest })

end TrainItems

end MyQuic2.Rev2
