import MyQuic2.Core.Reader
import MyQuic2.Mqp.Addr

/-!
# Rev3 frames: flow ids, DATA and FRAG

The class of a frame is in the top two bits of its first octet. A steady DATA
frame packs a 14-bit flow id into its first two octets; every other form names
its fields in little-endian words of fixed width. The id space is split by
owner, and the forms that open a flow fix the half their id has to come from.
-/

namespace MyQuic2.Rev3

def classMask : UInt8 := 0xC0
def classData : UInt8 := 0x00
def classDataExt : UInt8 := 0x40
def classTrain : UInt8 := 0x80
def classFrag : UInt8 := 0xC0

def formOpen : UInt8 := 0x01
def formSrc : UInt8 := 0x02
def formOpenSrc : UInt8 := 0x03
def formInline : UInt8 := 0x04

def extReservedMask : UInt8 := 0x30
def extFlagsMask : UInt8 := 0x0F

def fidMax : UInt16 := 0x3FFF
def clientFidMax : UInt16 := 0x1FFF
def serverFidBase : UInt16 := 0x2000

def maxTrainItems : Nat := 64
def maxFragTotal : UInt8 := 64
def maxFragBytes : Nat := 8192

/-- Frame class of a rev3 frame. -/
inductive Kind where
  | data
  | dataExt
  | train
  | frag

/-- Classify the first octet; only the empty string has no class. -/
def kind (b : Bytes) : Option Kind :=
  b[0]?.map fun b0 =>
    if b0 &&& classMask = classData then .data
    else if b0 &&& classMask = classDataExt then .dataExt
    else if b0 &&& classMask = classTrain then .train
    else .frag

/-- Which endpoint allocated a flow id. -/
inductive FidOwner where
  /-- Ids `0x0000..=0x1FFF`. -/
  | client
  /-- Ids `0x2000..=0x3FFF`. -/
  | server
  deriving DecidableEq

section

variable (owner : FidOwner) (fid : UInt16)

def isClientFid : Bool := fid ≤ clientFidMax

def isServerFid : Bool := serverFidBase ≤ fid && fid ≤ fidMax

/-- The frame has room for the id. -/
def validFid : Bool := fid ≤ fidMax

/-- The id lies in the half of the given owner. -/
def ownedBy : Bool :=
  match owner with
  | .client => isClientFid fid
  | .server => isServerFid fid

def requireFidOwner (owner : FidOwner) (bad : String) : Except MqpError Unit :=
  ensure (ownedBy owner fid) (.malformed bad)

end

/-- The owner the opening forms require: the server for a source, the client for a target. -/
def openOwner (src : Bool) : FidOwner := if src then .server else .client

def getU16 (b : Bytes) (off : Nat) : Except MqpError (UInt16 × Nat) :=
  (readWord (.malformed "r3 u16 offset overflow") (.malformed "truncated r3 u16") 2 b off).map
    fun r => (UInt16.ofNat r.1, r.2)

def getU32 (b : Bytes) (off : Nat) : Except MqpError (UInt32 × Nat) :=
  readU32 (.malformed "r3 u32 offset overflow") (.malformed "truncated r3 u32") b off

def putU16 (n : UInt16) : Bytes := leBytes 2 n.toNat

def putU32 (n : UInt32) : Bytes := u32Bytes n

/-- Check the reserved bits of an extended first octet and return its form bits. -/
def extFlags (b0 : UInt8) (badReserved : String) : Except MqpError UInt8 :=
  if b0 &&& extReservedMask ≠ 0 then .error (.malformed badReserved)
  else .ok (b0 &&& extFlagsMask)

/-- View of a decoded DATA frame. -/
structure DataRef where
  fid : Option UInt16
  /-- Present on the opening forms and the inline form. -/
  sess : Option UInt32
  addr : Option TargetAddr
  /-- The address is a source, not a target. -/
  src : Bool
  payload : Bytes

def dataSteadyLen (payloadLen : Nat) : Nat := 2 + payloadLen

def dataOpenLen (addrLen payloadLen : Nat) : Nat := 7 + addrLen + payloadLen

section

variable (fid : UInt16) (sess : UInt32) (addr : TargetAddr) (src : Bool) (payload : Bytes)
  (limit : Nat)

def dataSrcLen (addrLen payloadLen : Nat) : Nat := 3 + addrLen + payloadLen

def dataInlineLen (addrLen payloadLen : Nat) : Nat := 5 + addrLen + payloadLen

/-- The payload behind its id. -/
def encodeDataSteady : Option Bytes :=
  if !validFid fid then none
  else if dataSteadyLen payload.length > limit then none
  else some (((fid >>> 8).toUInt8 &&& 0x3F) :: fid.toUInt8 :: payload)

def encodeDataOpen : Option Bytes := do
  let _ ← (requireFidOwner fid (openOwner src) "r3 data open fid owner").toOption
  let header ← addr.header.toOption
  if dataOpenLen header.len payload.length > limit then none
  else
    let flags := if src then formOpenSrc else formOpen
    some ((classDataExt ||| flags) ::
      (putU16 fid ++ (putU32 sess ++ (header.encodeInto ++ payload))))

def encodeDataSrc : Option Bytes :=
  if !validFid fid then none
  else do
    let header ← addr.header.toOption
    if dataSrcLen header.len payload.length > limit then none
    else some ((classDataExt ||| formSrc) :: (putU16 fid ++ (header.encodeInto ++ payload)))

def encodeDataInline : Option Bytes := do
  let header ← addr.header.toOption
  if dataInlineLen header.len payload.length > limit then none
  else some ((classDataExt ||| formInline) :: (putU32 sess ++ (header.encodeInto ++ payload)))

end

/-- Read a DATA frame of any form. -/
def decodeData (b : Bytes) : Except MqpError DataRef := do
  let b0 ← readByte (.malformed "empty r3 frame") b 0
  if b0 &&& classMask = classData then
    let b1 ← readByte (.malformed "short r3 data") b 1
    -- The id's high six bits come first.
    let fid := ((b0 &&& 0x3F).toUInt16 <<< 8) ||| b1.toUInt16
    .ok ⟨some fid, none, none, false, b.drop 2⟩
  else if b0 &&& classMask = classDataExt then
    let flags ← extFlags b0 "bad r3 data reserved"
    if flags = formOpen ∨ flags = formOpenSrc then
      let src := flags == formOpenSrc
      let (fid, off) ← getU16 b 1
      let _ ← requireFidOwner fid (openOwner src) "r3 data open fid owner"
      let (sess, off) ← getU32 b off
      let (addr, n) ← TargetAddr.decode (b.drop off)
      .ok ⟨some fid, some sess, some addr, src, b.drop (off + n)⟩
    else if flags = formSrc then
      let (fid, off) ← getU16 b 1
      let _ ← ensure (validFid fid) (.malformed "bad r3 data fid")
      let (addr, n) ← TargetAddr.decode (b.drop off)
      .ok ⟨some fid, none, some addr, true, b.drop (off + n)⟩
    else if flags = formInline then
      let (sess, off) ← getU32 b 1
      let (addr, n) ← TargetAddr.decode (b.drop off)
      .ok ⟨none, some sess, some addr, false, b.drop (off + n)⟩
    else .error (.malformed "bad r3 data flags")
  else .error (.malformed "bad r3 data kind")

/-- View of a decoded FRAG frame. -/
structure FragRef where
  fid : Option UInt16
  /-- Present on the opening forms and the inline form. -/
  sess : Option UInt32
  addr : Option TargetAddr
  /-- The address is a source, not a target. -/
  src : Bool
  fragId : UInt32
  idx : UInt8
  total : UInt8
  chunkOff : Nat
  chunk : Bytes

def fragSteadyLen (chunkLen : Nat) : Nat := 9 + chunkLen

def fragOpenLen (addrLen chunkLen : Nat) : Nat := 13 + addrLen + chunkLen

def fragSrcLen (addrLen chunkLen : Nat) : Nat := 9 + addrLen + chunkLen

section

variable (fid : UInt16) (sess : UInt32) (addr : TargetAddr) (src : Bool) (fragId : UInt32)
  (idx total : UInt8)

variable (chunk : Bytes) (limit : Nat)

def fragInlineLen (addrLen chunkLen : Nat) : Nat := 11 + addrLen + chunkLen

/-- Bounds shared by the encoder and the decoder. -/
def fragMetaOk : Bool :=
  (1 ≤ total && total ≤ maxFragTotal) && idx < total && !chunk.isEmpty &&
    chunk.length ≤ maxFragBytes

/-- A chunk behind its id. -/
def encodeFragSteady : Option Bytes :=
  if !validFid fid || !fragMetaOk idx total chunk then none
  else if fragSteadyLen chunk.length > limit then none
  else some (classFrag :: (putU16 fid ++ (putU32 fragId ++ (idx :: total :: chunk))))

def encodeFragOpen : Option Bytes := do
  let _ ← (requireFidOwner fid (openOwner src) "r3 frag open fid owner").toOption
  if !fragMetaOk idx total chunk then none
  else
    let header ← addr.header.toOption
    if fragOpenLen header.len chunk.length > limit then none
    else
      let flags := if src then formOpenSrc else formOpen
      some ((classFrag ||| flags) :: (putU16 fid ++ (putU32 fragId ++ (idx :: total ::
        (putU32 sess ++ (header.encodeInto ++ chunk))))))

def encodeFragSrc : Option Bytes :=
  if !validFid fid || !fragMetaOk idx total chunk then none
  else do
    let header ← addr.header.toOption
    if fragSrcLen header.len chunk.length > limit then none
    else some ((classFrag ||| formSrc) :: (putU16 fid ++ (putU32 fragId ++ (idx :: total ::
      (header.encodeInto ++ chunk)))))

def encodeFragInline : Option Bytes :=
  if !fragMetaOk idx total chunk then none
  else do
    let header ← addr.header.toOption
    if fragInlineLen header.len chunk.length > limit then none
    else some ((classFrag ||| formInline) :: (putU32 fragId ++ (idx :: total ::
      (putU32 sess ++ (header.encodeInto ++ chunk)))))

end

variable (b : Bytes) (flags : UInt8)

/-- The id field of a FRAG frame, by form, with the source mark. -/
def decodeFragId : Except MqpError (Option UInt16 × Bool × Nat) := do
  if flags = 0 then
    let (fid, off) ← getU16 b 1
    let _ ← ensure (validFid fid) (.malformed "bad r3 frag fid")
    .ok (some fid, false, off)
  else if flags = formOpen ∨ flags = formOpenSrc then
    let src := flags == formOpenSrc
    let (fid, off) ← getU16 b 1
    let _ ← requireFidOwner fid (openOwner src) "r3 frag open fid owner"
    .ok (some fid, src, off)
  else if flags = formSrc then
    let (fid, off) ← getU16 b 1
    let _ ← ensure (validFid fid) (.malformed "bad r3 frag fid")
    .ok (some fid, true, off)
  else if flags = formInline then .ok (none, false, 1)
  else .error (.malformed "bad r3 frag flags")

/-- The session and address fields of a FRAG frame, by form. -/
def decodeFragCtx (off : Nat) : Except MqpError (Option UInt32 × Option TargetAddr × Nat) := do
  if flags = formOpen ∨ flags = formOpenSrc ∨ flags = formInline then
    let (sess, off) ← getU32 b off
    let (addr, n) ← TargetAddr.decode (b.drop off)
    .ok (some sess, some addr, off + n)
  else if flags = formSrc then
    let (addr, n) ← TargetAddr.decode (b.drop off)
    .ok (none, some addr, off + n)
  else .ok (none, none, off)

/-- Read a FRAG frame of any form. -/
def decodeFrag : Except MqpError FragRef := do
  let b0 ← readByte (.malformed "empty r3 frame") b 0
  let _ ← ensure (b0 &&& classMask == classFrag) (.malformed "bad r3 frag kind")
  let flags ← extFlags b0 "bad r3 frag reserved"
  let (fid, src, off) ← decodeFragId b flags
  let (fragId, off) ← getU32 b off
  let idx ← readByte (.malformed "short r3 frag idx") b off
  let total ← readByte (.malformed "short r3 frag total") b (off + 1)
  let (sess, addr, off) ← decodeFragCtx b flags (off + 2)
  let chunk := b.drop off
  let _ ← ensure (fragMetaOk idx total chunk) (.malformed "bad r3 frag meta")
  .ok ⟨fid, sess, addr, src, fragId, idx, total, off, chunk⟩

end MyQuic2.Rev3
