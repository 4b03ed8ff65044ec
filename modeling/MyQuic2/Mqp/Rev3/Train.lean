import MyQuic2.Core.Field
import MyQuic2.Mqp.Rev3.RoundTrip

/-!
# Rev3 TRAIN frames

A train carries up to 64 payloads: of one flow with one length each, of one flow
with a common length, or of several flows named in a dictionary. The decoder
walks the whole frame once and keeps only a view; the iterator walks the same
octets again with readers of its own.
-/

namespace MyQuic2.Rev3

def trainFormSame : UInt8 := 0
def trainFormSameEqual : UInt8 := 1
def trainFormDict : UInt8 := 2

def trainFormMask : UInt8 := 0x30
def trainFormShift : UInt8 := 4
def trainReservedMask : UInt8 := 0x0F

def validTrainCount (n : Nat) : Bool := 1 ≤ n && n ≤ maxTrainItems

/-- Octets of an item length field: one below the escape, three up to `u16::MAX`. -/
def itemLenLen (n : Nat) : Option Nat :=
  if n < 0xFF then some 1 else if n ≤ 0xFFFF then some 3 else none

section

variable (fid : UInt16) (payloads : List Bytes)

/-- The octets of an item length field; a length above `u16::MAX` writes nothing. -/
def putItemLen (n : Nat) : Bytes :=
  if n < 0xFF then [UInt8.ofNat n] else if n ≤ 0xFFFF then 0xFF :: leBytes 2 n else []

/-- The decoder's reader of an item length. -/
def getItemLen (b : Bytes) (off : Nat) : Except MqpError (Nat × Nat) := do
  let first ← readByte (.malformed "truncated r3 train item len") b off
  if first = 0xFF then
    let (n, off) ← getU16 b (off + 1)
    .ok (n.toNat, off)
  else .ok (first.toNat, off + 1)

section

variable (flows : List UInt16) (items : List (UInt8 × Bytes))

/-- The iterator's reader of an item length. -/
def itemLenAt (b : Bytes) (off : Nat) : Option (Nat × Nat) := do
  let first ← b[off]?
  if first = 0xFF then
    let stop ← checkedAdd (off + 1) 2
    let s ← slice b (off + 1) stop
    some ((UInt16.ofNat (ofLeBytes s)).toNat, stop)
  else some (first.toNat, off + 1)

/-- Wire length of a train of one flow. -/
def trainSameLen : Option Nat :=
  if !validTrainCount payloads.length then none
  else if !validFid fid then none
  else payloads.foldlM (fun total p => do
    let total ← checkedAdd total (← itemLenLen p.length)
    checkedAdd total p.length) 4

/-- Wire length of a train of one flow whose items all have one length. -/
def trainSameEqualLen : Option Nat :=
  if !validTrainCount payloads.length then none
  else if !validFid fid then none
  else do
    let itemLen := (← payloads.head?).length
    if payloads.any fun p => p.length != itemLen then none
    else
      let total ← checkedAdd 4 (← itemLenLen itemLen)
      let body ← checkedMul itemLen payloads.length
      checkedAdd total body

/-- The shape of a dictionary: distinct valid ids, no more than items, indexes inside. -/
def validTrainFlows : Bool :=
  !(flows.isEmpty || maxTrainItems < flows.length || items.length < flows.length) &&
    (flows.all fun f => validFid f) && flows.Nodup &&
    items.all fun item => item.1.toNat < flows.length

/-- Wire length of a train with a dictionary. -/
def trainDictLen : Option Nat :=
  if !validTrainCount items.length then none
  else if !validTrainFlows flows items then none
  else do
    let total ← flows.foldlM (fun total _ => checkedAdd total 2) 3
    items.foldlM (fun total item => do
      let total ← checkedAdd total 1
      let total ← checkedAdd total (← itemLenLen item.2.length)
      checkedAdd total item.2.length) total

end

def encodeTrainSame (limit : Nat) : Option Bytes := do
  let total ← trainSameLen fid payloads
  if total > limit then none
  else
    let v := (classTrain ||| trainFormSame) :: (putU16 fid ++ (UInt8.ofNat payloads.length ::
      payloads.flatMap fun p => putItemLen p.length ++ p))
    if v.length ≠ total then none else some v

def encodeTrainSameEqual (limit : Nat) : Option Bytes := do
  let total ← trainSameEqualLen fid payloads
  if total > limit then none
  else
    let itemLen := (← payloads.head?).length
    let v := (classTrain ||| (trainFormSameEqual <<< trainFormShift)) :: (putU16 fid ++
      (UInt8.ofNat payloads.length :: (putItemLen itemLen ++ payloads.flatten)))
    if v.length ≠ total then none else some v

end

def encodeTrainDict (flows : List UInt16) (items : List (UInt8 × Bytes)) (limit : Nat) :
    Option Bytes := do
  let total ← trainDictLen flows items
  if total > limit then none
  else
    let v := (classTrain ||| (trainFormDict <<< trainFormShift)) :: UInt8.ofNat flows.length ::
      UInt8.ofNat items.length :: (flows.flatMap putU16 ++
        items.flatMap fun item => item.1 :: (putItemLen item.2.length ++ item.2))
    if v.length ≠ total then none else some v

/-- View of a decoded train. -/
structure TrainFrame where
  form : UInt8
  count : UInt8
  nfl : UInt8
  /-- Common item length; zero for the other forms. -/
  itemLen : Nat
  /-- The listed flows. The source pads them with zeros to a fixed array. -/
  flows : List UInt16
  itemBytes : Bytes

/-- Read `n` more dictionary entries. -/
def decodeFlows (b : Bytes) (n off : Nat) (flows : List UInt16) :
    Except MqpError (List UInt16 × Nat) :=
  readDistinct getU16 validFid (.malformed "bad r3 train dict fid") b n off flows

/-- Walk `n` items from offset `p` on, with an index in front of each under a dictionary. -/
def checkItems (b : Bytes) (dict : Option Nat) (n p : Nat) : Except MqpError Nat :=
  walkItems
    (itemHead (.malformed "short r3 train item") (.malformed "bad r3 train item fid") getItemLen dict)
    (.malformed "r3 train item overflow") (.malformed "bad r3 train item length") b n p

def decodeTrain (b : Bytes) : Except MqpError TrainFrame := do
  let b0 ← readByte (.malformed "empty r3 frame") b 0
  let _ ← ensure (b0 &&& classMask == classTrain) (.malformed "bad r3 train kind")
  let _ ← ensure (b0 &&& trainReservedMask == 0) (.malformed "bad r3 train reserved")
  let form := (b0 &&& trainFormMask) >>> trainFormShift
  if form = trainFormSame ∨ form = trainFormSameEqual then
    let (fid, off) ← getU16 b 1
    let _ ← ensure (validFid fid) (.malformed "bad r3 train fid")
    let count ← readByte (.malformed "short r3 train count") b off
    let off := off + 1
    let _ ← ensure (validTrainCount count.toNat) (.malformed "bad r3 train count")
    if form = trainFormSameEqual then
      let (n, off) ← getItemLen b off
      match checkedMul count.toNat n with
      | none => .error (.malformed "r3 train items overflow")
      | some body =>
        match checkedAdd off body with
        | none => .error (.malformed "r3 train items overflow")
        | some stop =>
          let _ ← ensure (stop ≤ b.length) (.malformed "bad r3 train item length")
          let _ ← ensure (stop == b.length) (.malformed "r3 train trailing bytes")
          .ok ⟨form, count, 1, n, [fid], b.drop off⟩
    else
      let p ← checkItems b none count.toNat off
      let _ ← ensure (p == b.length) (.malformed "r3 train trailing bytes")
      .ok ⟨form, count, 1, 0, [fid], b.drop off⟩
  else if form = trainFormDict then
    let nfl ← readByte (.malformed "short r3 train nfl") b 1
    let count ← readByte (.malformed "short r3 train count") b 2
    let _ ← ensure (validTrainCount count.toNat) (.malformed "bad r3 train count")
    let _ ← ensure (!(nfl == 0 || count < nfl)) (.malformed "bad r3 train nfl")
    let (flows, off) ← decodeFlows b nfl.toNat 3 []
    let p ← checkItems b (some nfl.toNat) count.toNat off
    let _ ← ensure (p == b.length) (.malformed "r3 train trailing bytes")
    .ok ⟨form, count, nfl, 0, flows, b.drop off⟩
  else .error (.malformed "bad r3 train form")

/-- The state of the item iterator. -/
structure TrainItems where
  form : UInt8
  remaining : UInt8
  itemLen : Nat
  nfl : Nat
  flows : List UInt16
  items : Bytes

/-- Start iterating a decoded train. -/
def TrainFrame.items (f : TrainFrame) : TrainItems :=
  ⟨f.form, f.count, f.itemLen, f.nfl.toNat, f.flows, f.itemBytes⟩

namespace TrainItems

/-- One step of the iterator. The counter drops even when the step then ends it. -/
def next (it : TrainItems) : Option (UInt16 × Bytes) × TrainItems :=
  if it.remaining = 0 then (none, it)
  else
    let it := { it with remaining := it.remaining - 1 }
    if it.form = trainFormSame then
      match takeItem itemLenAt it.items 0 with
      | none => (none, it)
      | some (payload, rest) => (some (it.flows.getD 0 0, payload), { it with items := rest })
    else if it.form = trainFormSameEqual then
      match slice it.items 0 it.itemLen with
      | none => (none, it)
      | some payload =>
        (some (it.flows.getD 0 0, payload), { it with items := it.items.drop it.itemLen })
    else if it.form = trainFormDict then
      match it.items[0]? with
      | none => (none, it)
      | some idx =>
        if it.nfl ≤ idx.toNat then (none, it)
        else
          match takeItem itemLenAt it.items 1 with
          | none => (none, it)
          | some (payload, rest) =>
            (some (it.flows.getD idx.toNat 0, payload), { it with items := rest })
    else (none, it)

end TrainItems

end MyQuic2.Rev3
