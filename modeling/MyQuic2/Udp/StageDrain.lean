import MyQuic2.Core.Run
import MyQuic2.Udp.StageBatch

/-!
# Drains and direct sends

Producers push into the stager, one drain at a time holds the gate, and a lone
payload may be sent past the queue by a call that found the queue empty and then took
the gate. Every step between two lock operations is one event of the machine, so that
its runs are the interleavings of any number of producers, drains and direct sends.
A whole drain, while other tasks go on between its locked sections, is such a run.
-/

namespace MyQuic2

open List R2StageItem

/-- What a producer hands over. -/
structure StagePayload where
  session : UInt32
  kind : R2StageKind
  payload : Bytes

/-- The item of a payload, under the number of its push. -/
def StagePayload.item (p : StagePayload) (serial : Nat) : R2StageItem :=
  ⟨p.session, p.kind, p.payload, serial⟩

/-- The items of a burst. -/
def numbered : Nat → List StagePayload → List R2StageItem
  | _, [] => []
  | n, p :: ps => p.item n :: numbered (n + 1) ps

/-- A direct send that found the queue empty, with the pushes there had been. -/
structure DirectCall where
  item : R2StageItem
  began : Nat
  wire : Wire

/-- What the holder of the gate has come to. -/
inductive DrainGate where
  | free
  | draining
  /-- A drain has handed over so many frames of its batch. -/
  | sending (q : PackedFrames) (frames : Nat)
  /-- The connection has refused the frame behind so many. -/
  | refused (q : PackedFrames) (frames : Nat)
  | direct (call : DirectCall)

/-- One payload handed to the connection. -/
inductive HandedOver where
  | drained (item : R2StageItem)
  | direct (item : R2StageItem) (began : Nat)
  deriving DecidableEq

def HandedOver.drained? : HandedOver → Option R2StageItem
  | drained item => some item
  | direct _ _ => none

/-- Stager and gate of one connection, the direct sends between their two locks, and a record of
where each item went. -/
structure StageTasks where
  stager : R2Stager
  gate : DrainGate
  calls : List DirectCall
  accepted : List R2StageItem
  handed : List HandedOver
  booked : List (DgramDrop × R2StageItem)
  cleared : List R2StageItem
  clearCount : Nat
  overflowed : List R2StageItem

/-- Steps of the tasks of a connection, each under one lock or between two. -/
inductive StageEvent where
  | push (p : StagePayload)
  | pushBatch (ps : List StagePayload)
  | setMaxTrainItems (n : UInt8)
  | dropSession (session : UInt32)
  | dropFlow (wireId : UInt32)
  | dropFlowScoped (session wireId : UInt32)
  | clear
  | takeGate
  | claim (limit maxFrames maxItems : Nat)
  | encode (limit : Nat)
  | send (verdict : DatagramSend)
  | finish
  | requeue
  | release
  | directTest (p : StagePayload)
  | directGate (i : Nat)
  | directSend (limit : Nat) (verdict : DatagramSend)

namespace StageTasks

def new (maxItems maxBytes : Nat) (wire : Wire) : StageTasks where
  stager := .withCapacityWire maxItems maxBytes wire
  gate := .free
  calls := []
  accepted := []
  handed := []
  booked := []
  cleared := []
  clearCount := 0
  overflowed := []

/-- Items given up under one counter. -/
def book (t : StageTasks) (drop : DgramDrop) (items : List R2StageItem) : StageTasks :=
  { t with booked := t.booked ++ items.map fun item => (drop, item) }

def push (t : StageTasks) (p : StagePayload) : StageTasks :=
  match t.stager.push (p.item t.accepted.length) with
  | none => t
  | some st => { t with stager := st, accepted := t.accepted ++ [p.item t.accepted.length] }

def pushBatch (t : StageTasks) (ps : List StagePayload) : StageTasks :=
  let items := numbered t.accepted.length ps
  let (st, rest) := t.stager.pushBatch items
  { t with stager := st, accepted := t.accepted ++ items.take (items.length - rest.length) }

variable (t : StageTasks) (limit maxFrames maxItems : Nat) (q : PackedFrames)

/-- A drop under the stager's lock. -/
def drop (out : R2Stager × List R2StageItem) : StageTasks :=
  { t with stager := out.1 }.book .egressDead out.2

def clear (t : StageTasks) : StageTasks :=
  { t with
    stager := t.stager.clear.1
    cleared := t.cleared ++ t.stager.queued
    clearCount := t.clearCount + t.stager.clear.2 }

def takeGate : StageTasks :=
  match t.gate with
  | .free => { t with gate := .draining }
  | _ => t

/-- A batch claimed behind what the drain has already. -/
def claimInto : StageTasks :=
  let c := t.stager.claimBatch limit maxFrames maxItems q
  { t with stager := c.stager, gate := .sending c.q 0 }.book .tooLarge c.booked

def claim : StageTasks :=
  match t.gate with
  | .draining => t.claimInto limit maxFrames maxItems (.empty t.stager.wire)
  | .sending q 0 => t.claimInto limit maxFrames maxItems q
  | _ => t

def encode : StageTasks :=
  match t.gate with
  | .sending q 0 =>
    { t with gate := .sending (q.encodeClaimed limit).1 0 }.book .tooLarge (q.encodeClaimed limit).2
  | _ => t

section

variable (frames : Nat) (f : PackedFrame) (verdict : DatagramSend)

/-- The next frame of a batch meets the connection. A frame without a body was never encoded. -/
def sendFrame : StageTasks :=
  if f.body = none then { t with gate := .refused q frames }.book .tooLarge (q.run f)
  else if verdict = .sent then
    { t with
      gate := .sending q (frames + 1)
      handed := t.handed ++ (q.run f).map .drained }
  else { t with gate := .refused q frames }.book verdict.bookedAs (q.run f)

def send : StageTasks :=
  match t.gate with
  | .sending q frames =>
    match q.frames[frames]? with
    | none => t
    | some f => t.sendFrame q frames f verdict
  | _ => t

/-- All frames of the batch are handed over. -/
def finish : StageTasks :=
  match t.gate with
  | .sending q frames => if q.frames.length ≤ frames then { t with gate := .draining } else t
  | _ => t

def requeue : StageTasks :=
  match t.gate with
  | .refused q frames =>
    let out := t.stager.requeueUnsent q frames
    { t with stager := out.1, gate := .draining, overflowed := t.overflowed ++ out.2 }
  | _ => t

def release : StageTasks :=
  match t.gate with
  | .draining => { t with gate := .free }
  | _ => t

/-- The first half of a direct send, under the stager's lock. -/
def directTest (p : StagePayload) : StageTasks :=
  if t.stager.isEmpty && t.stager.accepts p.payload.length then
    { t with
      calls := t.calls ++ [⟨p.item t.accepted.length, t.accepted.length, t.stager.wire⟩] }
  else t

/-- The gate is free for a direct send, or the call hands its item back. -/
def directGate (i : Nat) : StageTasks :=
  match t.calls[i]?, t.gate with
  | none, _ => t
  | some call, .free => { t with calls := t.calls.eraseIdx i, gate := .direct call }
  | some _, _ => { t with calls := t.calls.eraseIdx i }

/-- The second half of a direct send, with the gate held. -/
def directSend : StageTasks :=
  match t.gate with
  | .direct call =>
    if (encodeStandaloneItemFor call.wire call.item limit).isSome ∧ verdict = .sent then
      { t with gate := .free, handed := t.handed ++ [.direct call.item call.began] }
    else { t with gate := .free }
  | _ => t

end

/-- A step that does not apply leaves the tasks as they are. -/
def next : StageEvent → StageTasks
  | .push p => t.push p
  | .pushBatch ps => t.pushBatch ps
  | .setMaxTrainItems n => { t with stager := t.stager.setMaxTrainItems n }
  | .dropSession s => t.drop (t.stager.dropSession s)
  | .dropFlow wireId => t.drop (t.stager.dropFlow wireId)
  | .dropFlowScoped s wireId => t.drop (t.stager.dropFlowScoped s wireId)
  | .clear => t.clear
  | .takeGate => t.takeGate
  | .claim limit maxFrames maxItems => t.claim limit maxFrames maxItems
  | .encode limit => t.encode limit
  | .send verdict => t.send verdict
  | .finish => t.finish
  | .requeue => t.requeue
  | .release => t.release
  | .directTest p => t.directTest p
  | .directGate i => t.directGate i
  | .directSend limit verdict => t.directSend limit verdict

end StageTasks

def DrainGate.claimed : DrainGate → List R2StageItem
  | sending q frames => (q.frames.drop frames).flatMap q.run
  | refused q frames => (q.frames.drop (frames + 1)).flatMap q.run
  | free | draining | direct _ => []

/-- The frames of a batch in flight tile its items. -/
def DrainGate.Packed : DrainGate → Prop
  | sending q _ => q.Packed
  | refused q _ => q.Packed
  | free | draining | direct _ => True

namespace PackedFrames

variable {q : PackedFrames}

lemma flatMap_run_of_getElem? {k : Nat} {f : PackedFrame} (hf : q.frames[k]? = some f) :
    (q.frames.drop k).flatMap q.run = q.run f ++ (q.frames.drop (k + 1)).flatMap q.run := by
  obtain ⟨hk, hget⟩ := List.getElem?_eq_some_iff.mp hf
  rw [List.drop_eq_getElem_cons hk, hget, List.flatMap_cons]

lemma Packed.flatMap_run (h : q.Packed) (k : Nat) :
    (q.frames.drop k).flatMap q.run = q.unsent k := by
  obtain ⟨n, hn⟩ : ∃ n, n = q.frames.length - k := ⟨_, rfl⟩
  induction n generalizing k with
  | zero =>
    have hle : q.frames.length ≤ k := by omega
    rw [drop_eq_nil_of_le hle,
      unsent_of_getElem?_eq_none (getElem?_eq_none_iff.mpr hle), flatMap_nil]
  | succ n ih =>
    have hf := getElem?_eq_getElem (show k < q.frames.length by omega)
    rw [flatMap_run_of_getElem? hf, h.unsent_eq hf, ih (k + 1) (by omega)]

end PackedFrames

namespace StageTasks

def drained (t : StageTasks) : List R2StageItem := t.handed.filterMap HandedOver.drained?

/-- Every place an item can be in: queued, claimed, handed over, given up, cleared or refused by
a full queue when it was put back. -/
def whereabouts (t : StageTasks) : List R2StageItem :=
  t.stager.queued ++ t.gate.claimed ++ t.drained ++ t.booked.map Prod.snd ++ t.cleared ++
    t.overflowed

/-- What is still to be sent of one session, in its order. -/
def pending (t : StageTasks) (s : UInt32) : List R2StageItem :=
  ofSession s t.gate.claimed ++ t.stager.sessions.queue s

/-- The stager's counters are exact and the batch in flight is well packed. -/
structure Sound (t : StageTasks) : Prop where
  exact : t.stager.Exact
  packed : t.gate.Packed
  counted : t.clearCount = t.cleared.length

/-- One state follows another: some items were accepted, some were handed over from the front of
what was pending, and no item went astray. -/
structure Follows (t t' : StageTasks) (fresh sent : List R2StageItem) : Prop where
  accepted : t'.accepted = t.accepted ++ fresh
  serials : fresh.map serial = List.range' t.accepted.length fresh.length
  drained : t'.drained = t.drained ++ sent
  caps : t'.stager.caps = t.stager.caps
  pending : ∀ s, (ofSession s sent ++ t'.pending s).Sublist (t.pending s ++ ofSession s fresh)
  whereabouts : (t.whereabouts ++ fresh).Perm t'.whereabouts

variable {t t' : StageTasks} {fresh sent : List R2StageItem}

lemma count_whereabouts (x : R2StageItem) :
    t.whereabouts.count x = t.stager.queued.count x + t.gate.claimed.count x + t.drained.count x +
      (t.booked.map Prod.snd).count x + t.cleared.count x + t.overflowed.count x := by
  simp only [whereabouts, count_append]

lemma book_booked (drop : DgramDrop) (items : List R2StageItem) :
    (t.book drop items).booked.map Prod.snd = t.booked.map Prod.snd ++ items := by
  simp only [book, map_append, map_map]
  congr 1
  exact map_id items

/-- Some state follows, and it is sound. -/
def Advances (t t' : StageTasks) : Prop := t'.Sound ∧ ∃ fresh sent, Follows t t' fresh sent

/-- A step that accepts nothing and hands nothing over. -/
lemma Advances.still (hsound : t'.Sound) (haccepted : t'.accepted = t.accepted)
    (hhanded : t'.handed = t.handed) (hcaps : t'.stager.caps = t.stager.caps)
    (hpending : ∀ s, (t'.pending s).Sublist (t.pending s))
    (hcount : ∀ x, t.whereabouts.count x = t'.whereabouts.count x) : Advances t t' := by
  refine ⟨hsound, [], [], haccepted.trans (append_nil _).symm, rfl, ?_, hcaps, fun s => ?_, ?_⟩
  · rw [StageTasks.drained, hhanded, append_nil, StageTasks.drained]
  · rw [ofSession_nil, append_nil]
    exact hpending s
  · rw [append_nil]
    exact perm_iff_count.mpr hcount

lemma Advances.refl (h : t.Sound) : Advances t t :=
  .still h rfl rfl rfl (fun _ => .refl _) fun _ => rfl

open StageTasks

/-- Items enter at the ends of their queues. -/
lemma follows_of_pushesAll {st : R2Stager} (h : t.Sound) (hpush : t.stager.PushesAll fresh st)
    (hserials : fresh.map serial = List.range' t.accepted.length fresh.length) :
    Advances t { t with stager := st, accepted := t.accepted ++ fresh } := by
  obtain ⟨hexact, hcaps, hperm, hqueue⟩ := hpush.spec h.exact
  refine ⟨⟨hexact, h.packed, h.counted⟩, fresh, [], rfl, hserials, (append_nil _).symm, hcaps,
    fun s => ?_, ?_⟩
  · simp only [pending, ofSession_nil, nil_append, hqueue s, append_assoc]
    exact .refl _
  · refine perm_iff_count.mpr fun x => ?_
    have hx := hperm.count_eq x
    rw [count_append] at hx
    rw [count_append, count_whereabouts, count_whereabouts]
    dsimp only [drained]
    omega

lemma push_follows (h : t.Sound) (p : StagePayload) : Advances t (t.push p) := by
  unfold push
  split
  · exact .refl h
  · next st hpush => exact follows_of_pushesAll h (.cons hpush (.nil st)) rfl

lemma numbered_serials (n : Nat) (ps : List StagePayload) :
    (numbered n ps).map serial = List.range' n (numbered n ps).length := by
  induction ps generalizing n with
  | nil => rfl
  | cons p ps ih =>
    rw [numbered, map_cons, ih, length_cons, range'_succ]
    rfl

lemma pushBatch_follows (h : t.Sound) (ps : List StagePayload) :
    Advances t (t.pushBatch ps) := by
  obtain ⟨items, hitems⟩ : ∃ items, items = numbered t.accepted.length ps := ⟨_, rfl⟩
  obtain ⟨n, hrest, hpush⟩ := t.stager.pushBatch_spec items
  have htake : items.take (items.length - (t.stager.pushBatch items).2.length) = items.take n := by
    rw [hrest, length_drop]
    rcases Nat.le_total n items.length with hle | hle
    · rw [Nat.sub_sub_self hle]
    · rw [Nat.sub_eq_zero_of_le hle, Nat.sub_zero, take_length, take_of_length_le hle]
  have hserials : (items.take n).map serial =
      List.range' t.accepted.length (items.take n).length := by
    rw [map_take, hitems, numbered_serials, length_take]
    rcases Nat.le_total n (numbered t.accepted.length ps).length with hle | hle
    · rw [take_range'_of_length_ge hle, Nat.min_eq_left hle]
    · rw [take_range'_of_length_le hle, Nat.min_eq_right hle]
  unfold pushBatch
  rw [← hitems]
  dsimp only
  rw [htake]
  exact follows_of_pushesAll h hpush hserials

lemma drop_follows (h : t.Sound) {out : R2Stager × List R2StageItem}
    (hremoves : t.stager.Removes out.1 out.2) : Advances t (t.drop out) := by
  refine .still ⟨hremoves.exact h.exact, h.packed, h.counted⟩ rfl rfl hremoves.caps
    (fun s => ?_) fun x => ?_
  · exact (hremoves.kept s).append_left _
  · have hx := (hremoves.perm h.exact.keyed).count_eq x
    rw [count_append] at hx
    rw [count_whereabouts, count_whereabouts, drop, book_booked, count_append]
    dsimp only [book, drained]
    omega

lemma setMaxTrainItems_follows (h : t.Sound) (n : UInt8) :
    Advances t { t with stager := t.stager.setMaxTrainItems n } := by
  have hsame := t.stager.setMaxTrainItems_same n
  refine .still ⟨hsame.pulls.removes.exact h.exact, h.packed, h.counted⟩ rfl rfl
    hsame.pulls.removes.caps (fun s => ?_) fun x => ?_
  · dsimp only [pending]
    rw [hsame.sessions]
  · rw [count_whereabouts, count_whereabouts]
    dsimp only [drained, R2Stager.queued]
    rw [hsame.sessions]

lemma clear_follows (h : t.Sound) : Advances t t.clear := by
  refine .still ⟨t.stager.clear_exact, h.packed, ?_⟩ rfl rfl rfl (fun s => ?_) fun x => ?_
  · show t.clearCount + t.stager.queuedItems = (t.cleared ++ t.stager.queued).length
    rw [length_append, h.counted, h.exact.items]
  · exact (nil_sublist _).append_left _
  · have hnone : t.stager.clear.1.queued.count x = 0 := rfl
    rw [count_whereabouts, count_whereabouts]
    dsimp only [clear, drained] at hnone ⊢
    rw [hnone, count_append]
    omega

variable {limit maxItems maxFrames : Nat} {verdict : DatagramSend}

section

variable (h : t.Sound) (gate : DrainGate)
include h

open DrainGate

/-- Heads of the queues join the batch, or are given up. -/
lemma claimInto_follows {q : PackedFrames} (hq : q.Packed) (hclaimed : t.gate.claimed = q.items) :
    Advances t (t.claimInto limit maxFrames maxItems q) := by
  obtain ⟨out, hout⟩ := t.stager.claimBatch_claims h.exact.keyed limit maxFrames maxItems q
  unfold claimInto
  obtain ⟨c, hc⟩ : ∃ c, c = t.stager.claimBatch limit maxFrames maxItems q := ⟨_, rfl⟩
  rw [← hc] at hout ⊢
  obtain ⟨hpulls, hpacked, new, lost, hitems, hbooked, hperm, hsub⟩ := hout
  rw [nil_append] at hbooked
  have hnew : (c.q.frames.drop 0).flatMap c.q.run = q.items ++ new := by
    rw [(hpacked hq).flatMap_run, (hpacked hq).unsent_zero, hitems]
  refine .still ⟨hpulls.removes.exact h.exact, hpacked hq, h.counted⟩ rfl rfl hpulls.removes.caps
    (fun s => ?_) fun x => ?_
  · show (ofSession s ((c.q.frames.drop 0).flatMap c.q.run) ++ c.stager.sessions.queue s).Sublist
      (t.pending s)
    rw [hnew, pending, hclaimed, hpulls.queue s, ofSession_append, append_assoc]
    exact ((hsub.filter _).append_right _).append_left _
  have hx : t.stager.queued.count x = (out ++ c.stager.queued).count x :=
    (hpulls.removes.perm h.exact.keyed).count_eq x
  have hsplit := hperm.count_eq x
  rw [count_append] at hx hsplit
  rw [count_whereabouts, count_whereabouts, book_booked, hclaimed]
  dsimp only [book, drained, claimed]
  rw [hnew, hbooked, count_append, count_append]
  omega

lemma claim_follows : Advances t (t.claim limit maxFrames maxItems) := by
  unfold claim
  split
  · rename_i hgate
    refine claimInto_follows h (PackedFrames.empty_packed _) ?_
    rw [hgate]
    rfl
  · rename_i q hgate
    have hq : q.Packed := by
      have := h.packed
      rwa [hgate] at this
    refine claimInto_follows h hq ?_
    rw [hgate, claimed, hq.flatMap_run, hq.unsent_zero]
  · exact .refl h

/-- Items of the batch are given up, and what is left of it keeps its order. -/
lemma follows_of_gate (lost : List R2StageItem) (drop : DgramDrop) (hpacked : gate.Packed)
    (hsub : gate.claimed.Sublist t.gate.claimed)
    (hperm : t.gate.claimed.Perm (gate.claimed ++ lost)) :
    Advances t ({ t with gate := gate }.book drop lost) := by
  refine .still ⟨h.exact, hpacked, h.counted⟩ rfl rfl rfl (fun s => ?_) fun x => ?_
  · exact (hsub.filter _).append_right _
  · have hx := hperm.count_eq x
    rw [count_append] at hx
    rw [count_whereabouts, count_whereabouts, book_booked, count_append]
    dsimp only [book, drained]
    omega

/-- The gate changes hands with no batch in flight before and after. -/
lemma follows_of_idle (calls : List DirectCall) (hpacked : gate.Packed)
    (hgate : gate.claimed = t.gate.claimed) :
    Advances t { t with gate := gate, calls := calls } := by
  refine .still ⟨h.exact, hpacked, h.counted⟩ rfl rfl rfl (fun s => ?_) fun x => ?_
  · dsimp only [pending]
    rw [hgate]
  · rw [count_whereabouts, count_whereabouts]
    dsimp only [drained]
    rw [hgate]

lemma encode_follows : Advances t (t.encode limit) := by
  unfold encode
  split
  · rename_i q hgate
    have hq : q.Packed := by
      have := h.packed
      rwa [hgate] at this
    obtain ⟨hpacked, hsub, hperm⟩ := PackedFrames.encodeClaimed_spec hq limit
    have hold : t.gate.claimed = q.items := by
      rw [hgate, claimed, hq.flatMap_run, hq.unsent_zero]
    have hnew : (sending (q.encodeClaimed limit).1 0).claimed =
        (q.encodeClaimed limit).1.items := by
      rw [claimed, hpacked.flatMap_run, hpacked.unsent_zero]
    refine follows_of_gate h (.sending (q.encodeClaimed limit).1 0) _ .tooLarge hpacked ?_ ?_
    · rw [hold, hnew]
      exact hsub
    · rw [hold, hnew]
      exact hperm
  · exact .refl h

/-- A frame is handed over as a whole, or given up as a whole. -/
lemma sendFrame_follows {q : PackedFrames} {frames : Nat} {f : PackedFrame}
    (hgate : t.gate = .sending q frames) (hf : q.frames[frames]? = some f) :
    Advances t (t.sendFrame q frames f verdict) := by
  have hq : q.Packed := by
    have := h.packed
    rwa [hgate] at this
  have hclaimed : t.gate.claimed = q.run f ++ (q.frames.drop (frames + 1)).flatMap q.run := by
    rw [hgate, claimed, PackedFrames.flatMap_run_of_getElem? hf]
  have hrefused : ∀ drop, Advances t ({ t with gate := .refused q frames }.book drop (q.run f)) :=
    fun drop => follows_of_gate h (.refused q frames) (q.run f) drop hq
      (hclaimed ▸ sublist_append_right _ _) (hclaimed ▸ perm_append_comm)
  unfold sendFrame
  split
  · exact hrefused .tooLarge
  split
  · have hdrained : (t.handed ++ (q.run f).map HandedOver.drained).filterMap
        HandedOver.drained? = t.drained ++ q.run f := by
      rw [filterMap_append, filterMap_map]
      exact congrArg (t.drained ++ ·) (filterMap_some)
    refine ⟨⟨h.exact, hq, h.counted⟩, [], q.run f, (append_nil _).symm, rfl, hdrained, rfl,
      fun s => ?_, ?_⟩
    · rw [ofSession_nil, append_nil, pending, pending, hclaimed, ofSession_append, append_assoc]
      exact .refl _
    · refine perm_iff_count.mpr fun x => ?_
      rw [append_nil, count_whereabouts, count_whereabouts, hclaimed]
      dsimp only [drained, claimed] at hdrained ⊢
      rw [hdrained, count_append, count_append]
      omega
  · exact hrefused verdict.bookedAs

lemma send_follows : Advances t (t.send verdict) := by
  unfold send
  split
  · rename_i q frames hgate
    split
    · exact .refl h
    · next f hf => exact sendFrame_follows h hgate hf
  · exact .refl h

lemma finish_follows : Advances t t.finish := by
  unfold finish
  split
  · rename_i q frames hgate
    split
    · rename_i hdone
      refine follows_of_idle h .draining t.calls trivial ?_
      rw [hgate, claimed, claimed, drop_eq_nil_of_le hdone, flatMap_nil]
    · exact .refl h
  · exact .refl h

/-- What is behind the refused frame goes back to the front of the queues. -/
lemma requeue_follows : Advances t t.requeue := by
  unfold requeue
  split
  · rename_i q frames hgate
    have hq : q.Packed := by
      have := h.packed
      rwa [hgate] at this
    have hclaimed : t.gate.claimed = q.unsent (frames + 1) := by
      rw [hgate, claimed, hq.flatMap_run]
    obtain ⟨back, hsub, hperm, hqueue, hqueued, hexact, hcaps⟩ :=
      t.stager.putBack_spec (q.unsent (frames + 1)) h.exact
    refine .still ⟨hexact, trivial, h.counted⟩ rfl rfl hcaps (fun s => ?_) fun x => ?_
    · rw [pending, pending, hclaimed]
      dsimp only [R2Stager.requeueUnsent, claimed]
      rw [hqueue s]
      exact (hsub.filter _).append_right _
    · have hx := hqueued.count_eq x
      have hback := hperm.count_eq x
      rw [count_append] at hx hback
      rw [count_whereabouts, count_whereabouts, hclaimed]
      dsimp only [drained, R2Stager.requeueUnsent, claimed]
      rw [count_append, count_nil]
      omega
  · exact .refl h

lemma takeGate_follows : Advances t t.takeGate := by
  unfold takeGate
  split
  · next hgate => exact follows_of_idle h _ _ (by trivial) (by rw [hgate]; rfl)
  · exact .refl h

lemma release_follows : Advances t t.release := by
  unfold release
  split
  · next hgate => exact follows_of_idle h _ _ (by trivial) (by rw [hgate]; rfl)
  · exact .refl h

lemma directTest_follows (p : StagePayload) : Advances t (t.directTest p) := by
  unfold directTest
  split
  · exact follows_of_idle h _ _ h.packed rfl
  · exact .refl h

lemma directGate_follows (i : Nat) : Advances t (t.directGate i) := by
  unfold directGate
  split
  · exact .refl h
  · next hgate => exact follows_of_idle h _ _ (by trivial) (by rw [hgate]; rfl)
  · exact follows_of_idle h _ _ h.packed rfl

lemma directSend_follows : Advances t (t.directSend limit verdict) := by
  unfold directSend
  split
  · rename_i call hgate
    have hfree := follows_of_idle h .free t.calls trivial (by rw [hgate]; rfl)
    split
    · have hdrained : (t.handed ++ [HandedOver.direct call.item call.began]).filterMap
          HandedOver.drained? = t.drained := by
        rw [filterMap_append]
        exact append_nil _
      obtain ⟨hsound, fresh, sent, hfollows⟩ := hfree
      refine ⟨⟨hsound.exact, hsound.packed, hsound.counted⟩, fresh, sent, hfollows.accepted,
        hfollows.serials, hdrained.trans hfollows.drained, hfollows.caps, hfollows.pending, ?_⟩
      · refine hfollows.whereabouts.trans (Perm.of_eq ?_)
        unfold whereabouts drained
        rw [hdrained]
        rfl
    · exact hfree
  · exact .refl h

/-- Every step of the tasks moves items from one place to another, in their order. -/
lemma next_follows (ev : StageEvent) : Advances t (t.next ev) := by
  cases ev with
  | push p => exact push_follows h p
  | pushBatch ps => exact pushBatch_follows h ps
  | setMaxTrainItems n => exact setMaxTrainItems_follows h n
  | dropSession s => exact drop_follows h (R2Stager.dropSession_removes h.exact s)
  | dropFlow wireId => exact drop_follows h (R2Stager.dropFlow_removes h.exact wireId)
  | dropFlowScoped s wireId =>
    exact drop_follows h (R2Stager.dropFlowScoped_removes h.exact s wireId)
  | clear => exact clear_follows h
  | takeGate => exact takeGate_follows h
  | claim limit maxFrames maxItems => exact claim_follows h
  | encode limit => exact encode_follows h
  | send verdict => exact send_follows h
  | finish => exact finish_follows h
  | requeue => exact requeue_follows h
  | release => exact release_follows h
  | directTest p => exact directTest_follows h p
  | directGate i => exact directGate_follows h i
  | directSend limit verdict => exact directSend_follows h

end

/-- Where the items are, which numbers they bear, and in which order those of a session go. -/
structure Conserved (caps : Nat × Nat) (t : StageTasks) : Prop extends Sound t where
  caps : t.stager.caps = caps
  serials : t.accepted.map serial = List.range t.accepted.length
  whereabouts : t.accepted.Perm t.whereabouts
  ordered : ∀ s, (ofSession s t.drained ++ t.pending s).Sublist (ofSession s t.accepted)

lemma new_conserved (maxItems maxBytes : Nat) (wire : Wire) :
    Conserved (maxItems, maxBytes) (new maxItems maxBytes wire) where
  exact := R2Stager.clear_exact (.withCapacityWire maxItems maxBytes wire)
  packed := trivial
  counted := rfl
  caps := rfl
  serials := rfl
  whereabouts := .refl _
  ordered _ := .refl _

lemma Conserved.next {caps : Nat × Nat} (h : Conserved caps t) (ev : StageEvent) :
    Conserved caps (t.next ev) := by
  obtain ⟨hsound, fresh, sent, hf⟩ := next_follows h.toSound ev
  refine ⟨hsound, hf.caps.trans h.caps, ?_, ?_, fun s => ?_⟩
  · rw [hf.accepted, map_append, h.serials, hf.serials, length_append,
      range_eq_range', range_eq_range', ← range'_append_1, Nat.zero_add]
  · rw [hf.accepted]
    exact (h.whereabouts.append_right fresh).trans hf.whereabouts
  · rw [hf.accepted, hf.drained, ofSession_append, ofSession_append, append_assoc]
    refine ((hf.pending s).append_left _).trans ?_
    rw [← append_assoc]
    exact (h.ordered s).append_right _

lemma after_conserved (maxBytes : Nat) (wire : Wire) (es : List StageEvent) :
    Conserved (maxItems, maxBytes) (after next (new maxItems maxBytes wire) es) := by
  have hstep : ∀ (t : StageTasks) (ev : StageEvent), Conserved (maxItems, maxBytes) t →
      Conserved (maxItems, maxBytes) (t.next ev) := fun _ ev h => h.next ev
  exact after_of_kept hstep (new_conserved maxItems maxBytes wire) es

/-- Every item the stager accepted is in one place, and the counters say what is queued. -/
theorem stager_conserves (maxItems maxBytes : Nat) (wire : Wire) (es : List StageEvent) :
    let t := after next (new maxItems maxBytes wire) es
    t.accepted.Nodup ∧ t.accepted.Perm t.whereabouts ∧ t.clearCount = t.cleared.length ∧
      t.stager.queuedItems = t.stager.queued.length ∧
      t.stager.queuedBytes = payloadBytes t.stager.queued ∧
      t.stager.queuedItems ≤ maxItems ∧ t.stager.queuedBytes ≤ maxBytes := by
  intro t
  have h : Conserved (maxItems, maxBytes) t := after_conserved maxBytes wire es
  obtain ⟨hitems, hbytes⟩ := Prod.mk.inj h.caps
  refine ⟨?_, h.whereabouts, h.counted, h.exact.items, h.exact.bytes, ?_, ?_⟩
  · refine Nodup.of_map R2StageItem.serial ?_
    rw [h.serials]
    exact nodup_range
  · exact hitems ▸ h.exact.fitsItems
  · exact hbytes ▸ h.exact.fitsBytes

/-- Drains hand the items of a session over in the order of their pushes. -/
theorem drained_in_push_order (maxItems maxBytes : Nat) (wire : Wire) (es : List StageEvent)
    (s : UInt32) :
    let t := after next (new maxItems maxBytes wire) es
    (ofSession s t.drained).Sublist (ofSession s t.accepted) := by
  intro t
  have h : Conserved (maxItems, maxBytes) t := after_conserved maxBytes wire es
  exact (sublist_append_left _ _).trans (h.ordered s)

end StageTasks

/-- Items that the stager of a connection holds. -/
def r2StageMaxItems : Nat := 1024

/-- Frames of one claim. -/
def r2PackBatchFrames : Nat := 4

/-- Items after which a claim takes no further frame. -/
def r2PackBatchItems : Nat := 64

/-- What the surroundings decide about one round of a drain. -/
structure DrainTurn where
  others : List StageEvent
  full : Bool
  /-- The connection's answers to the frames of the round; what is not listed is sent. -/
  verdicts : List DatagramSend

/-- A round that nothing disturbs. -/
def DrainTurn.calm : DrainTurn := ⟨[], false, []⟩

/-- What the surroundings decide about a drain. -/
structure DrainCall where
  /-- Steps of other tasks before the gate is free. -/
  waiting : List StageEvent
  turns : List DrainTurn

/-- The connection takes no datagrams any more. -/
def DatagramSend.dead : DatagramSend → Bool
  | .unsupported | .connectionLost => true
  | .sent | .blocked | .tooLarge => false

/-- The drain does not find the connection gone. -/
def DrainCall.Alive (call : DrainCall) : Prop :=
  ∀ turn ∈ call.turns, ∀ verdict ∈ turn.verdicts, verdict.dead = false

instance (call : DrainCall) : Decidable call.Alive :=
  inferInstanceAs (Decidable (∀ turn ∈ call.turns, ∀ verdict ∈ turn.verdicts, _))

/-- The connection's answer to a frame. One without a body is not offered. -/
def PackedFrame.answer (f : PackedFrame) (verdict : DatagramSend) : DatagramSend :=
  if f.body = none then .tooLarge else verdict

namespace StageTasks

/-- Hand frames to the connection, up to the first it refuses: the number it took, and its answer to
the one it refused. -/
def sendPackedFrames : List PackedFrame → List DatagramSend → Nat → StageTasks →
    Nat × Option DatagramSend × StageTasks
  | [], _, sent, t => (sent, none, t)
  | f :: frames, verdicts, sent, t =>
    let t' := t.send (verdicts.headD .sent)
    if f.answer (verdicts.headD .sent) = .sent then
      sendPackedFrames frames verdicts.tail (sent + 1) t'
    else (sent, some (f.answer (verdicts.headD .sent)), t')

section

variable (t : StageTasks) (limit : Nat)

/-- The frames that the holder of the gate has claimed. -/
def frames (t : StageTasks) : List PackedFrame :=
  match t.gate with
  | .sending q _ => q.frames
  | _ => []

/-- Claim a batch under the lock. -/
def claimRound : StageTasks :=
  t.claim limit r2PackBatchFrames r2PackBatchItems

/-- Encode what was claimed and hand it over. -/
def sendRound (verdicts : List DatagramSend) : Nat × Option DatagramSend × StageTasks :=
  sendPackedFrames (t.encode limit).frames verdicts 0 (t.encode limit)

/-- The rounds of a drain. Every claim takes an item, so that the budget bounds the rounds too. -/
def drainLoop (limit : Nat) : Nat → Nat → List DrainTurn → PayloadSend → StageTasks →
    PayloadSend × StageTasks
  | 0, _, _, total, t => (total, t)
  | rounds + 1, handled, turns, total, t =>
    let turn := turns.headD .calm
    let t := after next t turn.others
    if turn.full then (⟨total.frames, some .blocked⟩, t)
    else if t.stager.isEmpty then (total, t)
    else
      let claimed := t.claimRound limit
      let handled := handled + (t.stager.queuedItems - claimed.stager.queuedItems)
      let out := claimed.sendRound limit turn.verdicts
      let total := ⟨total.frames + out.1, out.2.1⟩
      if out.2.1.isSome then (total, out.2.2.requeue)
      else if claimed.stager.isEmpty || decide (r2StageMaxItems ≤ handled) then
        (total, out.2.2.finish)
      else drainLoop limit rounds handled turns.tail total out.2.2.finish

/-- Drain the stager. The gate is taken when it is free; while somebody else holds it the call has
done nothing. -/
def drainStaged (call : DrainCall) : PayloadSend × StageTasks :=
  let t := after next t call.waiting
  match t.gate with
  | .free =>
    let out := drainLoop limit r2StageMaxItems 0 call.turns ⟨0, none⟩ t.takeGate
    (⟨min out.1.frames 255, out.1.failed⟩, out.2.release)
  | _ => (⟨0, none⟩, t)

end

section

variable {P : StageTasks → Prop} (hstep : ∀ t ev, P t → P (t.next ev)) {t : StageTasks}
include hstep

lemma sendPackedFrames_of_kept (h : P t) (frames : List PackedFrame)
    (verdicts : List DatagramSend) (sent : Nat) :
    P (sendPackedFrames frames verdicts sent t).2.2 := by
  induction frames generalizing t verdicts sent with
  | nil => exact h
  | cons f frames ih =>
    rw [sendPackedFrames]
    split
    · exact ih (hstep t (.send _) h) _ _
    · exact hstep t (.send _) h

lemma drainLoop_of_kept (h : P t) (limit rounds handled : Nat) (turns : List DrainTurn)
    (total : PayloadSend) : P (drainLoop limit rounds handled turns total t).2 := by
  induction rounds generalizing t handled turns total with
  | zero => exact h
  | succ rounds ih =>
    have hothers := after_of_kept hstep h (turns.headD .calm).others
    have hclaimed := hstep _ (.claim limit r2PackBatchFrames r2PackBatchItems) hothers
    have hsent := sendPackedFrames_of_kept hstep (hstep _ (.encode limit) hclaimed)
    rw [drainLoop]
    dsimp only
    split
    · exact hothers
    split
    · exact hothers
    split
    · exact hstep _ .requeue (hsent _ _ _)
    split
    · exact hstep _ .finish (hsent _ _ _)
    · exact ih (hstep _ .finish (hsent _ _ _)) _ _ _

/-- What every step of the tasks keeps, a drain keeps. -/
lemma drainStaged_of_kept (h : P t) (limit : Nat) (call : DrainCall) :
    P (t.drainStaged limit call).2 := by
  have hwaiting := after_of_kept hstep h call.waiting
  unfold drainStaged
  dsimp only
  split
  · exact hstep _ .release (drainLoop_of_kept hstep (hstep _ .takeGate hwaiting) _ _ _ _ _)
  · exact hwaiting

end

lemma sendPackedFrames_alive {verdicts : List DatagramSend}
    (h : ∀ verdict ∈ verdicts, verdict.dead = false) (frames : List PackedFrame) (sent : Nat)
    (t : StageTasks) :
    (sendPackedFrames frames verdicts sent t).2.1.any DatagramSend.dead = false := by
  induction frames generalizing t verdicts sent with
  | nil => rfl
  | cons f frames ih =>
    rw [sendPackedFrames]
    split
    · exact ih (fun verdict hv => h verdict (List.mem_of_mem_tail hv)) _ _
    rw [Option.any_some]
    unfold PackedFrame.answer
    split
    · rfl
    cases verdicts with
    | nil => rfl
    | cons verdict verdicts => exact h verdict List.mem_cons_self

lemma drainLoop_alive {turns : List DrainTurn}
    (h : ∀ turn ∈ turns, ∀ verdict ∈ turn.verdicts, verdict.dead = false)
    (limit rounds handled : Nat) {total : PayloadSend}
    (htotal : total.failed.any DatagramSend.dead = false) (t : StageTasks) :
    (drainLoop limit rounds handled turns total t).1.failed.any DatagramSend.dead = false := by
  induction rounds generalizing t handled turns total with
  | zero => exact htotal
  | succ rounds ih =>
    have hturn : ∀ verdict ∈ (turns.headD .calm).verdicts, verdict.dead = false := by
      cases turns with
      | nil => exact fun verdict hv => absurd hv List.not_mem_nil
      | cons turn turns => exact h turn List.mem_cons_self
    have hsent := sendPackedFrames_alive hturn
    rw [drainLoop]
    dsimp only
    split
    · rfl
    split
    · exact htotal
    split
    · exact hsent _ _ _
    split
    · exact hsent _ _ _
    · exact ih (fun turn ht => h turn (List.mem_of_mem_tail ht)) _ (hsent _ _ _) _

/-- A drain whose frames do not find the connection gone does not report it gone. -/
lemma drainStaged_alive {call : DrainCall} (h : call.Alive) (t : StageTasks) (limit : Nat) :
    (t.drainStaged limit call).1.failed.any DatagramSend.dead = false := by
  unfold drainStaged
  dsimp only
  split
  · exact drainLoop_alive h limit r2StageMaxItems 0 rfl _
  · rfl

end StageTasks

end MyQuic2
