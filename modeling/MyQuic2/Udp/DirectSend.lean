import MyQuic2.Udp.StageDrain

/-!
# Direct sends and the queue

A direct send tests the queue under the stager's lock and takes the gate afterwards.
In between a drain may come back from a refused frame and put older items of the same
session into the queue again; the direct send then overtakes them. Where no drain does
that, the test is as good as one made with the gate held.
-/

namespace MyQuic2

open List

/-- Steps that put items back into the queues. -/
def StageEvent.isRequeue : StageEvent → Bool
  | requeue => true
  | _ => false

/-- Steps that touch the gate or a call and leave the stager alone. -/
def StageEvent.besideStager : StageEvent → Bool
  | takeGate | encode _ | send _ | finish | release => true
  | directTest _ | directGate _ | directSend _ _ => true
  | _ => false

def StageEvent.isDirect : StageEvent → Bool
  | directTest _ | directGate _ | directSend _ _ => true
  | _ => false

/-- The second payload was not pushed before the first one was sent directly. -/
def NotOvertaken : HandedOver → HandedOver → Prop
  | .direct item began, .drained item' => item'.session = item.session → began ≤ item'.serial
  | _, _ => True

namespace StageTasks

variable {t : StageTasks}

lemma next_stager {ev : StageEvent} (hev : ev.besideStager = true) :
    (t.next ev).stager = t.stager := by
  cases ev with
  | takeGate | encode | send | finish | release | directTest | directGate | directSend =>
    dsimp only [StageTasks.next, takeGate, encode, send, sendFrame, finish, release, directTest,
      directGate, directSend]
    repeat' split
    all_goals rfl
  | push | pushBatch | setMaxTrainItems | dropSession | dropFlow | dropFlowScoped | clear | claim
  | requeue => cases hev

/-- Two states differ in nothing a direct send has to do with but the queue: drains may have
handed items over. -/
structure Aside (t t' : StageTasks) : Prop where
  handed : ∃ items : List R2StageItem, t'.handed = t.handed ++ items.map .drained
  calls : t'.calls = t.calls
  gate : ∀ call, t'.gate = .direct call → t.gate = .direct call

variable {t' : StageTasks} {item : R2StageItem} {s : UInt32} {call : DirectCall}

lemma Aside.of_eq (hhanded : t'.handed = t.handed) (hcalls : t'.calls = t.calls)
    (hgate : ∀ call, t'.gate = .direct call → t.gate = .direct call) : Aside t t' :=
  ⟨⟨[], hhanded.trans (append_nil _).symm⟩, hcalls, hgate⟩

lemma Aside.refl (t : StageTasks) : Aside t t := .of_eq rfl rfl fun _ h => h

variable {verdict : DatagramSend}

lemma send_aside : Aside t (t.send verdict) := by
  unfold send
  split
  · rename_i q frames _
    split
    · exact .refl t
    rename_i f _
    unfold sendFrame
    split
    · exact .of_eq rfl rfl nofun
    split
    · exact ⟨⟨q.run f, rfl⟩, rfl, nofun⟩
    · exact .of_eq rfl rfl nofun
  · exact .refl t

lemma next_aside {ev : StageEvent} (hev : ev.isDirect = false) : Aside t (t.next ev) := by
  cases ev with
  | push p =>
    show Aside t (t.push p)
    unfold push
    split
    · exact .refl t
    · exact .of_eq rfl rfl fun _ h => h
  | pushBatch | setMaxTrainItems | dropSession | dropFlow | dropFlowScoped | clear =>
    exact .of_eq rfl rfl fun _ h => h
  | takeGate | claim | encode | finish | requeue | release =>
    -- A drain moves on, or nothing happens.
    dsimp only [StageTasks.next, takeGate, claim, encode, finish, requeue, release]
    repeat' split
    all_goals first | exact .refl t | exact .of_eq rfl rfl nofun
  | send verdict => exact send_aside
  | directTest | directGate | directSend => cases hev

/-- Number of the first push a list of fresh items can hold. -/
lemma Follows.fresh_newer {fresh sent : List R2StageItem} (h : Follows t t' fresh sent)
    (hitem : item ∈ fresh) : t.accepted.length ≤ item.serial := by
  have hmem : item.serial ∈ fresh.map R2StageItem.serial := mem_map_of_mem hitem
  rw [h.serials] at hmem
  exact (mem_range'_1.mp hmem).1

lemma push_queue (p : StagePayload) (hitem : item ∈ (t.push p).stager.sessions.queue s) :
    item ∈ t.stager.sessions.queue s ∨ t.accepted.length ≤ item.serial := by
  unfold push at hitem
  split at hitem
  · exact .inl hitem
  rename_i st hpush
  rw [(R2Stager.push_spec hpush).2 s] at hitem
  obtain hold | hnew := mem_append.mp hitem
  · exact .inl hold
  · obtain rfl := mem_singleton.mp (mem_of_mem_filter hnew)
    exact .inr (Nat.le_refl _)

lemma numbered_newer {n : Nat} {ps : List StagePayload} (hitem : item ∈ numbered n ps) :
    n ≤ item.serial := by
  have hmem : item.serial ∈ (numbered n ps).map R2StageItem.serial := mem_map_of_mem hitem
  rw [numbered_serials] at hmem
  exact (mem_range'_1.mp hmem).1

lemma pushBatch_queue (h : t.Sound) (ps : List StagePayload)
    (hitem : item ∈ (t.pushBatch ps).stager.sessions.queue s) :
    item ∈ t.stager.sessions.queue s ∨ t.accepted.length ≤ item.serial := by
  obtain ⟨n, -, hpush⟩ := t.stager.pushBatch_spec (numbered t.accepted.length ps)
  obtain ⟨-, -, -, hqueue⟩ := hpush.spec h.exact
  rw [show (t.pushBatch ps).stager.sessions.queue s = _ from hqueue s] at hitem
  obtain hold | hnew := mem_append.mp hitem
  · exact .inl hold
  · exact .inr (numbered_newer (mem_of_mem_take (mem_of_mem_filter hnew)))

lemma drop_queue {out : R2Stager × List R2StageItem} (hremoves : t.stager.Removes out.1 out.2)
    (hitem : item ∈ (t.drop out).stager.sessions.queue s) :
    item ∈ t.stager.sessions.queue s := (hremoves.kept s).subset hitem

lemma claim_queue (h : t.Sound) (limit maxFrames maxItems : Nat)
    (hitem : item ∈ (t.claim limit maxFrames maxItems).stager.sessions.queue s) :
    item ∈ t.stager.sessions.queue s := by
  have hinto : ∀ q, item ∈ (t.claimInto limit maxFrames maxItems q).stager.sessions.queue s →
      item ∈ t.stager.sessions.queue s := by
    intro q hq
    obtain ⟨out, hout⟩ := t.stager.claimBatch_claims h.exact.keyed limit maxFrames maxItems q
    exact (hout.pulls.removes.kept s).subset hq
  unfold claim at hitem
  split at hitem
  · exact hinto _ hitem
  · exact hinto _ hitem
  · exact hitem

/-- A step other than putting back brings only new items into the queues. -/
lemma next_queue (h : t.Sound) {ev : StageEvent} (hev : ev.isRequeue = false)
    (hitem : item ∈ (t.next ev).stager.sessions.queue s) :
    item ∈ t.stager.sessions.queue s ∨ t.accepted.length ≤ item.serial := by
  cases ev with
  | push p => exact push_queue p hitem
  | pushBatch ps => exact pushBatch_queue h ps hitem
  | setMaxTrainItems n =>
    refine .inl ?_
    rw [← (t.stager.setMaxTrainItems_same n).sessions]
    exact hitem
  | dropSession s => exact .inl (drop_queue (R2Stager.dropSession_removes h.exact s) hitem)
  | dropFlow wireId => exact .inl (drop_queue (R2Stager.dropFlow_removes h.exact wireId) hitem)
  | dropFlowScoped s wireId =>
    exact .inl (drop_queue (R2Stager.dropFlowScoped_removes h.exact s wireId) hitem)
  | clear => cases hitem
  | claim limit maxFrames maxItems => exact .inl (claim_queue h limit maxFrames maxItems hitem)
  | requeue => cases hev
  | takeGate | encode | send | finish | release | directTest | directGate | directSend =>
    rw [next_stager rfl] at hitem
    exact .inl hitem

/-- A direct send that has passed its test and has not ended. -/
def Underway (t : StageTasks) (call : DirectCall) : Prop :=
  call ∈ t.calls ∨ t.gate = .direct call

lemma directTest_underway (h : t.Sound) (p : StagePayload)
    (hcall : (t.directTest p).Underway call) :
    t.Underway call ∨ call.began = t.accepted.length ∧
      ∀ s, (t.directTest p).stager.sessions.queue s = [] := by
  unfold directTest at hcall ⊢
  split at hcall
  · rename_i htest
    rw [if_pos htest]
    rcases hcall with hmem | hheld
    · obtain hold | hnew := mem_append.mp hmem
      · exact .inl (.inl hold)
      · obtain rfl := mem_singleton.mp hnew
        have hempty : t.stager.queuedItems = 0 := by
          simpa [R2Stager.isEmpty] using (Bool.and_eq_true_iff.mp htest).1
        exact .inr ⟨rfl, h.exact.queue_eq_nil hempty⟩
    · exact .inl (.inr hheld)
  · exact .inl hcall

lemma directGate_underway (i : Nat) (hcall : (t.directGate i).Underway call) : t.Underway call := by
  unfold directGate at hcall
  split at hcall
  · exact hcall
  · rename_i call' hget _
    rcases hcall with hmem | hheld
    · exact .inl (mem_of_mem_eraseIdx hmem)
    · obtain rfl : call' = call := DrainGate.direct.inj hheld
      exact .inl (mem_of_getElem? hget)
  · rcases hcall with hmem | hheld
    · exact .inl (mem_of_mem_eraseIdx hmem)
    · exact .inr hheld

lemma directSend_underway (limit : Nat) (hcall : (t.directSend limit verdict).Underway call) :
    t.Underway call := by
  unfold directSend at hcall
  split at hcall
  · split at hcall
    · exact .inl (hcall.resolve_right nofun)
    · exact .inl (hcall.resolve_right nofun)
  · exact hcall

/-- A direct send is underway only behind a test that found the queue empty. -/
lemma next_underway (h : t.Sound) (ev : StageEvent) (hcall : (t.next ev).Underway call) :
    t.Underway call ∨ call.began = t.accepted.length ∧
      ∀ s, (t.next ev).stager.sessions.queue s = [] := by
  by_cases hev : ev.isDirect = false
  · obtain ⟨-, hcalls, hgate⟩ := next_aside hev
    rcases hcall with hmem | hheld
    · exact .inl (.inl (hcalls ▸ hmem))
    · exact .inl (.inr (hgate call hheld))
  cases ev with
  | directTest p => exact directTest_underway h p hcall
  | directGate i => exact .inl (directGate_underway i hcall)
  | directSend limit verdict => exact .inl (directSend_underway limit hcall)
  | _ => exact absurd rfl hev

section

variable (t : StageTasks) (ev : StageEvent)

/-- What a step adds to the wire: items of a drain, or the item of the direct send that holds the
gate. -/
lemma next_handed :
    (∃ items : List R2StageItem, (t.next ev).handed = t.handed ++ items.map .drained) ∨
      ∃ call, t.gate = .direct call ∧ (t.next ev).gate = .free ∧
        (t.next ev).stager = t.stager ∧
        (t.next ev).handed = t.handed ++ [.direct call.item call.began] := by
  by_cases hev : ev.isDirect = false
  · exact .inl (next_aside hev).handed
  have hnone : ∃ items : List R2StageItem, t.handed = t.handed ++ items.map .drained :=
    ⟨[], (append_nil _).symm⟩
  cases ev with
  | directTest p =>
    refine .inl ?_
    rw [next, directTest]
    split
    · exact hnone
    · exact hnone
  | directGate i =>
    refine .inl ?_
    rw [next, directGate]
    split
    · exact hnone
    · exact hnone
    · exact hnone
  | directSend limit verdict =>
    rw [next, directSend]
    split
    · rename_i call hgate
      split
      · exact .inr ⟨call, hgate, rfl, rfl, rfl⟩
      · exact .inl hnone
    · exact .inl hnone
  | _ => exact absurd rfl hev

/-- Only pushes from a number on are in the list. -/
def Since (began : Nat) (items : List R2StageItem) : Prop :=
  began ≤ t.accepted.length ∧ ∀ item ∈ items, began ≤ item.serial

/-- No older item of its session is put back while a direct send is between its test of the queue
and the gate. -/
def PutsBackNewer : Prop :=
  ev.isRequeue = true → ∀ call ∈ t.calls, ∀ item ∈ t.gate.claimed,
    item.session = call.item.session → call.began ≤ item.serial

end

instance (t : StageTasks) (ev : StageEvent) : Decidable (t.PutsBackNewer ev) := by
  unfold PutsBackNewer
  infer_instance

/-- Behind a direct send, and behind the test of one that is underway, the items of its session
are newer than it. -/
structure Unovertaken (t : StageTasks) : Prop where
  sound : t.Sound
  underway : ∀ call, t.Underway call →
    t.Since call.began (t.stager.sessions.queue call.item.session)
  handed : ∀ item began, .direct item began ∈ t.handed → t.Since began (t.pending item.session)
  order : t.handed.Pairwise NotOvertaken

lemma new_unovertaken (maxItems maxBytes : Nat) (wire : Wire) :
    (new maxItems maxBytes wire).Unovertaken where
  sound := (new_conserved maxItems maxBytes wire).toSound
  underway call hcall := by
    rcases hcall with hmem | hheld
    · cases hmem
    · cases hheld
  handed _ _ hmem := by cases hmem
  order := .nil

variable {ev : StageEvent} {fresh sent : List R2StageItem}

lemma Since.mono {began : Nat} {items items' : List R2StageItem} (h : t.Since began items)
    (hf : Follows t t' fresh sent)
    (hmem : ∀ item ∈ items', item ∈ items ∨ t.accepted.length ≤ item.serial) :
    t'.Since began items' := by
  refine ⟨?_, fun item hitem => ?_⟩
  · rw [hf.accepted, length_append]
    exact h.1.trans (Nat.le_add_right _ _)
  · rcases hmem item hitem with hold | hnew
    · exact h.2 item hold
    · exact h.1.trans hnew

/-- What is put back was claimed, and while it was no direct send held the gate. -/
lemma requeue_queue (h : t.Sound) (hitem : item ∈ t.requeue.stager.sessions.queue s) :
    item ∈ t.stager.sessions.queue s ∨
      item ∈ t.gate.claimed ∧ item.session = s ∧ ∀ call, t.gate ≠ .direct call := by
  unfold requeue at hitem
  split at hitem
  · rename_i q frames hgate
    have hq : q.Packed := by
      have := h.packed
      rwa [hgate] at this
    obtain ⟨back, hsub, -, hqueue, -⟩ := t.stager.putBack_spec (q.unsent (frames + 1)) h.exact
    rw [show (t.stager.requeueUnsent q frames).1.sessions.queue s = _ from hqueue s] at hitem
    obtain hback | hold := mem_append.mp hitem
    · obtain ⟨hmem, hs⟩ := mem_filter.mp hback
      refine .inr ⟨?_, of_decide_eq_true hs, ?_⟩
      · rw [hgate, DrainGate.claimed, hq.flatMap_run]
        exact hsub.subset hmem
      · intro call hcall
        rw [hgate] at hcall
        cases hcall
    · exact .inl hold
  · exact .inl hitem

lemma Unovertaken.next_underway (h : t.Unovertaken) (hcond : t.PutsBackNewer ev)
    (hf : Follows t (t.next ev) fresh sent) (hcall : (t.next ev).Underway call) :
    (t.next ev).Since call.began ((t.next ev).stager.sessions.queue call.item.session) := by
  rcases StageTasks.next_underway h.sound ev hcall with hold | ⟨hbegan, hempty⟩
  · have hsince := h.underway call hold
    by_cases hev : ev.isRequeue = false
    · exact hsince.mono hf fun item hitem => next_queue h.sound hev hitem
    have hev' : ev.isRequeue = true := (Bool.eq_false_or_eq_true _).resolve_right hev
    obtain rfl : ev = .requeue := by
      cases ev with
      | requeue => rfl
      | _ => cases hev'
    refine ⟨?_, fun item hitem => ?_⟩
    · rw [hf.accepted, length_append]
      exact hsince.1.trans (Nat.le_add_right _ _)
    · rcases requeue_queue h.sound hitem with hqueue | ⟨hclaimed, hs, hgate⟩
      · exact hsince.2 item hqueue
      · exact hcond rfl call (hold.resolve_right (hgate call)) item hclaimed hs
  · refine ⟨?_, fun item hitem => ?_⟩
    · rw [hbegan, hf.accepted, length_append]
      exact Nat.le_add_right _ _
    · rw [hempty] at hitem
      cases hitem

/-- Behind a direct send nothing older of its session is pending. -/
lemma Unovertaken.next_handed (h : t.Unovertaken) (hf : Follows t (t.next ev) fresh sent)
    {began : Nat} (hmem : .direct item began ∈ (t.next ev).handed) :
    (t.next ev).Since began ((t.next ev).pending item.session) := by
  have hold : .direct item began ∈ t.handed →
      (t.next ev).Since began ((t.next ev).pending item.session) := by
    intro hmem
    refine (h.handed item began hmem).mono hf fun x hx => ?_
    have hx' := (hf.pending item.session).subset (mem_append_right _ hx)
    obtain hpending | hfresh := mem_append.mp hx'
    · exact .inl hpending
    · exact .inr (hf.fresh_newer (mem_of_mem_filter hfresh))
  rcases StageTasks.next_handed t ev with ⟨items, hhanded⟩ | ⟨call, hgate, hfree, hstager, hhanded⟩
  · rw [hhanded] at hmem
    obtain hmem | hmem := mem_append.mp hmem
    · exact hold hmem
    · obtain ⟨_, _, heq⟩ := mem_map.mp hmem
      cases heq
  rw [hhanded] at hmem
  obtain hmem | hmem := mem_append.mp hmem
  · exact hold hmem
  · -- The gate is free again, so what is pending is what the queue holds.
    obtain ⟨rfl, rfl⟩ := HandedOver.direct.inj (mem_singleton.mp hmem)
    refine (h.underway call (.inr hgate)).mono hf fun x hx => .inl ?_
    rw [pending, hfree, hstager] at hx
    exact hx

lemma Unovertaken.next_order (h : t.Unovertaken) (hf : Follows t (t.next ev) fresh sent) :
    (t.next ev).handed.Pairwise NotOvertaken := by
  rcases StageTasks.next_handed t ev with ⟨items, hhanded⟩ | ⟨call, -, -, -, hhanded⟩
  · have hsent : items = sent := by
      have hdrained := hf.drained
      rw [drained, hhanded, filterMap_append, filterMap_map] at hdrained
      exact (filterMap_some (l := items)).symm.trans (append_cancel_left hdrained)
    rw [hhanded]
    refine pairwise_append.mpr ⟨h.order, ?_, ?_⟩
    · exact pairwise_map.mpr (pairwise_of_forall fun _ _ => trivial)
    intro first hfirst second hsecond
    obtain ⟨item', hitem', rfl⟩ := mem_map.mp hsecond
    cases first with
    | drained item => trivial
    | direct item began =>
      intro hs
      have hin : item' ∈ ofSession item.session sent :=
        mem_filter.mpr ⟨hsent ▸ hitem', decide_eq_true hs⟩
      have hsince := h.handed item began hfirst
      obtain hpending | hfresh := mem_append.mp
        ((hf.pending item.session).subset (mem_append_left _ hin))
      · exact hsince.2 item' hpending
      · exact hsince.1.trans (hf.fresh_newer (mem_of_mem_filter hfresh))
  · rw [hhanded]
    refine pairwise_append.mpr ⟨h.order, pairwise_singleton _ _, ?_⟩
    intro first _ second hsecond
    obtain rfl := mem_singleton.mp hsecond
    cases first <;> trivial

lemma Unovertaken.next (h : t.Unovertaken) (hcond : t.PutsBackNewer ev) :
    (t.next ev).Unovertaken := by
  obtain ⟨hsound, fresh, sent, hf⟩ := next_follows h.sound ev
  exact ⟨hsound, fun call hcall => h.next_underway hcond hf hcall,
    fun item began hmem => h.next_handed hf hmem, h.next_order hf⟩

/-- A direct send overtakes no item of its session that was pushed before it, as long as no drain
puts one back between the test of the queue and the gate. -/
theorem direct_send_in_order (maxItems maxBytes : Nat) (wire : Wire) (es : List StageEvent)
    (hcond : Along next PutsBackNewer (new maxItems maxBytes wire) es) :
    (after next (new maxItems maxBytes wire) es).handed.Pairwise NotOvertaken := by
  have hstep : ∀ (t : StageTasks) (ev : StageEvent), t.Unovertaken → t.PutsBackNewer ev →
      (t.next ev).Unovertaken := fun _ _ h hev => h.next hev
  exact (after_of_invariant hstep (new_unovertaken maxItems maxBytes wire) hcond).order

/-- A payload of one octet on a flow that has no id yet. -/
def lonePayload (octet : UInt8) : StagePayload :=
  ⟨5, .inline 5 (.ip (.v4 ⟨0xC0000201⟩ 53)) false, [octet]⟩

theorem direct_send_in_order_before_pushes :
    let es := [.directTest (lonePayload 3), .push (lonePayload 1), .push (lonePayload 2), .takeGate,
      .claim 1200 4 64, .encode 1200, .send .blocked, .requeue, .release, .directGate 0,
      .directSend 1200 .sent]
    Along next PutsBackNewer (new 1024 262144 .rev3) es ∧
      (after next (new 1024 262144 .rev3) es).handed.Pairwise NotOvertaken := by
  intro es
  have hcond : Along next PutsBackNewer (new 1024 262144 .rev3) es := by decide +kernel
  exact ⟨hcond, direct_send_in_order 1024 262144 .rev3 es hcond⟩

/-- Two payloads are claimed when a direct send finds the queue empty. The first one is refused and
the second one put back, so that the third one goes out before it. -/
theorem direct_send_overtakes :
    let es := [.push (lonePayload 1), .push (lonePayload 2), .takeGate, .claim 1200 4 64,
      .encode 1200, .directTest (lonePayload 3), .send .blocked, .requeue, .release,
      .directGate 0, .directSend 1200 .sent, .takeGate, .claim 1200 4 64, .encode 1200, .send .sent]
    ¬(after next (new 1024 262144 .rev3) es).handed.Pairwise NotOvertaken := by
  intro es hordered
  have hhanded : (after next (new 1024 262144 .rev3) es).handed =
      [.direct ((lonePayload 3).item 2) 2, .drained ((lonePayload 2).item 1)] := by
    decide +kernel
  rw [hhanded, pairwise_pair] at hordered
  exact absurd (hordered rfl) (by decide)

end StageTasks

end MyQuic2
