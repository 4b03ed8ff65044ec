import MyQuic2.Udp.Stage
import Mathlib.Algebra.BigOperators.Group.List.Basic

/-!
# What the stager does to its queues

Every operation is described by the items it takes out of the queues or puts into
them, session by session, and by the same items in the two counters. The cursors of
the round robins decide which items these are and nothing else.
-/

namespace MyQuic2

open List Option R2StageItem Map

section

variable (s : UInt32) (item : R2StageItem)

/-- The items of one session, in their order. -/
def ofSession (session : UInt32) (items : List R2StageItem) : List R2StageItem :=
  items.filter fun item => item.session = session

@[simp] lemma ofSession_nil : ofSession s [] = [] := rfl

@[simp] lemma ofSession_append (xs ys : List R2StageItem) :
    ofSession s (xs ++ ys) = ofSession s xs ++ ofSession s ys := filter_append _ _

lemma ofSession_singleton : ofSession s [item] = if item.session = s then [item] else [] := by
  by_cases h : item.session = s
  · simp [ofSession, h]
  · simp [ofSession, h]

lemma ofSession_eq_self {s : UInt32} {items : List R2StageItem}
    (h : ∀ item ∈ items, item.session = s) : ofSession s items = items := by
  refine filter_eq_self.mpr fun item hitem => ?_
  rw [h item hitem]
  exact decide_eq_true rfl

lemma ofSession_eq_nil {s s' : UInt32} {items : List R2StageItem} (hs : s ≠ s')
    (h : ∀ item ∈ items, item.session = s) : ofSession s' items = [] := by
  refine filter_eq_nil_iff.mpr fun item hitem => ?_
  rw [h item hitem, decide_eq_true_eq]
  exact hs

@[simp] lemma payloadBytes_append (xs ys : List R2StageItem) :
    payloadBytes (xs ++ ys) = payloadBytes xs + payloadBytes ys := by
  unfold payloadBytes
  rw [map_append, sum_append]

lemma payloadBytes_singleton : payloadBytes [item] = item.payload.length := by
  simp [payloadBytes]

end

lemma payloadBytes_perm {xs ys : List R2StageItem} (h : xs.Perm ys) :
    payloadBytes xs = payloadBytes ys := (h.map _).sum_eq

namespace R2Stager

/-- Everything that is queued. -/
def queued (st : R2Stager) : List R2StageItem := st.sessions.contents

/-- The two bounds of a stager. -/
def caps (st : R2Stager) : Nat × Nat := (st.maxItems, st.maxBytes)

/-- The counters say what is queued, each item is in the queue of its session, and both bounds
are kept. -/
structure Exact (st : R2Stager) : Prop where
  keyed : st.sessions.Keyed session
  items : st.queuedItems = st.queued.length
  bytes : st.queuedBytes = payloadBytes st.queued
  fitsItems : st.queuedItems ≤ st.maxItems
  fitsBytes : st.queuedBytes ≤ st.maxBytes

lemma clear_exact (st : R2Stager) : st.clear.1.Exact where
  keyed := by
    rintro k item ⟨⟩
  items := rfl
  bytes := rfl
  fitsItems := Nat.zero_le _
  fitsBytes := Nat.zero_le _

lemma Exact.queue_eq_nil {st : R2Stager} (h : st.Exact) (hempty : st.queuedItems = 0)
    (s : UInt32) : st.sessions.queue s = [] := by
  have hnil : st.queued = [] := length_eq_zero_iff.mp (h.items ▸ hempty)
  refine eq_nil_iff_forall_not_mem.mpr fun item hitem => ?_
  have hmem : item ∈ st.queued := mem_contents.mpr ⟨s, hitem⟩
  rw [hnil] at hmem
  cases hmem

/-- One stager is another one without some items. -/
structure Removes (st st' : R2Stager) (out : List R2StageItem) : Prop where
  queue : ∀ s, (st.sessions.queue s).Perm (ofSession s out ++ st'.sessions.queue s)
  kept : ∀ s, (st'.sessions.queue s).Sublist (st.sessions.queue s)
  items : st'.queuedItems = st.queuedItems - out.length
  bytes : st'.queuedBytes = st.queuedBytes - payloadBytes out
  maxItems : st'.maxItems = st.maxItems
  maxBytes : st'.maxBytes = st.maxBytes

variable {st st' st'' : R2Stager} {out out' : List R2StageItem}

lemma Removes.keyed (h : Removes st st' out) (hk : st.sessions.Keyed session) :
    st'.sessions.Keyed session :=
  fun s item hitem => hk s item ((h.kept s).subset hitem)

lemma Removes.perm (h : Removes st st' out) (hk : st.sessions.Keyed session) :
    st.queued.Perm (out ++ st'.queued) :=
  contents_perm_append hk (h.keyed hk) h.queue

lemma Removes.caps (h : Removes st st' out) : st'.caps = st.caps :=
  Prod.ext h.maxItems h.maxBytes

lemma Removes.exact (h : Removes st st' out) (he : st.Exact) : st'.Exact where
  keyed := h.keyed he.keyed
  items := by
    rw [h.items, he.items, (h.perm he.keyed).length_eq, length_append, Nat.add_sub_cancel_left]
  bytes := by
    rw [h.bytes, he.bytes, payloadBytes_perm (h.perm he.keyed), payloadBytes_append,
      Nat.add_sub_cancel_left]
  fitsItems := by
    rw [h.items, h.maxItems]
    exact (Nat.sub_le _ _).trans he.fitsItems
  fitsBytes := by
    rw [h.bytes, h.maxBytes]
    exact (Nat.sub_le _ _).trans he.fitsBytes

/-- One stager is another one without some heads of its queues. -/
structure Pulls (st st' : R2Stager) (out : List R2StageItem) : Prop where
  queue : ∀ s, st.sessions.queue s = ofSession s out ++ st'.sessions.queue s
  items : st'.queuedItems = st.queuedItems - out.length
  bytes : st'.queuedBytes = st.queuedBytes - payloadBytes out
  maxItems : st'.maxItems = st.maxItems
  maxBytes : st'.maxBytes = st.maxBytes

lemma Pulls.removes (h : Pulls st st' out) : Removes st st' out where
  queue s := Perm.of_eq (h.queue s)
  kept s := by
    rw [h.queue s]
    exact sublist_append_right _ _
  items := h.items
  bytes := h.bytes
  maxItems := h.maxItems
  maxBytes := h.maxBytes

lemma Pulls.keyed (h : Pulls st st' out) (hk : st.sessions.Keyed session) :
    st'.sessions.Keyed session := h.removes.keyed hk

lemma Pulls.trans (h : Pulls st st' out) (h' : Pulls st' st'' out') :
    Pulls st st'' (out ++ out') where
  queue s := by rw [h.queue s, h'.queue s, ofSession_append, append_assoc]
  items := by rw [h'.items, h.items, length_append, Nat.sub_sub]
  bytes := by rw [h'.bytes, h.bytes, payloadBytes_append, Nat.sub_sub]
  maxItems := h'.maxItems.trans h.maxItems
  maxBytes := h'.maxBytes.trans h.maxBytes

/-- Two stagers differ in their cursors only. -/
structure SameQueues (st st' : R2Stager) : Prop where
  sessions : st'.sessions = st.sessions
  items : st'.queuedItems = st.queuedItems
  bytes : st'.queuedBytes = st.queuedBytes
  maxItems : st'.maxItems = st.maxItems
  maxBytes : st'.maxBytes = st.maxBytes

lemma SameQueues.refl (st : R2Stager) : SameQueues st st := ⟨rfl, rfl, rfl, rfl, rfl⟩

lemma SameQueues.trans (h : SameQueues st st') (h' : SameQueues st' st'') : SameQueues st st'' :=
  ⟨h'.sessions.trans h.sessions, h'.items.trans h.items, h'.bytes.trans h.bytes,
    h'.maxItems.trans h.maxItems, h'.maxBytes.trans h.maxBytes⟩

lemma SameQueues.pulls (h : SameQueues st st') : Pulls st st' [] where
  queue s := by rw [h.sessions, ofSession_nil, nil_append]
  items := h.items
  bytes := h.bytes
  maxItems := h.maxItems
  maxBytes := h.maxBytes

lemma Pulls.trans_same (h : Pulls st st' out) (h' : SameQueues st' st'') : Pulls st st'' out := by
  have := h.trans h'.pulls
  rwa [append_nil] at this

lemma SameQueues.removes (h' : SameQueues st' st'') (h : Removes st st' out) :
    Removes st st'' out where
  queue s := by
    rw [h'.sessions]
    exact h.queue s
  kept s := by
    rw [h'.sessions]
    exact h.kept s
  items := h'.items.trans h.items
  bytes := h'.bytes.trans h.bytes
  maxItems := h'.maxItems.trans h.maxItems
  maxBytes := h'.maxBytes.trans h.maxBytes

lemma addSteadyHead_same (st : R2Stager) (s : UInt32) : SameQueues st (st.addSteadyHead s) := by
  unfold addSteadyHead
  split
  · exact ⟨rfl, rfl, rfl, rfl, rfl⟩
  · exact .refl st

lemma forgetSteady_same (s : UInt32) : SameQueues st (st.forgetSteady s) := by
  unfold forgetSteady
  split
  · exact ⟨rfl, rfl, rfl, rfl, rfl⟩
  · exact .refl st

section

variable (sessions : List UInt32) (st : R2Stager)

lemma reseatSteady_same (s : UInt32) : SameQueues st (st.reseatSteady s) := by
  unfold reseatSteady
  split
  · exact addSteadyHead_same st s
  · exact forgetSteady_same s

lemma rotateSteadyPast_same (s : UInt32) : SameQueues st (st.rotateSteadyPast s) := by
  unfold rotateSteadyPast
  split
  · exact .refl st
  split
  · exact .refl st
  · exact ⟨rfl, rfl, rfl, rfl, rfl⟩

lemma setMaxTrainItems_same (n : UInt8) : SameQueues st (st.setMaxTrainItems n) := by
  unfold setMaxTrainItems
  split
  · exact ⟨rfl, rfl, rfl, rfl, rfl⟩
  · exact .refl st

lemma foldl_addSteadyHead_same : SameQueues st (sessions.foldl addSteadyHead st) := by
  induction sessions generalizing st with
  | nil => exact .refl st
  | cons s sessions ih => exact (addSteadyHead_same st s).trans (ih _)

lemma skipEmpty_same (order : List UInt32) : SameQueues st (st.skipEmpty order).2 := by
  induction order with
  | nil => exact ⟨rfl, rfl, rfl, rfl, rfl⟩
  | cons s order ih =>
    unfold skipEmpty
    split
    · exact ⟨rfl, rfl, rfl, rfl, rfl⟩
    · exact ih

end

variable {s : UInt32} {items : List R2StageItem}

lemma skipEmpty_hasSession (st : R2Stager) {order : List UInt32}
    (h : (st.skipEmpty order).1 = some s) : st.sessions.queue s ≠ [] := by
  induction order with
  | nil => cases h
  | cons s' order ih =>
    unfold skipEmpty at h
    split at h
    · rename_i hs
      obtain rfl : s' = s := some.inj h
      intro hnil
      rw [hasSession, hnil] at hs
      cases hs
    · exact ih h

lemma skipUnsteady_same (st : R2Stager) (order : List UInt32) :
    SameQueues st (st.skipUnsteady order).2 := by
  induction order generalizing st with
  | nil => exact ⟨rfl, rfl, rfl, rfl, rfl⟩
  | cons s order ih =>
    unfold skipUnsteady
    split
    · exact ⟨rfl, rfl, rfl, rfl, rfl⟩
    · obtain ⟨h₁, h₂, h₃, h₄, h₅⟩ := ih { st with steadyMark := st.steadyMark.erase s }
      exact ⟨h₁, h₂, h₃, h₄, h₅⟩

lemma popOne_eq_none (h : st.popOne s = none) : st.sessions.queue s = [] := by
  unfold popOne at h
  split at h
  · assumption
  · cases h

lemma popOne_head? {item : R2StageItem} (h : st.popOne s = some (item, st')) :
    (st.sessions.queue s).head? = some item := by
  unfold popOne at h
  split at h
  · cases h
  rename_i head rest hq
  obtain ⟨rfl, -⟩ := Prod.mk.inj (some.inj h)
  rw [hq]
  rfl

/-- A pop takes the head of one queue. -/
lemma popOne_pulls (hk : st.sessions.Keyed session) {item : R2StageItem}
    (h : st.popOne s = some (item, st')) : Pulls st st' [item] := by
  unfold popOne at h
  split at h
  · cases h
  rename_i head rest hq
  obtain ⟨rfl, rfl⟩ := Prod.mk.inj (some.inj h)
  have hsession : head.session = s := hk s head (hq ▸ mem_cons_self)
  have hsplit : ∀ s', st.sessions.queue s' =
      ofSession s' [head] ++ if s' = s then rest else st.sessions.queue s' := by
    intro s'
    rw [ofSession_singleton, hsession]
    by_cases hs : s' = s
    · rw [if_pos hs, if_pos hs.symm, hs, hq, singleton_append]
    · rw [if_neg hs, if_neg (Ne.symm hs), nil_append]
  by_cases hrest : rest.isEmpty = true
  · -- The queue is empty now and leaves the map.
    simp only [hrest, if_true]
    refine ⟨fun s' => ?_, rfl, by rw [payloadBytes_singleton], rfl, rfl⟩
    rw [isEmpty_iff.mp hrest] at hsplit
    rw [queue_erase]
    exact hsplit s'
  simp only [hrest, if_false, Bool.false_eq_true]
  have hsame := addSteadyHead_same { st with sessions := st.sessions.insert s rest } s
  refine ⟨fun s' => ?_, ?_, ?_, hsame.maxItems, hsame.maxBytes⟩
  · rw [hsame.sessions, queue_insert]
    exact hsplit s'
  · rw [hsame.items]
    rfl
  · rw [hsame.bytes, payloadBytes_singleton]

/-- One stager is another one with one more item. -/
structure Adds (st st' : R2Stager) (item : R2StageItem) : Prop where
  queue : ∀ s, (st'.sessions.queue s).Perm (ofSession s [item] ++ st.sessions.queue s)
  items : st'.queuedItems = st.queuedItems + 1
  bytes : st'.queuedBytes = st.queuedBytes + item.payload.length
  maxItems : st'.maxItems = st.maxItems
  maxBytes : st'.maxBytes = st.maxBytes
  fitsItems : st.queuedItems < st.maxItems
  fitsBytes : st.queuedBytes + item.payload.length ≤ st.maxBytes

variable {item : R2StageItem}

lemma Adds.keyed (h : Adds st st' item) (hk : st.sessions.Keyed session) :
    st'.sessions.Keyed session := by
  intro s x hx
  obtain hx | hx := mem_append.mp ((h.queue s).subset hx)
  · exact of_decide_eq_true (mem_filter.mp hx).2
  · exact hk s x hx

lemma Adds.perm (h : Adds st st' item) (hk : st.sessions.Keyed session) :
    st'.queued.Perm (item :: st.queued) :=
  contents_perm_append (h.keyed hk) hk h.queue

lemma Adds.caps (h : Adds st st' item) : st'.caps = st.caps :=
  Prod.ext h.maxItems h.maxBytes

lemma Adds.exact (h : Adds st st' item) (he : st.Exact) : st'.Exact where
  keyed := h.keyed he.keyed
  items := by rw [h.items, he.items, (h.perm he.keyed).length_eq, length_cons]
  bytes := by
    rw [h.bytes, he.bytes, payloadBytes_perm (h.perm he.keyed), ← singleton_append,
      payloadBytes_append, payloadBytes_singleton, Nat.add_comm]
  fitsItems := by
    rw [h.items, h.maxItems]
    exact h.fitsItems
  fitsBytes := by
    rw [h.bytes, h.maxBytes]
    exact h.fitsBytes

lemma SameQueues.adds (h' : SameQueues st' st'') (h : Adds st st' item) : Adds st st'' item where
  queue s := by
    rw [h'.sessions]
    exact h.queue s
  items := h'.items.trans h.items
  bytes := h'.bytes.trans h.bytes
  maxItems := h'.maxItems.trans h.maxItems
  maxBytes := h'.maxBytes.trans h.maxBytes
  fitsItems := h.fitsItems
  fitsBytes := h.fitsBytes

section

variable (m : Map UInt32 (List R2StageItem)) (item : R2StageItem) (s : UInt32)

lemma queue_insert_back :
    queue (m.insert item.session (m.queue item.session ++ [item])) s =
      m.queue s ++ ofSession s [item] := by
  rw [queue_insert, ofSession_singleton]
  by_cases hs : s = item.session
  · rw [if_pos hs, if_pos hs.symm, hs]
  · rw [if_neg hs, if_neg (Ne.symm hs), append_nil]

lemma queue_insert_front :
    queue (m.insert item.session (item :: m.queue item.session)) s =
      ofSession s [item] ++ m.queue s := by
  rw [queue_insert, ofSession_singleton]
  by_cases hs : s = item.session
  · rw [if_pos hs, if_pos hs.symm, hs, singleton_append]
  · rw [if_neg hs, if_neg (Ne.symm hs), nil_append]

end

lemma push_spec (h : st.push item = some st') :
    Adds st st' item ∧ ∀ s, st'.sessions.queue s = st.sessions.queue s ++ ofSession s [item] := by
  unfold push at h
  split at h
  · cases h
  rename_i hfull
  obtain ⟨hi, hb⟩ := not_or.mp hfull
  obtain rfl := some.inj h
  have hqueue := queue_insert_back st.sessions item
  split
  · have hsame := addSteadyHead_same { st with
        order := st.order ++ [item.session]
        sessions := st.sessions.insert item.session (st.sessions.queue item.session ++ [item])
        queuedItems := st.queuedItems + 1
        queuedBytes := st.queuedBytes + item.payload.length } item.session
    refine ⟨hsame.adds ⟨fun s => ?_, rfl, rfl, rfl, rfl, ?_, ?_⟩, fun s => ?_⟩
    · rw [hqueue s]
      exact perm_append_comm
    · exact Nat.lt_of_not_le hi
    · exact Nat.le_of_not_lt hb
    · rw [hsame.sessions]
      exact hqueue s
  · refine ⟨⟨fun s => ?_, rfl, rfl, rfl, rfl, ?_, ?_⟩, hqueue⟩
    · rw [hqueue s]
      exact perm_append_comm
    · exact Nat.lt_of_not_le hi
    · exact Nat.le_of_not_lt hb

lemma pushFront_spec (h : st.pushFront item = some st') :
    Adds st st' item ∧ ∀ s, st'.sessions.queue s = ofSession s [item] ++ st.sessions.queue s := by
  unfold pushFront at h
  split at h
  · cases h
  rename_i hfull
  obtain ⟨hi, hb⟩ := not_or.mp hfull
  obtain rfl := some.inj h
  have hqueue := queue_insert_front st.sessions item
  refine ⟨(reseatSteady_same _ _).adds ⟨fun s => ?_, rfl, rfl, rfl, rfl, ?_, ?_⟩, fun s => ?_⟩
  · exact Perm.of_eq (hqueue s)
  · exact Nat.lt_of_not_le hi
  · exact Nat.le_of_not_lt hb
  · rw [(reseatSteady_same _ _).sessions]
    exact hqueue s

/-- A burst is queued up to the first item that does not fit. -/
inductive PushesAll : R2Stager → List R2StageItem → R2Stager → Prop
  | nil (st : R2Stager) : PushesAll st [] st
  | cons {st st' st'' : R2Stager} {item : R2StageItem} {items : List R2StageItem}
      (head : st.push item = some st') (tail : PushesAll st' items st'') :
      PushesAll st (item :: items) st''

lemma PushesAll.spec (h : PushesAll st items st') (he : st.Exact) :
    st'.Exact ∧ st'.caps = st.caps ∧ st'.queued.Perm (items ++ st.queued) ∧
      ∀ s, st'.sessions.queue s = st.sessions.queue s ++ ofSession s items := by
  induction h with
  | nil st =>
    refine ⟨he, rfl, .refl _, fun s => ?_⟩
    rw [ofSession_nil, append_nil]
  | cons head tail ih =>
    obtain ⟨hadds, hback⟩ := push_spec head
    obtain ⟨hexact, hcaps, hperm, hqueue⟩ := ih (hadds.exact he)
    refine ⟨hexact, hcaps.trans hadds.caps, ?_, fun s => ?_⟩
    · refine hperm.trans (((hadds.perm he.keyed).append_left _).trans ?_)
      exact perm_middle
    · rw [hqueue s, hback s, append_assoc, ← ofSession_append, singleton_append]

lemma push_isSome (st : R2Stager) (item : R2StageItem) (hi : st.queuedItems < st.maxItems)
    (hb : st.queuedBytes + item.payload.length ≤ st.maxBytes) : ∃ st', st.push item = some st' := by
  unfold push
  rw [if_neg (not_or.mpr ⟨Nat.not_le_of_lt hi, Nat.not_lt_of_le hb⟩)]
  exact ⟨_, rfl⟩

-- The pass over the burst counts from the stager it found, and the pushes from the stager they
-- have reached: the two agree when the first is the second less what was pushed.
lemma fitting_pushesAll (items : List R2StageItem) (base st : R2Stager) (k : Nat)
    (hi : st.queuedItems = base.queuedItems + k) (hmi : st.maxItems = base.maxItems)
    (hmb : st.maxBytes = base.maxBytes) :
    ∃ n, base.fitting k st.queuedBytes items = k + n ∧
      PushesAll st (items.take n)
        ((items.take n).foldl (fun st item => (st.push item).getD st) st) := by
  induction items generalizing st k with
  | nil => exact ⟨0, rfl, .nil st⟩
  | cons item items ih =>
    unfold fitting
    split
    · exact ⟨0, rfl, .nil st⟩
    rename_i hfits
    obtain ⟨hni, hnb⟩ := not_or.mp hfits
    obtain ⟨st', hpush⟩ := push_isSome st item (by omega) (by omega)
    obtain ⟨hadds, -⟩ := push_spec hpush
    obtain ⟨n, hn, hall⟩ := ih st' (k + 1) (by rw [hadds.items]; omega)
      (hadds.maxItems.trans hmi) (hadds.maxBytes.trans hmb)
    rw [hadds.bytes] at hn
    refine ⟨n + 1, by rw [hn]; omega, ?_⟩
    rw [take_succ_cons, foldl_cons, hpush]
    exact .cons hpush hall

/-- None of the items the pass found to fit is refused. -/
lemma pushBatch_spec (st : R2Stager) (items : List R2StageItem) :
    ∃ n, (st.pushBatch items).2 = items.drop n ∧
      PushesAll st (items.take n) (st.pushBatch items).1 := by
  obtain ⟨n, hn, hall⟩ := fitting_pushesAll items st st 0 rfl rfl rfl
  rw [Nat.zero_add] at hn
  refine ⟨n, ?_, ?_⟩
  · simp [pushBatch, hn]
  · simp only [pushBatch, hn]
    exact hall

lemma putBack_cons_of_none (h : (st.putBack items).1.pushFront item = none) :
    st.putBack (item :: items) = ((st.putBack items).1, item :: (st.putBack items).2) := by
  unfold putBack at h ⊢
  rw [foldr_cons, h]

lemma putBack_cons_of_some (h : (st.putBack items).1.pushFront item = some st') :
    st.putBack (item :: items) = (st', (st.putBack items).2) := by
  unfold putBack at h ⊢
  rw [foldr_cons, h]

/-- What each accepted item keeps, the items put back keep together. -/
lemma putBack_kept {P : R2Stager → Prop}
    (hstep : ∀ {st st' : R2Stager} {item}, st.pushFront item = some st' → P st → P st')
    (h : P st) (items : List R2StageItem) : P (st.putBack items).1 := by
  induction items with
  | nil => exact h
  | cons item items ih =>
    cases hpush : (st.putBack items).1.pushFront item with
    | none =>
      rw [putBack_cons_of_none hpush]
      exact ih
    | some st' =>
      rw [putBack_cons_of_some hpush]
      exact hstep hpush ih

/-- Items put back precede those queued, in their order; the ones that found the queue full are
missing. -/
lemma putBack_spec (items : List R2StageItem) (st : R2Stager) (he : st.Exact) :
    ∃ back, back.Sublist items ∧ items.Perm (back ++ (st.putBack items).2) ∧
      (∀ s, (st.putBack items).1.sessions.queue s = ofSession s back ++ st.sessions.queue s) ∧
      (st.putBack items).1.queued.Perm (back ++ st.queued) ∧ (st.putBack items).1.Exact ∧
      (st.putBack items).1.caps = st.caps := by
  induction items with
  | nil => exact ⟨[], List.Sublist.refl _, .refl _, fun s => rfl, .refl _, he, rfl⟩
  | cons item items ih =>
    obtain ⟨back, hsub, hperm, hqueue, hqueued, hexact, hcaps⟩ := ih
    cases hpush : (st.putBack items).1.pushFront item with
    | none =>
      rw [putBack_cons_of_none hpush]
      refine ⟨back, hsub.cons item, ?_, hqueue, hqueued, hexact, hcaps⟩
      exact (hperm.cons item).trans perm_middle.symm
    | some st' =>
      rw [putBack_cons_of_some hpush]
      obtain ⟨hadds, hfront⟩ := pushFront_spec hpush
      refine ⟨item :: back, hsub.cons_cons item, hperm.cons item, fun s => ?_, ?_, ?_,
        hadds.caps.trans hcaps⟩
      · rw [hfront s, hqueue s, show item :: back = [item] ++ back from rfl,
          ofSession_append, append_assoc]
      · exact (hadds.perm hexact.keyed).trans (hqueued.cons item)
      · exact hadds.exact hexact

section

variable (he : st.Exact) (wireId : UInt32)
include he

lemma dropSession_removes (s : UInt32) : Removes st (st.dropSession s).1 (st.dropSession s).2 := by
  unfold dropSession
  split
  · exact (SameQueues.refl st).pulls.removes
  rename_i queue hq
  have hqueue : st.sessions.queue s = queue := by rw [Map.queue, hq, getD_some]
  have hown : ∀ item ∈ queue, item.session = s := fun item hitem =>
    he.keyed s item (hqueue ▸ hitem)
  refine (forgetSteady_same s).removes ⟨fun s' => ?_, fun s' => ?_, rfl, rfl, rfl, rfl⟩
  · rw [queue_erase]
    by_cases hs : s' = s
    · rw [if_pos hs, hs, hqueue, ofSession_eq_self hown, append_nil]
    · rw [if_neg hs, ofSession_eq_nil (Ne.symm hs) hown, nil_append]
  · rw [queue_erase]
    split
    · exact nil_sublist _
    · exact List.Sublist.refl _

lemma queue_perm_dropped :
    (st.sessions.queue s).Perm
      (ofSession s (st.queued.filter fun item => item.names wireId) ++
        (st.sessions.queue s).filter fun item => !item.names wireId) := by
  have hown : (ofSession s (st.queued.filter fun item => item.names wireId)).Perm
      ((st.sessions.queue s).filter fun item => item.names wireId) := by
    rw [ofSession, filter_comm]
    exact (filter_contents_perm he.keyed s).filter _
  exact (filter_append_perm _ _).symm.trans (hown.symm.append_right _)

lemma dropFlow_removes : Removes st (st.dropFlow wireId).1 (st.dropFlow wireId).2 := by
  obtain ⟨left, hleft⟩ : ∃ left, left =
      st.sessions.mapValues fun _ q => q.filter fun item => !item.names wireId := ⟨_, rfl⟩
  have hqueue : ∀ s, left.queue s =
      (st.sessions.queue s).filter fun item => !item.names wireId := by
    intro s
    rw [hleft]
    exact queue_mapValues _ _ rfl s
  have hkept : ∀ s, (left.queue s).Sublist (st.sessions.queue s) := by
    intro s
    rw [hqueue s]
    exact filter_sublist
  have hperm : ∀ s, (st.sessions.queue s).Perm
      (ofSession s (st.queued.filter fun item => item.names wireId) ++ left.queue s) := by
    intro s
    rw [hqueue s]
    exact queue_perm_dropped he wireId
  have hall : st.queued.Perm ((st.queued.filter fun item => item.names wireId) ++ left.contents) :=
    contents_perm_append he.keyed
      (fun s item hitem => he.keyed s item ((hkept s).subset hitem)) hperm
  unfold dropFlow
  dsimp only
  rw [← hleft]
  split
  · exact (SameQueues.refl st).pulls.removes
  refine (foldl_addSteadyHead_same _ _).removes ⟨hperm, hkept, ?_, ?_, rfl, rfl⟩
  · rw [he.items, hall.length_eq, length_append]
    exact (Nat.add_sub_cancel_left ..).symm
  · rw [he.bytes, payloadBytes_perm hall, payloadBytes_append]
    exact (Nat.add_sub_cancel_left ..).symm

lemma dropFlowScoped_removes (s wireId : UInt32) :
    Removes st (st.dropFlowScoped s wireId).1 (st.dropFlowScoped s wireId).2 := by
  unfold dropFlowScoped
  split
  · exact (SameQueues.refl st).pulls.removes
  rename_i queue hq
  have hqueue : st.sessions.queue s = queue := by rw [Map.queue, hq, getD_some]
  have hown : ∀ item ∈ queue.filter fun item => item.names wireId, item.session = s :=
    fun item hitem => he.keyed s item (hqueue ▸ mem_of_mem_filter hitem)
  dsimp only
  split
  · exact (SameQueues.refl st).pulls.removes
  refine (reseatSteady_same _ s).removes ⟨fun s' => ?_, fun s' => ?_, rfl, rfl, rfl, rfl⟩
  · rw [queue_insert]
    by_cases hs : s' = s
    · rw [if_pos hs, hs, hqueue, ofSession_eq_self hown]
      exact (filter_append_perm _ _).symm
    · rw [if_neg hs, ofSession_eq_nil (Ne.symm hs) hown, nil_append]
  · rw [queue_insert]
    split
    · rename_i hs
      rw [hs, hqueue]
      exact filter_sublist
    · exact List.Sublist.refl _

end

end R2Stager

end MyQuic2
