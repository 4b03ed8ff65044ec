import MyQuic2.Udp.Packing

/-!
# Turns of the sessions

A session joins the round robin when its queue gets an item and was empty. Its slot
stays behind when the queue runs empty again, until a claim walks over it. A queue
that is refilled before that has two slots, and its session gets two turns in a
round. Sessions that are not refilled so have one slot, and two of them whose heads
are sent alone take turns.
-/

namespace MyQuic2

open List Option R2Stager

section

variable {α : Type}

/-- The first value and the second one in turn. -/
def Alternating : α → α → List α → Prop
  | _, _, [] => True
  | x, y, z :: l => z = x ∧ Alternating y x l

variable {l : List α}

lemma Alternating.drop {x y : α} {r : List α} (h : Alternating x y (l ++ r)) :
    Alternating x y r ∨ Alternating y x r := by
  induction l generalizing x y with
  | nil => exact .inl h
  | cons z l ih => exact (ih h.2).symm

/-- Between two turns of one there is one of the other. -/
lemma Alternating.between {a b x y : α} (hne : a ≠ b) {m r : List α}
    (h : Alternating x y (l ++ a :: (m ++ a :: r))) (hxy : x = a ∧ y = b ∨ x = b ∧ y = a)
    (hm : ∀ z ∈ m, z = b) : m = [b] := by
  have hturn : Alternating a b (a :: (m ++ a :: r)) := by
    have hdrop := h.drop
    rcases hxy with ⟨rfl, rfl⟩ | ⟨rfl, rfl⟩
    · exact hdrop.resolve_right fun hwrong => hne hwrong.1
    · exact hdrop.resolve_left fun hwrong => hne hwrong.1
  cases m with
  | nil => exact absurd hturn.2.1 hne
  | cons z m =>
    cases m with
    | nil => rw [hm z (mem_cons_self ..)]
    | cons z' m =>
      -- Two turns of the other one do not follow each other.
      have hagain : z' = a := hturn.2.2.1
      have hb := hm z' (mem_cons_of_mem z (mem_cons_self ..))
      exact absurd (hagain.symm.trans hb) hne

/-- Two values that a list has once each. -/
lemma filter_pair [DecidableEq α] {a b : α} (hne : a ≠ b) (ha : l.count a = 1)
    (hb : l.count b = 1) :
    l.filter (fun s => s = a || s = b) = [a, b] ∨ l.filter (fun s => s = a || s = b) = [b, a] := by
  have hperm : (l.filter fun s => s = a || s = b).Perm [a, b] := by
    rw [perm_iff_count]
    intro z
    by_cases hz : z = a ∨ z = b
    · rw [count_filter (by simpa using hz)]
      rcases hz with rfl | rfl
      · simp [ha, hne.symm]
      · simp [hb, hne]
    rw [count_eq_zero_of_not_mem, count_eq_zero_of_not_mem]
    · simpa using hz
    · intro hmem
      exact hz (by simpa using (mem_filter.mp hmem).2)
  obtain ⟨u, v, huv⟩ := length_eq_two.mp hperm.length_eq
  rw [huv] at hperm ⊢
  rcases mem_cons.mp (hperm.subset (mem_cons_self ..)) with rfl | hu
  · have hv := perm_singleton.mp ((perm_cons _).mp hperm)
    exact .inl (by rw [hv])
  obtain rfl := mem_singleton.mp hu
  have hv := perm_singleton.mp ((perm_cons _).mp (hperm.trans (List.Perm.swap ..)))
  exact .inr (by rw [hv])

end

namespace R2Stager

variable {st st' : R2Stager} {item : R2StageItem} {s : UInt32}

@[simp] lemma order_addSteadyHead (st : R2Stager) (s : UInt32) :
    (st.addSteadyHead s).order = st.order := by
  unfold addSteadyHead
  split <;> rfl

@[simp] lemma order_forgetSteady : (st.forgetSteady s).order = st.order := by
  unfold forgetSteady
  split <;> rfl

@[simp] lemma order_reseatSteady : (st.reseatSteady s).order = st.order := by
  unfold reseatSteady
  split
  · exact order_addSteadyHead st s
  · exact order_forgetSteady

@[simp] lemma order_rotateSteadyPast : (st.rotateSteadyPast s).order = st.order := by
  unfold rotateSteadyPast
  split
  · rfl
  · split <;> rfl

lemma order_foldl_addSteadyHead (sessions : List UInt32) (st : R2Stager) :
    (sessions.foldl addSteadyHead st).order = st.order := by
  induction sessions generalizing st with
  | nil => rfl
  | cons s sessions ih => exact (ih _).trans (order_addSteadyHead st s)

lemma order_skipUnsteady (st : R2Stager) (order : List UInt32) :
    (st.skipUnsteady order).2.order = st.order := by
  induction order generalizing st with
  | nil => rfl
  | cons s order ih =>
    unfold skipUnsteady
    split
    · rfl
    · exact ih _

lemma order_setMaxTrainItems (st : R2Stager) (n : UInt8) :
    (st.setMaxTrainItems n).order = st.order := by
  unfold setMaxTrainItems
  split <;> rfl

lemma order_popOne (h : st.popOne s = some (item, st')) : st'.order = st.order := by
  unfold popOne at h
  split at h
  · cases h
  rename_i head rest hq
  obtain ⟨-, rfl⟩ := Prod.mk.inj (some.inj h)
  split
  · rfl
  · exact order_addSteadyHead ..

lemma Serves.order (h : Serves st st') : st'.order = st.order := by
  induction h with
  | refl => rfl
  | walk _ ih => exact (order_skipUnsteady _ _).trans ih
  | pop _ hpop ih => exact (order_popOne hpop).trans ih
  | turn _ _ ih => exact order_rotateSteadyPast.trans ih

lemma order_dropSession (st : R2Stager) (s : UInt32) : (st.dropSession s).1.order = st.order := by
  unfold dropSession
  split
  · rfl
  · exact order_forgetSteady ..

lemma order_dropFlow (wireId : UInt32) : (st.dropFlow wireId).1.order = st.order := by
  unfold dropFlow
  dsimp only
  split
  · rfl
  · exact order_foldl_addSteadyHead ..

lemma order_dropFlowScoped (wireId : UInt32) : (st.dropFlowScoped s wireId).1.order = st.order := by
  unfold dropFlowScoped
  split
  · rfl
  dsimp only
  split
  · rfl
  · exact order_reseatSteady ..

lemma skipEmpty_none {order : List UInt32} (h : (st.skipEmpty order).1 = none) :
    (st.skipEmpty order).2.order = [] := by
  induction order with
  | nil => rfl
  | cons s order ih =>
    unfold skipEmpty at h ⊢
    split at h
    · cases h
    rename_i hempty
    rw [if_neg hempty]
    exact ih h

/-- A walk drops slots of sessions without items and moves the session it finds behind all
others. -/
lemma skipEmpty_some {order : List UInt32} (h : (st.skipEmpty order).1 = some s) :
    ∃ l r, order = l ++ s :: r ∧ (∀ x ∈ l, st.sessions.queue x = []) ∧
      (st.skipEmpty order).2.order = r ++ [s] := by
  induction order with
  | nil => cases h
  | cons x order ih =>
    unfold skipEmpty at h ⊢
    split at h
    · rename_i hfound
      obtain rfl := some.inj h
      rw [if_pos hfound]
      exact ⟨[], order, rfl, fun x hx => absurd hx not_mem_nil, rfl⟩
    rename_i hempty
    rw [if_neg hempty]
    obtain ⟨l, r, horder, hl, hnext⟩ := ih h
    refine ⟨x :: l, r, by rw [horder, cons_append], ?_, hnext⟩
    refine forall_mem_cons.mpr ⟨?_, hl⟩
    simpa [hasSession] using hempty

/-- One more item is queued, and its session has one more slot if it had no item. -/
structure Joins (st st' : R2Stager) (item : R2StageItem) : Prop where
  queue : ∀ s, (st'.sessions.queue s).Perm (ofSession s [item] ++ st.sessions.queue s)
  order :
    (st'.order = if st.sessions.queue item.session = [] then st.order ++ [item.session]
      else st.order) ∨
    st'.order = if st.sessions.queue item.session = [] then item.session :: st.order
      else st.order

lemma push_joins (h : st.push item = some st') : Joins st st' item := by
  refine ⟨(push_spec h).1.queue, .inl ?_⟩
  unfold push at h
  split at h
  · cases h
  obtain rfl := some.inj h
  by_cases hempty : st.sessions.queue item.session = []
  · simp [hempty, order_addSteadyHead]
  · simp [hempty]

lemma pushFront_joins (h : st.pushFront item = some st') : Joins st st' item := by
  refine ⟨(pushFront_spec h).1.queue, .inr ?_⟩
  unfold pushFront at h
  split at h
  · cases h
  obtain rfl := some.inj h
  rw [order_reseatSteady]
  by_cases hempty : st.sessions.queue item.session = []
  · simp
  · simp

lemma Joins.count (h : Joins st st' item) (s : UInt32) :
    st'.order.count s =
      st.order.count s + if item.session = s ∧ st.sessions.queue s = [] then 1 else 0 := by
  by_cases hempty : st.sessions.queue item.session = []
  · by_cases hs : item.session = s
    · rw [if_pos ⟨hs, hs ▸ hempty⟩]
      rcases h.order with horder | horder
      · rw [horder, if_pos hempty, count_append, hs, count_singleton_self]
      · rw [horder, if_pos hempty, hs, count_cons_self]
    rw [if_neg fun hsame => hs hsame.1]
    rcases h.order with horder | horder
    · rw [horder, if_pos hempty, count_append, count_singleton, if_neg (by simpa using hs)]
    · rw [horder, if_pos hempty, count_cons_of_ne hs]
      rfl
  · have hkept : ¬ (item.session = s ∧ st.sessions.queue s = []) := by
      rintro ⟨rfl, hnil⟩
      exact hempty hnil
    rw [if_neg hkept]
    rcases h.order with horder | horder
    · rw [horder, if_neg hempty]
      rfl
    · rw [horder, if_neg hempty]
      rfl

/-- A session that can be queued for: it has one slot at most, and none without items. -/
def Joinable (s : UInt32) (st : R2Stager) : Prop :=
  st.order.count s ≤ 1 ∧ (st.sessions.queue s = [] → s ∉ st.order)

lemma Joins.joinable (h : Joins st st' item) (hs : st.Joinable s) : st'.Joinable s := by
  obtain ⟨hone, hnone⟩ := hs
  have hcount := h.count s
  have hqueue := h.queue s
  constructor
  · split at hcount
    · rename_i hjoins
      have hzero := count_eq_zero_of_not_mem (hnone hjoins.2)
      omega
    · omega
  intro hnil
  rw [hnil] at hqueue
  have hempty := append_eq_nil_iff.mp (nil_perm.mp hqueue)
  have hother : item.session ≠ s := by
    intro hs
    rw [ofSession_singleton, if_pos hs] at hempty
    cases hempty.1
  rw [if_neg fun hjoins => hother hjoins.1] at hcount
  refine count_eq_zero.mp ?_
  rw [hcount, count_eq_zero_of_not_mem (hnone hempty.2)]

/-- A burst, from the front or from the back. -/
inductive JoinsAll : R2Stager → List R2StageItem → R2Stager → Prop
  | nil (st : R2Stager) : JoinsAll st [] st
  | cons {st st' st'' : R2Stager} {item : R2StageItem} {items : List R2StageItem}
      (head : Joins st st' item) (tail : JoinsAll st' items st'') : JoinsAll st (item :: items) st''

variable {items : List R2StageItem}

lemma JoinsAll.snoc {st'' : R2Stager} (h : JoinsAll st items st') (hlast : Joins st' st'' item) :
    JoinsAll st (items ++ [item]) st'' := by
  induction h with
  | nil => exact .cons hlast (.nil st'')
  | cons head _ ih => exact .cons head (ih hlast)

lemma PushesAll.joins (h : PushesAll st items st') : JoinsAll st items st' := by
  induction h with
  | nil => exact .nil _
  | cons head _ ih => exact .cons (push_joins head) ih

lemma putBack_joins : ∃ back, JoinsAll st back (st.putBack items).1 ∧ back ⊆ items := by
  induction items with
  | nil => exact ⟨[], .nil st, List.Subset.refl _⟩
  | cons item items ih =>
    obtain ⟨back, hjoins, hsub⟩ := ih
    cases hpush : (st.putBack items).1.pushFront item with
    | none =>
      rw [putBack_cons_of_none hpush]
      exact ⟨back, hjoins, subset_cons_of_subset item hsub⟩
    | some st' =>
      rw [putBack_cons_of_some hpush]
      refine ⟨back ++ [item], hjoins.snoc (pushFront_joins hpush), ?_⟩
      refine append_subset.mpr ⟨subset_cons_of_subset item hsub, ?_⟩
      exact cons_subset.mpr ⟨mem_cons_self .., nil_subset _⟩

lemma JoinsAll.joinable (h : JoinsAll st items st') (hs : st.Joinable s) : st'.Joinable s := by
  induction h with
  | nil => exact hs
  | cons head _ ih => exact ih (head.joinable hs)

/-- A burst without items of a session leaves its slots. -/
lemma JoinsAll.count_of_absent (h : JoinsAll st items st')
    (habsent : ∀ item ∈ items, item.session ≠ s) : st'.order.count s = st.order.count s := by
  induction h with
  | nil => rfl
  | @cons st st' st'' item items head _ ih =>
    have hne := habsent item (mem_cons_self ..)
    rw [ih fun i hi => habsent i (mem_cons_of_mem item hi), head.count s,
      if_neg fun hjoins => hne hjoins.1]
    rfl

end R2Stager

/-- The items that an operation queues. -/
def StagerOp.adds : StagerOp → List R2StageItem
  | .push item => [item]
  | .pushFront item => [item]
  | .pushBatch items => items
  | .requeueUnsent q failedFrame => q.unsent (failedFrame + 1)
  | .putBack items => items
  | _ => []

def StagerOp.isPush : StagerOp → Bool
  | .push _ => true
  | .pushFront _ => true
  | .pushBatch _ => true
  | .requeueUnsent _ _ => true
  | .putBack _ => true
  | _ => false

def StagerOp.isClaim : StagerOp → Bool
  | .claimOneFrame _ _ => true
  | _ => false

namespace Claim

variable {c : Claim}

variable (limit : Nat) (s : UInt32)

lemma order_claimOneFrame (c : Claim) :
    (c.claimOneFrame limit).2.stager.order = c.stager.nextSession.2.order :=
  (serves_claimOneFrame limit).order

lemma count_nextSession_le (st : R2Stager) (s : UInt32) :
    st.nextSession.2.order.count s ≤ st.order.count s := by
  unfold nextSession
  cases hfound : (st.skipEmpty st.order).1 with
  | none =>
    rw [skipEmpty_none hfound]
    exact Nat.zero_le _
  | some x =>
    obtain ⟨l, r, horder, -, hnext⟩ := skipEmpty_some hfound
    rw [hnext, horder, (perm_append_singleton x r).count_eq, count_append]
    exact Nat.le_add_left _ _

lemma count_claimLoop_le (maxFrames maxItems rounds : Nat) (c : Claim) (s : UInt32) :
    (claimLoop limit maxFrames maxItems rounds c).stager.order.count s ≤
      c.stager.order.count s := by
  refine claimLoop_kept (P := fun st => st.order.count s ≤ c.stager.order.count s) _ _ _ _ _
    (fun c' hle => ?_) le_rfl
  rw [order_claimOneFrame]
  exact (count_nextSession_le c'.stager s).trans hle

end Claim

namespace R2Stager

variable {st : R2Stager} {s a b : UInt32}

/-- A session without items that gets one has no slot left over. -/
def Rejoins (s : UInt32) (st : R2Stager) (op : StagerOp) : Prop :=
  (∃ item ∈ op.adds, item.session = s) → st.sessions.queue s = [] → s ∉ st.order

instance (s : UInt32) (st : R2Stager) (op : StagerOp) : Decidable (Rejoins s st op) := by
  unfold Rejoins
  infer_instance

variable {op : StagerOp} {st' : R2Stager}

lemma next_joins (st : R2Stager) (hpush : op.isPush = true) :
    ∃ items, JoinsAll st items (st.next op) ∧ items ⊆ op.adds := by
  have hone : ∀ {item} {pushed : Option R2Stager}, (∀ st', pushed = some st' → Joins st st' item) →
      ∃ items, JoinsAll st items (pushed.getD st) ∧ items ⊆ [item] := fun hjoins =>
    getD_kept (P := fun st' => ∃ items, JoinsAll st items st' ∧ items ⊆ [_])
      ⟨[], .nil st, nil_subset _⟩ fun st' h =>
        ⟨[_], .cons (hjoins st' h) (.nil st'), List.Subset.refl _⟩
  cases op with
  | push item => exact hone fun _ => push_joins
  | pushFront item => exact hone fun _ => pushFront_joins
  | pushBatch items =>
    obtain ⟨n, -, hall⟩ := pushBatch_spec st items
    exact ⟨items.take n, hall.joins, take_subset n items⟩
  | requeueUnsent _ _ | putBack _ => exact putBack_joins
  | setMaxTrainItems _ | claimOneFrame _ _ | claimBatch _ _ _ _ | dropSession _ | dropFlow _
  | dropFlowScoped _ _ | clear => cases hpush

/-- No other operation gives a session a slot. -/
lemma count_next_le (hpush : op.isPush = false) :
    (st.next op).order.count s ≤ st.order.count s := by
  cases op with
  | push _ | pushFront _ | pushBatch _ | requeueUnsent _ _ | putBack _ => cases hpush
  | setMaxTrainItems n => exact (congrArg (List.count s) (order_setMaxTrainItems st n)).le
  | claimOneFrame limit q =>
    have horder := Claim.order_claimOneFrame limit ⟨st, q, []⟩
    exact (congrArg (List.count s) horder).le.trans (Claim.count_nextSession_le st s)
  | claimBatch limit maxFrames maxItems q => exact Claim.count_claimLoop_le _ _ _ _ _ s
  | dropSession session => exact (congrArg (List.count s) (order_dropSession st session)).le
  | dropFlow wireId => exact (congrArg (List.count s) (order_dropFlow wireId)).le
  | dropFlowScoped session wireId =>
    exact (congrArg (List.count s) (order_dropFlowScoped wireId)).le
  | clear => exact Nat.zero_le _

lemma count_next_le_one (h : st.order.count s ≤ 1) (hop : Rejoins s st op) :
    (st.next op).order.count s ≤ 1 := by
  cases hpush : op.isPush with
  | false => exact (count_next_le hpush).trans h
  | true =>
    obtain ⟨items, hall, hsub⟩ := next_joins st hpush
    by_cases hmem : ∃ item ∈ op.adds, item.session = s
    · exact (hall.joinable ⟨h, hop hmem⟩).1
    · refine (hall.count_of_absent fun item hitem hs => ?_).le.trans h
      exact hmem ⟨item, hsub hitem, hs⟩

lemma count_le_one_after (maxItems maxBytes : Nat) (wire : Wire) {ops : List StagerOp}
    (h : Along next (Rejoins s) (withCapacityWire maxItems maxBytes wire) ops) :
    (after next (withCapacityWire maxItems maxBytes wire) ops).order.count s ≤ 1 :=
  @after_of_invariant _ _ next (fun st => st.order.count s ≤ 1) _
    (fun _ _ hone hop => count_next_le_one hone hop) _ ops (Nat.zero_le _) h

/-- Whether the head of a session's queue is sent alone. -/
def standaloneHead (st : R2Stager) (session : UInt32) : Bool :=
  (st.sessions.queue session).head?.any fun item => !item.kind.isSteady

lemma standaloneHead_ne_nil (h : st.standaloneHead s = true) : st.sessions.queue s ≠ [] := by
  intro hnil
  rw [standaloneHead, hnil] at h
  cases h

/-- The session whose item begins the frame of a claim. -/
def claimedFrom (st : R2Stager) : StagerOp → List UInt32
  | .claimOneFrame limit q =>
    let claimed := (Claim.claimOneFrame limit ⟨st, q, []⟩).2.q.items.drop q.items.length
    (claimed.head?.map fun item => item.session).toList
  | _ => []

/-- The sessions from which a run claims frames. -/
def served : R2Stager → List StagerOp → List UInt32
  | _, [] => []
  | st, op :: ops => st.claimedFrom op ++ served (st.next op) ops

/-- The slots of two sessions. -/
def turns (a b : UInt32) (st : R2Stager) : List UInt32 :=
  st.order.filter fun s => s = a || s = b

/-- Pushes and claims, while two sessions have items and their heads are sent alone. -/
def Keeps (a b : UInt32) (st : R2Stager) (op : StagerOp) : Prop :=
  (op.isPush || op.isClaim) = true ∧ st.standaloneHead a = true ∧ st.standaloneHead b = true

instance (a b : UInt32) (st : R2Stager) (op : StagerOp) : Decidable (Keeps a b st op) := by
  unfold Keeps
  infer_instance

lemma Joins.turns {item : R2StageItem} (h : Joins st st' item) (ha : st.sessions.queue a ≠ [])
    (hb : st.sessions.queue b ≠ []) : st'.turns a b = st.turns a b := by
  unfold R2Stager.turns
  by_cases hempty : st.sessions.queue item.session = []
  · have hna : item.session ≠ a := fun heq => ha (heq ▸ hempty)
    have hnb : item.session ≠ b := fun heq => hb (heq ▸ hempty)
    rcases h.order with horder | horder
    · rw [horder, if_pos hempty, filter_append, filter_cons_of_neg (by simp [hna, hnb]),
        filter_nil, append_nil]
    · rw [horder, if_pos hempty, filter_cons_of_neg (by simp [hna, hnb])]
  · rcases h.order with horder | horder
    · rw [horder, if_neg hempty]
    · rw [horder, if_neg hempty]

lemma Joins.queue_ne_nil {item : R2StageItem} (h : Joins st st' item)
    (hs : st.sessions.queue s ≠ []) : st'.sessions.queue s ≠ [] := by
  intro hnil
  have hqueue := h.queue s
  rw [hnil] at hqueue
  exact hs (append_eq_nil_iff.mp (nil_perm.mp hqueue)).2

lemma JoinsAll.turns {items : List R2StageItem} (h : JoinsAll st items st')
    (ha : st.sessions.queue a ≠ []) (hb : st.sessions.queue b ≠ []) :
    st'.turns a b = st.turns a b := by
  induction h with
  | nil => rfl
  | cons head _ ih =>
    exact (ih (head.queue_ne_nil ha) (head.queue_ne_nil hb)).trans (head.turns ha hb)

/-- A walk finds the one of two sessions that is first, or a third one. -/
lemma turns_nextSession (ha : st.sessions.queue a ≠ []) (hb : st.sessions.queue b ≠ [])
    (hfound : st.nextSession.1 = some s) :
    (s = a ∨ s = b) ∧
        (∃ r, st.turns a b = s :: r ∧ st.nextSession.2.turns a b = r ++ [s]) ∨
      (s ≠ a ∧ s ≠ b) ∧ st.nextSession.2.turns a b = st.turns a b := by
  obtain ⟨l, r, horder, hempty, hnext⟩ := skipEmpty_some hfound
  have hl : l.filter (fun s => s = a || s = b) = [] := by
    rw [filter_eq_nil_iff]
    intro x hx hxab
    rw [Bool.or_eq_true, decide_eq_true_eq, decide_eq_true_eq] at hxab
    rcases hxab with rfl | rfl
    · exact ha (hempty x hx)
    · exact hb (hempty x hx)
  unfold turns nextSession
  rw [hnext, horder, filter_append, hl, nil_append, filter_append]
  by_cases hs : s = a ∨ s = b
  · refine .inl ⟨hs, r.filter fun s => s = a || s = b, ?_, ?_⟩
    · rw [filter_cons_of_pos (by simpa using hs)]
    · rw [filter_cons_of_pos (by simpa using hs), filter_nil]
  refine .inr ⟨not_or.mp hs, ?_⟩
  rw [filter_cons_of_neg (by simpa using hs), filter_cons_of_neg (by simpa using hs),
    filter_nil, append_nil]

end R2Stager

namespace Claim

variable {c : Claim} {s : UInt32}

variable (hk : c.stager.sessions.Keyed R2StageItem.session)
include hk

lemma head_popOne {st' : R2Stager} {item : R2StageItem}
    (hpop : c.stager.popOne s = some (item, st')) : item.session = s :=
  hk s item (mem_of_head? (popOne_head? hpop))

/-- A head that is sent alone is the whole frame. -/
lemma items_standalone (hs : c.stager.sessions.queue s ≠ []) :
    ∃ item, item.session = s ∧ (c.standalone s).q.items = c.q.items ++ [item] := by
  unfold standalone
  split
  · next hpop => exact absurd (popOne_eq_none hpop) hs
  · next item st hpop => exact ⟨item, head_popOne hk hpop, rfl⟩

/-- A train begins with an item of the session that was found. -/
lemma items_steadyFrame (limit : Nat) :
    (c.steadyFrame limit s).q.items = c.q.items ∨
      ∃ item rest, item.session = s ∧
        (c.steadyFrame limit s).q.items = c.q.items ++ item :: rest := by
  unfold steadyFrame
  split
  · left
    unfold dropHead
    split
    · split <;> rfl
    · rfl
  rename_i st run unique htake
  right
  obtain ⟨item, _, mid, hpop, -, -, rfl, rfl, -⟩ := takeSteadyHead_cases htake
  have hpull := (popOne_pulls hk hpop).trans_same (rotateSteadyPast_same mid s)
  obtain ⟨out, hout, -⟩ := steadyRun_pulls limit
    (mid.rotateSteadyPast s).maxTrainItems (mid.rotateSteadyPast s) (hpull.keyed hk)
    ([] ++ [item]) unique
  refine ⟨item, out, head_popOne hk hpop, ?_⟩
  exact congrArg (c.q.items ++ ·) hout

end Claim

namespace R2Stager

variable {st : R2Stager} {s a b : UInt32}

lemma claimedFrom_eq (hk : st.sessions.Keyed R2StageItem.session) (limit : Nat)
    (q : PackedFrames) (hfound : st.nextSession.1 = some s) :
    (st.claimedFrom (.claimOneFrame limit q) = [s] ∨
        st.claimedFrom (.claimOneFrame limit q) = []) ∧
      (st.standaloneHead s = true → st.claimedFrom (.claimOneFrame limit q) = [s]) := by
  have hsessions : st.nextSession.2.sessions = st.sessions := (skipEmpty_same st st.order).sessions
  have hne := skipEmpty_hasSession st hfound
  let c : Claim := ⟨st.nextSession.2, { q with wire := st.nextSession.2.wire }, []⟩
  have hk' : c.stager.sessions.Keyed R2StageItem.session := hsessions.symm ▸ hk
  have hclaim : (Claim.claimOneFrame limit ⟨st, q, []⟩).2 =
      if c.stager.steadyHead s then c.steadyFrame limit s else c.standalone s := by
    unfold Claim.claimOneFrame
    rw [show st.nextSession = (some s, st.nextSession.2) from Prod.ext hfound rfl]
  unfold claimedFrom
  dsimp only
  rw [hclaim]
  cases hhead : c.stager.steadyHead s with
  | true =>
    have hsteady : st.standaloneHead s = false := by
      rw [steadyHead, hsessions] at hhead
      unfold standaloneHead
      cases hq : (st.sessions.queue s).head? with
      | none => rfl
      | some item =>
        rw [hq, any_some] at hhead
        rw [any_some, hhead]
        rfl
    rw [hsteady, if_pos rfl]
    refine ⟨?_, fun hwrong => by cases hwrong⟩
    rcases Claim.items_steadyFrame hk' limit with
      hkept | ⟨item, rest, hitem, hnew⟩
    · right
      rw [hkept, drop_length]
      rfl
    left
    rw [hnew, drop_left]
    exact congrArg (fun s => [s]) hitem
  | false =>
    obtain ⟨item, hitem, hnew⟩ := Claim.items_standalone hk' (s := s) (hsessions.symm ▸ hne)
    have hone : (((c.standalone s).q.items.drop q.items.length).head?.map
        fun item => item.session).toList = [s] := by
      rw [hnew, drop_left]
      exact congrArg (fun s => [s]) hitem
    exact ⟨.inl hone, fun _ => hone⟩

/-- The frames of two sessions whose heads are sent alone come in turn. -/
lemma alternating_served (ops : List StagerOp) (st : R2Stager) (hst : st.Drainable)
    {x y : UInt32} (hturns : st.turns a b = [x, y]) (hkeeps : Along next (Keeps a b) st ops) :
    Alternating x y ((st.served ops).filter fun s => s = a || s = b) := by
  induction ops generalizing st x y with
  | nil => trivial
  | cons op ops ih =>
    obtain ⟨⟨hop, ha, hb⟩, hrest⟩ := hkeeps
    have hane := standaloneHead_ne_nil ha
    have hbne := standaloneHead_ne_nil hb
    have hnext := hst.next op
    rw [served, filter_append]
    cases hpush : op.isPush with
    | true =>
      -- A push serves no session and leaves the two slots where they are.
      obtain ⟨items, hall, -⟩ := next_joins st hpush
      have hnone : st.claimedFrom op = [] := by
        cases op with
        | claimOneFrame limit q => cases hpush
        | _ => rfl
      rw [hnone]
      exact ih (st.next op) hnext ((hall.turns hane hbne).trans hturns) hrest
    | false =>
      rw [hpush, Bool.false_or] at hop
      obtain ⟨limit, q, rfl⟩ : ∃ limit q, op = .claimOneFrame limit q := by
        cases op with
        | claimOneFrame limit q => exact ⟨limit, q, rfl⟩
        | _ => cases hop
      have horder : (st.next (.claimOneFrame limit q)).turns a b = st.nextSession.2.turns a b :=
        congrArg (List.filter _) (Claim.order_claimOneFrame limit ⟨st, q, []⟩)
      cases hfound : st.nextSession.1 with
      | none => exact absurd (skipEmpty_eq_none hfound a (hst.slotted.order a hane)) hane
      | some s =>
        obtain ⟨hfrom, halone⟩ := claimedFrom_eq hst.exact.keyed limit q hfound
        rcases turns_nextSession hane hbne hfound with
          ⟨hs, r, hbefore, hafter⟩ | ⟨⟨hsa, hsb⟩, hafter⟩
        · rw [hturns, List.cons.injEq] at hbefore
          obtain ⟨rfl, rfl⟩ := hbefore
          have hone : st.claimedFrom (.claimOneFrame limit q) = [x] := by
            refine halone ?_
            rcases hs with rfl | rfl
            · exact ha
            · exact hb
          rw [hone, filter_cons_of_pos (by simpa using hs)]
          exact ⟨rfl, ih _ hnext (horder.trans hafter) hrest⟩
        · have hthird : (st.claimedFrom (.claimOneFrame limit q)).filter
              (fun s => s = a || s = b) = [] := by
            rcases hfrom with hone | hone
            · rw [hone, filter_cons_of_neg (by simp [hsa, hsb]), filter_nil]
            · rw [hone, filter_nil]
          rw [hthird]
          exact ih _ hnext ((horder.trans hafter).trans hturns) hrest

/-- A session with items that was never refilled with a slot left over has one slot, and between
two frames of such a session there is one of any other, while their heads are sent alone. -/
theorem round_robin_fair (maxItems maxBytes : Nat) (wire : Wire) (ops : List StagerOp)
    (a b : UInt32) (hne : a ≠ b)
    (ha : Along next (Rejoins a) (withCapacityWire maxItems maxBytes wire) ops)
    (hb : Along next (Rejoins b) (withCapacityWire maxItems maxBytes wire) ops) :
    let st := after next (withCapacityWire maxItems maxBytes wire) ops
    (st.sessions.queue a ≠ [] → st.order.count a = 1) ∧
      ∀ cont, Along next (Keeps a b) st cont → ∀ l m r,
        st.served cont = l ++ a :: (m ++ a :: r) → a ∉ m → m.count b = 1 := by
  intro st
  have hst : st.Drainable := drainable_after maxItems maxBytes wire ops
  have hslot : ∀ s, st.order.count s ≤ 1 → st.sessions.queue s ≠ [] → st.order.count s = 1 := by
    intro s hone hs
    have hpos := count_pos_iff.mpr (hst.slotted.order s hs)
    omega
  have ha₁ := hslot a (count_le_one_after maxItems maxBytes wire ha)
  have hb₁ := hslot b (count_le_one_after maxItems maxBytes wire hb)
  refine ⟨ha₁, fun cont hkeeps l m r hserved ham => ?_⟩
  cases cont with
  | nil => exact absurd hserved.symm (by simp [served])
  | cons op cont =>
    obtain ⟨-, hheada, hheadb⟩ := hkeeps.1
    have hmb : ∀ z ∈ m.filter (fun s => s = a || s = b), z = b := by
      intro z hz
      obtain ⟨hzm, hzab⟩ := mem_filter.mp hz
      rw [Bool.or_eq_true, decide_eq_true_eq, decide_eq_true_eq] at hzab
      exact hzab.resolve_left fun heq => ham (heq ▸ hzm)
    have hbetween : m.filter (fun s => s = a || s = b) = [b] := by
      have halt : ∀ x y, st.turns a b = [x, y] → (x = a ∧ y = b ∨ x = b ∧ y = a) →
          m.filter (fun s => s = a || s = b) = [b] := by
        intro x y hturns hxy
        have halt := alternating_served (op :: cont) st hst hturns hkeeps
        rw [hserved] at halt
        simp only [filter_append, filter_cons, decide_true, Bool.true_or, if_true] at halt
        exact halt.between hne hxy hmb
      rcases filter_pair hne (ha₁ (standaloneHead_ne_nil hheada))
        (hb₁ (standaloneHead_ne_nil hheadb)) with hturns | hturns
      · exact halt a b hturns (.inl ⟨rfl, rfl⟩)
      · exact halt b a hturns (.inr ⟨rfl, rfl⟩)
    have hcount : (m.filter fun s => s = a || s = b).count b = m.count b := count_filter (by simp)
    rw [← hcount, hbetween, count_singleton_self]

/-- An item that is sent alone. -/
def lone (session : UInt32) (serial : Nat) : R2StageItem :=
  ⟨session, .inline session (.ip (.v4 (.new 8 8 8 8) 53)) false, [], serial⟩

/-- A queue runs empty and is refilled before a claim has walked over its slot. -/
def refilled : List StagerOp :=
  [.push (lone 1 0), .claimOneFrame 1200 (.empty .rev3), .push (lone 1 1), .push (lone 1 2),
    .push (lone 1 3), .push (lone 2 4), .push (lone 2 5)]

/-- The session has two slots and two turns in a row. -/
theorem refilled_session_served_twice :
    let st := after next (withCapacityWire 64 4096 .rev3) refilled
    let cont := [.claimOneFrame 1200 (.empty .rev3), .claimOneFrame 1200 (.empty .rev3)]
    st.order = [1, 1, 2] ∧ Along next (Keeps 1 2) st cont ∧
      Keeps 1 2 (after next st cont) (.claimOneFrame 1200 (.empty .rev3)) ∧
        st.served cont = [1, 1] := by
  decide +kernel

/-- Queues that were filled once. -/
theorem round_robin_fair_filled :
    let st := after next (withCapacityWire 64 4096 .rev3) (refilled.drop 2)
    let claim := .claimOneFrame 1200 (.empty .rev3)
    st.order.count 1 = 1 ∧ st.served [claim, claim, claim] = [1, 2, 1] ∧
      List.count (2 : UInt32) [2] = 1 := by
  have hfair := round_robin_fair 64 4096 .rev3 (refilled.drop 2) 1 2 (by decide)
    (by decide +kernel) (by decide +kernel)
  exact ⟨hfair.1 (by decide +kernel), by decide +kernel,
    hfair.2 (List.replicate 3 (.claimOneFrame 1200 (.empty .rev3))) (by decide +kernel) [] [2] []
      (by decide +kernel) (by decide)⟩

end R2Stager

namespace Claim

variable {limit : Nat} {c c' : Claim}

section

variable (hst : c'.stager = c.stager) (s : UInt32)
include hst

lemma stager_standalone : (c'.standalone s).stager = (c.standalone s).stager := by
  unfold standalone
  rw [hst]
  cases c.stager.popOne s with
  | none => exact hst
  | some out => rfl

lemma stager_steadyFrame : (c'.steadyFrame limit s).stager = (c.steadyFrame limit s).stager := by
  unfold steadyFrame
  rw [hst]
  cases c.stager.takeSteadyHead s limit [] [] with
  | some out => rfl
  | none =>
    dsimp only
    unfold dropHead
    rw [hst]
    split
    · cases c.stager.popOne s with
      | none => exact hst
      | some out => rfl
    · exact hst

/-- What is claimed depends on the queues only. -/
lemma stager_claimOneFrame :
    (c'.claimOneFrame limit).2.stager = (c.claimOneFrame limit).2.stager := by
  unfold claimOneFrame
  rw [hst]
  cases hnext : c.stager.nextSession with
  | mk found st =>
    cases found with
    | none => rfl
    | some s =>
      dsimp only
      split
      · refine stager_steadyFrame ?_ s
        rfl
      · refine stager_standalone ?_ s
        rfl

end

/-- The rounds of a batch are claims of one frame each. -/
lemma claimLoop_rounds (maxFrames maxItems rounds : Nat) (c : Claim) (q : PackedFrames) :
    ∃ n, (claimLoop limit maxFrames maxItems rounds c).stager =
      after next c.stager (List.replicate n (.claimOneFrame limit q)) := by
  induction rounds generalizing c with
  | zero => exact ⟨0, rfl⟩
  | succ rounds ih =>
    have hone := @stager_claimOneFrame limit c ⟨c.stager, q, []⟩ rfl
    unfold claimLoop
    split
    · split
      · rename_i c₁ hlast
        rw [hlast] at hone
        exact ⟨1, hone.symm⟩
      rename_i c₁ hmore
      rw [hmore] at hone
      obtain ⟨n, hn⟩ := ih c₁
      refine ⟨n + 1, hn.trans ?_⟩
      rw [replicate_succ, after]
      exact congrArg (fun st => after next st _) hone.symm
    · exact ⟨0, rfl⟩

/-- The rounds of a batch go on until it is full or nothing is queued. -/
lemma claimLoop_fills {maxFrames maxItems rounds : Nat} (h : c.stager.Drainable)
    (hrounds : c.stager.queued.length < rounds) :
    let out := claimLoop limit maxFrames maxItems rounds c
    out.stager.queued = [] ∨ maxFrames ≤ out.q.frames.length ∨ maxItems ≤ out.q.items.length := by
  induction rounds generalizing c with
  | zero => exact absurd hrounds (Nat.not_lt_zero _)
  | succ rounds ih =>
    have hone := @stager_claimOneFrame limit c ⟨c.stager, c.q, []⟩ rfl
    have hnext := h.next (.claimOneFrame limit c.q)
    have hlen := h.length_claimOneFrame limit c.q
    have hnone := claimOneFrame_eq_false (c := c) limit h.slotted
    rw [R2Stager.next, hone] at hnext hlen
    unfold claimLoop
    split
    · split
      · rename_i c₁ hlast
        rw [hlast] at hlen hnone
        rw [hnone.mp rfl] at hlen
        exact .inl (length_eq_zero_iff.mp (Nat.le_zero.mp hlen))
      · rename_i c₁ hmore
        rw [hmore] at hlen hnext hnone
        have hpos := length_pos_iff.mpr fun hnil => Bool.noConfusion (hnone.mpr hnil)
        exact ih hnext (by dsimp only at hlen; omega)
    · rename_i hfull
      rw [not_and_or, Nat.not_lt, Nat.not_lt] at hfull
      exact .inr hfull

end Claim

/-- A batch takes the turns that as many single claims would, and ends with nothing queued or with
as many frames or items as it may take. -/
theorem R2Stager.batch_fills (maxItems maxBytes : Nat) (wire : Wire) (ops : List StagerOp)
    (limit frames items : Nat) (q : PackedFrames) :
    let st := after next (withCapacityWire maxItems maxBytes wire) ops
    let out := st.claimBatch limit frames items q
    (∃ n, out.stager = after next st (List.replicate n (.claimOneFrame limit q))) ∧
      (out.stager.queued = [] ∨ q.frames.length + frames ≤ out.q.frames.length ∨
        q.items.length + items ≤ out.q.items.length) := by
  intro st out
  have h : st.Drainable := drainable_after maxItems maxBytes wire ops
  refine ⟨Claim.claimLoop_rounds _ _ _ _ q, Claim.claimLoop_fills h ?_⟩
  exact h.exact.items ▸ Nat.lt_succ_self _

end MyQuic2
