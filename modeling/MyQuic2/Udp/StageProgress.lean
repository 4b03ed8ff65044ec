import MyQuic2.Core.Run
import MyQuic2.Udp.StageBatch
import Mathlib.Data.List.Dedup

/-!
# Nothing queued is stranded

The two round robins are cleaned as they are walked: slots of sessions that have
run empty stay behind, and a session can have several of them. What matters is the
converse. Every session with items has a slot, every session whose head can join a
train has one steady slot, and so a claim that finds no session finds no item.
-/

namespace MyQuic2

open List R2Stager

namespace R2Stager

variable {st st' : R2Stager} {item : R2StageItem} {s : UInt32}

/-- The cursors reach every queue, and the marks are the sessions of the steady cursor. The heads
of the sessions in doubt are yet to be looked at. -/
structure Slotted (doubt : List UInt32) (st : R2Stager) : Prop where
  order : ∀ s, st.sessions.queue s ≠ [] → s ∈ st.order
  steady : ∀ s ∉ doubt, st.steadyHead s = true → s ∈ st.steadyOrder
  nodup : st.steadyOrder.Nodup
  marked : ∀ s, s ∈ st.steadyMark ↔ s ∈ st.steadyOrder
  marks : st.steadyMark.Nodup

variable {doubt : List UInt32}

lemma clear_slotted : st.clear.1.Slotted [] where
  order _ h := absurd rfl h
  steady _ _ h := by cases h
  nodup := nodup_nil
  marked _ := Iff.rfl
  marks := nodup_nil

/-- The slots are a matter of the queues and the cursors alone. -/
lemma Slotted.congr (h : st.Slotted doubt) (hsessions : st'.sessions = st.sessions)
    (horder : st'.order = st.order) (hsteady : st'.steadyOrder = st.steadyOrder)
    (hmark : st'.steadyMark = st.steadyMark) : st'.Slotted doubt where
  order s hs := by
    rw [hsessions] at hs
    rw [horder]
    exact h.order s hs
  steady s hs hhead := by
    rw [steadyHead, hsessions] at hhead
    rw [hsteady]
    exact h.steady s hs hhead
  nodup := hsteady ▸ h.nodup
  marked s := by
    rw [hmark, hsteady]
    exact h.marked s
  marks := hmark ▸ h.marks

lemma setMaxTrainItems_slotted (h : st.Slotted doubt) (n : UInt8) :
    (st.setMaxTrainItems n).Slotted doubt := by
  unfold setMaxTrainItems
  split
  · exact h.congr rfl rfl rfl rfl
  · exact h

/-- A session leaves the doubt when its head is known to have a slot, or to need none. -/
lemma Slotted.settle (h : st.Slotted (s :: doubt))
    (hs : st.steadyHead s = true → s ∈ st.steadyOrder) : st.Slotted doubt where
  order := h.order
  steady s' hs' hhead := by
    by_cases heq : s' = s
    · rw [heq] at hhead ⊢
      exact hs hhead
    · exact h.steady s' (not_mem_cons_of_ne_of_not_mem heq hs') hhead
  nodup := h.nodup
  marked := h.marked
  marks := h.marks

lemma Slotted.addSteadyHead (h : st.Slotted (s :: doubt)) : (st.addSteadyHead s).Slotted doubt := by
  unfold R2Stager.addSteadyHead
  by_cases hhead : st.steadyHead s = true
  · by_cases hmark : s ∈ st.steadyMark
    · rw [if_neg (by simp [hmark])]
      exact h.settle fun _ => (h.marked s).mp hmark
    rw [if_pos (by simp [hhead, hmark])]
    have hslot : s ∉ st.steadyOrder := fun hs => hmark ((h.marked s).mpr hs)
    refine ⟨h.order, fun s' hs' hhead' => ?_, ?_, fun s' => ?_, ?_⟩
    · by_cases heq : s' = s
      · exact mem_append_right _ (mem_singleton.mpr heq)
      · refine mem_append_left _ (h.steady s' ?_ hhead')
        exact not_mem_cons_of_ne_of_not_mem heq hs'
    · refine nodup_append'.mpr ⟨h.nodup, nodup_singleton s, ?_⟩
      exact disjoint_singleton.mpr hslot
    · rw [mem_cons, mem_append, mem_singleton, h.marked, or_comm]
    · exact nodup_cons.mpr ⟨hmark, h.marks⟩
  · rw [if_neg (by simp [hhead])]
    exact h.settle fun hs => absurd hs hhead

/-- Every session in doubt is looked at. -/
lemma Slotted.foldl_addSteadyHead {st : R2Stager} (h : st.Slotted doubt) :
    (doubt.foldl R2Stager.addSteadyHead st).Slotted [] := by
  induction doubt generalizing st with
  | nil => exact h
  | cons s doubt ih => exact ih h.addSteadyHead

lemma Slotted.forgetSteady (h : st.Slotted (s :: doubt)) (hs : st.steadyHead s = false) :
    (st.forgetSteady s).Slotted doubt := by
  have hhead : ¬ st.steadyHead s = true := Bool.eq_false_iff.mp hs
  unfold R2Stager.forgetSteady
  split
  · refine ⟨h.order, fun s' hs' hhead' => ?_, h.nodup.filter _, fun s' => ?_, h.marks.erase s⟩
    · have hne : s' ≠ s := by
        rintro rfl
        exact hhead hhead'
      refine mem_filter.mpr ⟨h.steady s' ?_ hhead', bne_iff_ne.mpr hne⟩
      exact not_mem_cons_of_ne_of_not_mem hne hs'
    · rw [h.marks.mem_erase_iff, mem_filter, h.marked, bne_iff_ne, and_comm]
  · exact h.settle fun hs' => absurd hs' hhead

lemma Slotted.reseatSteady (h : st.Slotted (s :: doubt)) : (st.reseatSteady s).Slotted doubt := by
  unfold R2Stager.reseatSteady
  split
  · exact h.addSteadyHead
  · next hs => exact h.forgetSteady (Bool.eq_false_iff.mpr hs)

variable {order : List UInt32}

lemma Slotted.turn (h : st.Slotted doubt) (hperm : order.Perm st.steadyOrder) :
    { st with steadyOrder := order }.Slotted doubt where
  order := h.order
  steady s hs hhead := hperm.mem_iff.mpr (h.steady s hs hhead)
  nodup := hperm.nodup_iff.mpr h.nodup
  marked s := by rw [h.marked, hperm.mem_iff]
  marks := h.marks

lemma rotateSteadyPast_slotted (h : st.Slotted doubt) : (st.rotateSteadyPast s).Slotted doubt := by
  unfold rotateSteadyPast
  split
  · exact h
  split
  · exact h
  refine h.turn ?_
  unfold List.rotateLeft
  dsimp only
  split
  · exact .refl _
  · refine perm_append_comm.trans ?_
    rw [take_append_drop]

/-- A walk of the steady cursor forgets only sessions whose head cannot join a train. -/
lemma skipUnsteady_slotted {st : R2Stager} (h : { st with steadyOrder := order }.Slotted []) :
    (st.skipUnsteady order).2.Slotted [] := by
  induction order generalizing st with
  | nil => exact h
  | cons s order ih =>
    obtain ⟨hs, horder⟩ := nodup_cons.mp h.nodup
    unfold skipUnsteady
    split
    · exact h.turn (perm_append_singleton s order)
    rename_i hhead
    refine ih ⟨h.order, fun s' hs' hhead' => ?_, horder, fun s' => ?_, h.marks.erase s⟩
    · refine (mem_cons.mp (h.steady s' hs' hhead')).resolve_left ?_
      rintro rfl
      exact hhead hhead'
    · rw [Nodup.mem_erase_iff h.marks, h.marked s', mem_cons]
      constructor
      · rintro ⟨hne, hmem⟩
        exact hmem.resolve_left hne
      · intro hmem
        exact ⟨fun heq => hs (heq ▸ hmem), Or.inr hmem⟩

lemma nextSteadySession_slotted (h : st.Slotted []) : st.nextSteadySession.2.Slotted [] :=
  skipUnsteady_slotted h

/-- A walk that meets no session with items has met every session that could have any. -/
lemma skipEmpty_eq_none (h : (st.skipEmpty order).1 = none) :
    ∀ s ∈ order, st.sessions.queue s = [] := by
  induction order with
  | nil => exact fun s hs => absurd hs not_mem_nil
  | cons s order ih =>
    unfold skipEmpty at h
    split at h
    · cases h
    rename_i hs
    refine forall_mem_cons.mpr ⟨?_, ih h⟩
    simpa [hasSession] using hs

/-- A walk of the order forgets only sessions without items. -/
lemma skipEmpty_slotted (h : { st with order := order }.Slotted []) :
    (st.skipEmpty order).2.Slotted [] := by
  induction order with
  | nil => exact h
  | cons s order ih =>
    unfold skipEmpty
    split
    · have hperm : (order ++ [s]).Perm (s :: order) := perm_append_singleton s order
      exact ⟨fun s' hs' => hperm.mem_iff.mpr (h.order s' hs'), h.steady, h.nodup, h.marked, h.marks⟩
    rename_i hempty
    refine ih ⟨fun s' hs' => ?_, h.steady, h.nodup, h.marked, h.marks⟩
    refine (mem_cons.mp (h.order s' hs')).resolve_left ?_
    rintro rfl
    rw [hasSession, Bool.not_eq_true', isEmpty_eq_false_iff] at hempty
    exact hempty hs'

lemma nextSession_slotted (h : st.Slotted []) : st.nextSession.2.Slotted [] :=
  skipEmpty_slotted h

/-- The order is walked in vain only over an empty queue. -/
lemma Slotted.nextSession_eq_none (h : st.Slotted []) :
    st.nextSession.1 = none ↔ st.queued = [] := by
  constructor
  · intro hnone
    refine eq_nil_iff_forall_not_mem.mpr fun item hitem => ?_
    obtain ⟨s, hs⟩ := Map.mem_contents.mp hitem
    have hslot := h.order s (ne_nil_of_mem hs)
    rw [skipEmpty_eq_none hnone s hslot] at hs
    cases hs
  intro hnil
  cases hnext : st.nextSession.1 with
  | none => rfl
  | some s =>
    have hne := skipEmpty_hasSession st hnext
    obtain ⟨item, hitem⟩ := exists_mem_of_ne_nil _ hne
    have hmem : item ∈ st.queued := Map.mem_contents.mpr ⟨s, hitem⟩
    rw [hnil] at hmem
    cases hmem

/-- One queue has changed, and has a slot if it holds anything. -/
structure Touches (s : UInt32) (st st' : R2Stager) : Prop where
  queue : ∀ s' ≠ s, st'.sessions.queue s' = st.sessions.queue s'
  order : st.order ⊆ st'.order
  slot : st'.sessions.queue s ≠ [] → s ∈ st'.order
  steadyOrder : st'.steadyOrder = st.steadyOrder
  steadyMark : st'.steadyMark = st.steadyMark

lemma Touches.slotted (ht : Touches s st st') (h : st.Slotted []) : st'.Slotted [s] where
  order s' hs' := by
    by_cases heq : s' = s
    · rw [heq] at hs' ⊢
      exact ht.slot hs'
    · rw [ht.queue s' heq] at hs'
      exact ht.order (h.order s' hs')
  steady s' hs' hhead := by
    rw [steadyHead, ht.queue s' (ne_of_not_mem_cons hs')] at hhead
    rw [ht.steadyOrder]
    exact h.steady s' not_mem_nil hhead
  nodup := ht.steadyOrder ▸ h.nodup
  marked s' := by
    rw [ht.steadyMark, ht.steadyOrder]
    exact h.marked s'
  marks := ht.steadyMark ▸ h.marks

lemma push_slotted (h : st.Slotted []) (hpush : st.push item = some st') : st'.Slotted [] := by
  unfold push at hpush
  split at hpush
  · cases hpush
  obtain rfl := Option.some.inj hpush
  split
  · refine Slotted.addSteadyHead (Touches.slotted ?_ h)
    refine ⟨fun s' hne => ?_, subset_append_left _ _, fun _ => ?_, rfl, rfl⟩
    · rw [Map.queue_insert, if_neg hne]
    · exact mem_append_right _ (mem_singleton.mpr rfl)
  rename_i hempty
  -- The head stays what it was, so the session keeps the slots it has.
  obtain ⟨head, rest, hq⟩ := exists_cons_of_ne_nil (mt isEmpty_iff.mpr hempty)
  have hslot : item.session ∈ st.order := h.order _ (hq ▸ cons_ne_nil _ _)
  refine Slotted.settle (s := item.session) (Touches.slotted ?_ h) fun hhead => ?_
  · refine ⟨fun s' hne => ?_, List.Subset.refl _, fun _ => hslot, rfl, rfl⟩
    rw [Map.queue_insert, if_neg hne]
  · refine h.steady item.session not_mem_nil ?_
    rw [steadyHead, Map.queue_insert, if_pos rfl, hq] at hhead
    rw [steadyHead, hq]
    exact hhead

lemma PushesAll.slotted {items : List R2StageItem} (hpush : PushesAll st items st')
    (h : st.Slotted []) : st'.Slotted [] := by
  induction hpush with
  | nil => exact h
  | cons head _ ih => exact ih (push_slotted h head)

section

variable (h : st.Slotted [])
include h

lemma pushFront_slotted (hpush : st.pushFront item = some st') : st'.Slotted [] := by
  unfold pushFront at hpush
  split at hpush
  · cases hpush
  obtain rfl := Option.some.inj hpush
  refine Slotted.reseatSteady (Touches.slotted ⟨fun s' hne => ?_, ?_, fun _ => ?_, ?_, ?_⟩ h)
  · rw [Map.queue_insert, if_neg hne]
  · split
    · exact subset_cons_self _ _
    · exact List.Subset.refl _
  · split
    · exact mem_cons_self
    · next hempty => exact h.order _ (mt isEmpty_iff.mpr hempty)
  · rfl
  · rfl

lemma putBack_slotted (items : List R2StageItem) : (st.putBack items).1.Slotted [] :=
  putBack_kept (fun hpush h => pushFront_slotted h hpush) h items

lemma popOne_slotted (hpop : st.popOne s = some (item, st')) : st'.Slotted [] := by
  unfold popOne at hpop
  split at hpop
  · cases hpop
  rename_i head rest hq
  obtain ⟨-, rfl⟩ := Prod.mk.inj (Option.some.inj hpop)
  have hslot : s ∈ st.order := h.order s (hq ▸ cons_ne_nil _ _)
  by_cases hrest : rest.isEmpty = true
  · -- The slots of the session stay behind.
    simp only [hrest, if_true]
    have hdoubt : Slotted [s] { st with sessions := st.sessions.erase s } := by
      refine Touches.slotted ?_ h
      refine ⟨fun s' hne => ?_, List.Subset.refl _, fun _ => hslot, rfl, rfl⟩
      rw [Map.queue_erase, if_neg hne]
    refine (hdoubt.settle fun hhead => ?_).congr rfl rfl rfl rfl
    rw [steadyHead, Map.queue_erase, if_pos rfl] at hhead
    cases hhead
  · simp only [hrest, if_false, Bool.false_eq_true]
    have hdoubt : Slotted [s] { st with sessions := st.sessions.insert s rest } := by
      refine Touches.slotted ?_ h
      refine ⟨fun s' hne => ?_, List.Subset.refl _, fun _ => hslot, rfl, rfl⟩
      rw [Map.queue_insert, if_neg hne]
    exact hdoubt.addSteadyHead.congr rfl rfl rfl rfl

lemma dropSession_slotted : (st.dropSession s).1.Slotted [] := by
  unfold dropSession
  split
  · exact h
  have hgone : Map.queue (st.sessions.erase s) s = [] := by rw [Map.queue_erase, if_pos rfl]
  refine Slotted.forgetSteady (Touches.slotted ?_ h) ?_
  · refine ⟨fun s' hne => ?_, List.Subset.refl _, fun hs => absurd hgone hs, rfl, rfl⟩
    rw [Map.queue_erase, if_neg hne]
  · rw [steadyHead, hgone]
    rfl

lemma dropFlowScoped_slotted (wireId : UInt32) : (st.dropFlowScoped s wireId).1.Slotted [] := by
  unfold dropFlowScoped
  split
  · exact h
  rename_i queue hq
  have hqueue : st.sessions.queue s = queue := by rw [Map.queue, hq, Option.getD_some]
  dsimp only
  split
  · exact h
  refine Slotted.reseatSteady (Touches.slotted ?_ h)
  refine ⟨fun s' hne => ?_, List.Subset.refl _, fun hs => h.order s fun hnil => ?_, rfl, rfl⟩
  · rw [Map.queue_insert, if_neg hne]
  · rw [Map.queue_insert, if_pos rfl, ← hqueue, hnil] at hs
    exact hs rfl

lemma dropFlow_slotted (wireId : UInt32) : (st.dropFlow wireId).1.Slotted [] := by
  unfold dropFlow
  dsimp only
  split
  · exact h
  have hqueue : ∀ s, (st.sessions.mapValues fun _ q =>
      q.filter fun item => !item.names wireId).queue s =
      (st.sessions.queue s).filter fun item => !item.names wireId :=
    fun s => Map.queue_mapValues _ _ rfl s
  refine Slotted.foldl_addSteadyHead ⟨fun s hs => ?_, fun s hs hhead => ?_, ?_, fun s => ?_, ?_⟩
  · refine h.order s fun hnil => hs ?_
    rw [hqueue, hnil, filter_nil]
  · -- A queue that is not touched has the head it had.
    refine mem_filter.mpr ⟨h.steady s not_mem_nil ?_, hhead⟩
    have hall : (st.sessions.queue s).filter (fun item => !item.names wireId) =
        st.sessions.queue s := by
      refine filter_eq_self.mpr fun item hitem => ?_
      rw [Bool.not_eq_true', Bool.eq_false_iff]
      intro hnames
      refine hs ?_
      refine mem_mergeSort.mpr (mem_filter.mpr ⟨?_, ?_⟩)
      · exact Map.mem_keys_of_mem_queue hitem
      · exact any_eq_true.mpr ⟨item, hitem, hnames⟩
    rw [steadyHead, hqueue, hall] at hhead
    exact hhead
  · exact h.nodup.filter _
  · exact mem_dedup
  · exact nodup_dedup _

end

lemma Serves.slotted (hserves : Serves st st') (h : st.Slotted []) : st'.Slotted [] := by
  induction hserves with
  | refl => exact h
  | walk _ ih => exact nextSteadySession_slotted ih
  | pop _ hpop ih => exact popOne_slotted ih hpop
  | turn _ _ ih => exact rotateSteadyPast_slotted ih

end R2Stager

namespace Claim

variable {c : Claim}

lemma claimOneFrame_slotted (limit : Nat) (h : c.stager.Slotted []) :
    (c.claimOneFrame limit).2.stager.Slotted [] :=
  (serves_claimOneFrame limit).slotted (nextSession_slotted h)

/-- A round finds nothing exactly where nothing is queued. -/
lemma claimOneFrame_eq_false (limit : Nat) (h : c.stager.Slotted []) :
    (c.claimOneFrame limit).1 = false ↔ c.stager.queued = [] := by
  rw [← h.nextSession_eq_none]
  unfold claimOneFrame
  cases hnext : c.stager.nextSession with
  | mk found st =>
    cases found with
    | none => exact ⟨fun _ => rfl, fun _ => rfl⟩
    | some s =>
      constructor
      · rintro ⟨⟩
      · rintro ⟨⟩

end Claim

/-- What can happen to a stager. -/
inductive StagerOp where
  | push (item : R2StageItem)
  | pushFront (item : R2StageItem)
  | pushBatch (items : List R2StageItem)
  | setMaxTrainItems (n : UInt8)
  | claimOneFrame (limit : Nat) (q : PackedFrames)
  | claimBatch (limit maxFrames maxItems : Nat) (q : PackedFrames)
  | requeueUnsent (q : PackedFrames) (failedFrame : Nat)
  | putBack (items : List R2StageItem)
  | dropSession (session : UInt32)
  | dropFlow (wireId : UInt32)
  | dropFlowScoped (session wireId : UInt32)
  | clear

namespace R2Stager

variable {st : R2Stager}

/-- A push that is refused leaves the stager as it is. -/
def next (st : R2Stager) : StagerOp → R2Stager
  | .push item => (st.push item).getD st
  | .pushFront item => (st.pushFront item).getD st
  | .pushBatch items => (st.pushBatch items).1
  | .setMaxTrainItems n => st.setMaxTrainItems n
  | .claimOneFrame limit q => (Claim.claimOneFrame limit ⟨st, q, []⟩).2.stager
  | .claimBatch limit maxFrames maxItems q => (st.claimBatch limit maxFrames maxItems q).stager
  | .requeueUnsent q failedFrame => (st.requeueUnsent q failedFrame).1
  | .putBack items => (st.putBack items).1
  | .dropSession session => (st.dropSession session).1
  | .dropFlow wireId => (st.dropFlow wireId).1
  | .dropFlowScoped session wireId => (st.dropFlowScoped session wireId).1
  | .clear => st.clear.1

lemma getD_kept {P : R2Stager → Prop} {o : Option R2Stager} (h : P st)
    (hsome : ∀ st', o = some st' → P st') : P (o.getD st) := by
  cases o with
  | none => exact h
  | some st' => exact hsome st' rfl

/-- The counters are exact, and the cursors reach everything. -/
structure Drainable (st : R2Stager) : Prop where
  exact : st.Exact
  slotted : st.Slotted []

lemma Drainable.of_pulls {st' : R2Stager} {out : List R2StageItem} (h : st.Drainable)
    (hpulls : Pulls st st' out) (hslotted : st'.Slotted []) : st'.Drainable :=
  ⟨hpulls.removes.exact h.exact, hslotted⟩

lemma Drainable.putBack (h : st.Drainable) (items : List R2StageItem) :
    (st.putBack items).1.Drainable := by
  obtain ⟨-, -, -, -, -, hexact, -⟩ := putBack_spec items st h.exact
  exact ⟨hexact, putBack_slotted h.slotted items⟩

lemma Drainable.next (h : st.Drainable) (op : StagerOp) : (st.next op).Drainable := by
  cases op with
  | push item =>
    exact getD_kept h fun _ hpush =>
      ⟨(push_spec hpush).1.exact h.exact, push_slotted h.slotted hpush⟩
  | pushFront item =>
    exact getD_kept h fun _ hpush =>
      ⟨(pushFront_spec hpush).1.exact h.exact, pushFront_slotted h.slotted hpush⟩
  | pushBatch items =>
    obtain ⟨n, -, hall⟩ := pushBatch_spec st items
    exact ⟨(hall.spec h.exact).1, hall.slotted h.slotted⟩
  | setMaxTrainItems n =>
    exact h.of_pulls (setMaxTrainItems_same st n).pulls (setMaxTrainItems_slotted h.slotted n)
  | claimOneFrame limit q =>
    obtain ⟨out, hout, -⟩ := Claim.claimOneFrame_claims (c := ⟨st, q, []⟩) limit h.exact.keyed
    exact h.of_pulls hout.pulls (Claim.claimOneFrame_slotted (c := ⟨st, q, []⟩) limit h.slotted)
  | claimBatch limit maxFrames maxItems q =>
    obtain ⟨out, hout⟩ := claimBatch_claims st h.exact.keyed limit maxFrames maxItems q
    exact h.of_pulls hout.pulls (Claim.claimLoop_kept _ _ _ _ _
      (fun _ => Claim.claimOneFrame_slotted limit) h.slotted)
  | requeueUnsent q failedFrame => exact h.putBack _
  | putBack items => exact h.putBack items
  | dropSession session =>
    exact ⟨(dropSession_removes h.exact session).exact h.exact, dropSession_slotted h.slotted⟩
  | dropFlow wireId =>
    exact ⟨(dropFlow_removes h.exact wireId).exact h.exact, dropFlow_slotted h.slotted wireId⟩
  | dropFlowScoped session wireId =>
    exact ⟨(dropFlowScoped_removes h.exact session wireId).exact h.exact,
      dropFlowScoped_slotted h.slotted wireId⟩
  | clear => exact ⟨clear_exact st, clear_slotted⟩

lemma drainable_after (maxItems maxBytes : Nat) (wire : Wire) (ops : List StagerOp) :
    (after next (withCapacityWire maxItems maxBytes wire) ops).Drainable :=
  after_of_kept (fun _ op h => h.next op)
    ⟨clear_exact (withCapacityWire maxItems maxBytes wire),
      @clear_slotted (withCapacityWire maxItems maxBytes wire)⟩
    ops

section

variable (h : st.Drainable) (hne : st.queued ≠ []) (limit : Nat) (q : PackedFrames)
include h hne

lemma Drainable.claimOneFrame_true : (Claim.claimOneFrame limit ⟨st, q, []⟩).1 = true := by
  refine Bool.not_eq_false _ ▸ fun hfalse => hne ?_
  exact (Claim.claimOneFrame_eq_false (c := ⟨st, q, []⟩) limit h.slotted).mp hfalse

/-- A claim takes something out of a queue that is not empty. -/
lemma Drainable.claims :
    ∃ out ≠ [], st.queued.Perm (out ++ (st.next (.claimOneFrame limit q)).queued) := by
  obtain ⟨out, hout, htook⟩ := Claim.claimOneFrame_claims (c := ⟨st, q, []⟩) limit h.exact.keyed
  exact ⟨out, htook (h.claimOneFrame_true hne limit q), hout.pulls.removes.perm h.exact.keyed⟩

end

lemma Drainable.length_claimOneFrame (h : st.Drainable) (limit : Nat) (q : PackedFrames) :
    (st.next (.claimOneFrame limit q)).queued.length ≤ st.queued.length - 1 := by
  by_cases hnil : st.queued = []
  · obtain ⟨out, hout, -⟩ := Claim.claimOneFrame_claims (c := ⟨st, q, []⟩) limit h.exact.keyed
    have hsub := (hout.pulls.removes.perm h.exact.keyed).length_eq
    rw [length_append, hnil, length_nil] at hsub
    exact (Nat.eq_zero_of_add_eq_zero hsub.symm).2.le.trans (Nat.zero_le _)
  · obtain ⟨out, hne, hperm⟩ := h.claims hnil limit q
    have hpos := length_pos_iff.mpr hne
    have hsum := hperm.length_eq
    rw [length_append] at hsum
    omega

/-- As many claims as there are items leave none. -/
lemma Drainable.emptied (h : st.Drainable) (claims : List (Nat × PackedFrames))
    (hlen : st.queued.length ≤ claims.length) :
    (after R2Stager.next st (claims.map fun c => .claimOneFrame c.1 c.2)).queued = [] := by
  induction claims generalizing st with
  | nil => exact length_eq_zero_iff.mp (Nat.le_zero.mp hlen)
  | cons c claims ih =>
    refine ih (h.next (.claimOneFrame c.1 c.2)) ((h.length_claimOneFrame c.1 c.2).trans ?_)
    exact Nat.sub_le_of_le_add hlen

/-- The cursors reach everything that is queued, a claim finds nothing exactly where nothing is
queued and takes something otherwise, and claims that go on leave nothing. -/
theorem drain_finds_all (maxItems maxBytes : Nat) (wire : Wire) (ops : List StagerOp) :
    let st := after next (withCapacityWire maxItems maxBytes wire) ops
    (∀ s, st.sessions.queue s ≠ [] → s ∈ st.order) ∧
    (∀ s, st.steadyHead s = true → s ∈ st.steadyMark ∧ st.steadyOrder.count s = 1) ∧
    (∀ limit q, (Claim.claimOneFrame limit ⟨st, q, []⟩).1 = false ↔ st.queued = []) ∧
    (∀ limit q, st.queued ≠ [] →
      ∃ out ≠ [], st.queued.Perm (out ++ (Claim.claimOneFrame limit ⟨st, q, []⟩).2.stager.queued)) ∧
    ∀ claims : List (Nat × PackedFrames), st.queued.length ≤ claims.length →
      (after next st (claims.map fun c => .claimOneFrame c.1 c.2)).queued = [] := by
  intro st
  have h : st.Drainable := drainable_after maxItems maxBytes wire ops
  refine ⟨h.slotted.order, fun s hs => ?_, fun limit q => ?_, fun limit q hne => ?_, h.emptied⟩
  · have hslot := h.slotted.steady s not_mem_nil hs
    exact ⟨(h.slotted.marked s).mpr hslot, count_eq_one_of_mem h.slotted.nodup hslot⟩
  · exact Claim.claimOneFrame_eq_false limit h.slotted
  · exact h.claims hne limit q

end R2Stager

end MyQuic2
