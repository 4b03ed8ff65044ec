import Mathlib.Algebra.Order.BigOperators.Group.List
import MyQuic2.Udp.StageProgress
import MyQuic2.Udp.TrainRun

/-!
# Packing

A drain packs steady items into a run for as long as the cost of the run stays within the
limit. Every frame that it claims is one item that is sent alone or a run with such a
cost, so what it has packed is encoded; a steady item that it gives up has no room in a
frame of its own.
-/

namespace MyQuic2

open List Option R2Stager

/-- A run as a drain packs it: its cost at its last item was within the limit. -/
structure PackedRun (w : Wire) (limit : Nat) (run : List R2StageItem) (flows : List UInt32) :
    Prop where
  views : ∃ views, RunViews run flows views
  count : run.length ≤ Rev2.maxTrainItems
  cost : run ≠ [] → ∃ before cand id flows₀, run = before ++ [cand] ∧ cand.kind = .steady id ∧
    flows = withFlow flows₀ id ∧ (before = [] → flows₀ = []) ∧
      packedSteadyLen w before cand id flows₀ (!flows₀.contains id) ≤ limit

lemma packedRun_nil (w : Wire) (limit : Nat) : PackedRun w limit [] [] where
  views := ⟨[], runViews_nil⟩
  count := Nat.zero_le _
  cost hne := absurd rfl hne

lemma PackedRun.length_le {w : Wire} {limit : Nat} {run : List R2StageItem}
    {flows : List UInt32} (h : PackedRun w limit run flows) {item : R2StageItem}
    (hitem : item ∈ run) : item.payload.length ≤ limit := by
  obtain ⟨before, cand, id, flows₀, rfl, -, -, -, hcost⟩ := h.cost (ne_nil_of_mem hitem)
  refine le_trans ?_ hcost
  have hsum : ∀ cost : R2StageItem → Nat, (∀ x, x.payload.length ≤ cost x) →
      item.payload.length ≤ ((before ++ [cand]).map cost).sum := by
    intro cost hle
    exact (hle item).trans (le_sum_of_mem (mem_map_of_mem hitem))
  cases before with
  | nil =>
    obtain rfl := mem_singleton.mp hitem
    cases w with
    | rev2 | rev3 => exact Nat.le_add_left _ _
  | cons first rest =>
    unfold packedSteadyLen
    dsimp only
    split
    · split
      · rename_i hequal
        -- All items have the length of the first one.
        have hfirst : item.payload.length = first.payload.length := by
          rcases mem_append.mp hitem with hmem | hmem
          · exact beq_iff_eq.mp (all_eq_true.mp hequal.2 item hmem)
          · rw [mem_singleton.mp hmem]
            exact hequal.1
        rw [hfirst, Nat.succ_mul]
        omega
      · have hall := hsum (fun i => r3ItemLenLen i.payload.length + i.payload.length)
          fun _ => Nat.le_add_left _ _
        rw [map_append, sum_append, map_singleton, sum_singleton] at hall
        omega
    · cases w with
      | rev2 =>
        refine (hsum (fun i => 1 + i.payload.length +
          Rev2.varintLen (UInt32.ofNat i.payload.length)) fun _ => ?_).trans (Nat.le_add_left _ _)
        omega
      | rev3 =>
        refine (hsum (fun i => 1 + i.payload.length + r3ItemLenLen i.payload.length)
          fun _ => ?_).trans (Nat.le_add_left _ _)
        omega

lemma PackedRun.encodeFrame {q : PackedFrames} {f : PackedFrame} {limit : Nat}
    {flows : List UInt32} (h : PackedRun q.wire limit (q.run f) flows) (hne : q.run f ≠ [])
    (hshape : f.shape = .steady) (hlen : ∀ item ∈ q.run f, q.wire.Carries item.payload.length)
    (hids : ∀ item ∈ q.run f, ∀ id, item.kind = .steady id → q.wire.Representable id) :
    ∃ body, q.encodeFrame f limit = some body ∧
      lastCost q.wire (q.run f) = some body.length ∧ body.length ≤ limit := by
  obtain ⟨views, hviews⟩ := h.views
  obtain ⟨before, cand, id, flows₀, hrun, hkind, rfl, hfirst, hcost⟩ := h.cost hne
  rw [hrun] at hlen hids hviews
  unfold PackedFrames.encodeFrame
  rw [hshape, hrun, lastCost_append q.wire before hkind hviews.flows_eq.symm]
  cases before with
  | nil =>
    rw [nil_append] at *
    dsimp only
    rw [hkind]
    obtain ⟨frame, hframe, hlength⟩ :=
      encodeDataSteady_of_packed (hids cand mem_cons_self id hkind) hcost
    exact ⟨frame, hframe, by rw [hlength], hlength ▸ hcost⟩
  | cons first rest =>
    have hcount : (first :: rest).length < Rev2.maxTrainItems := by
      have hmax := h.count
      rw [hrun, length_append] at hmax
      exact hmax
    have hflows : ∀ id' ∈ withFlow flows₀ id, q.wire.Representable id' := by
      intro id' hid'
      obtain ⟨item, hitem, hitemKind⟩ := hviews.named id' hid'
      exact hids item hitem id' hitemKind
    obtain ⟨frame, hframe, hlength⟩ := hviews.encodeTrainRun_of_len
      (hviews.len_trainOf (cons_ne_nil _ _) hcount hlen hflows) hcost
    refine ⟨frame, ?_, by rw [hlength], hlength ▸ hcost⟩
    cases rest with
    | nil | cons _ _ => exact hframe

namespace R2Stager

def trains (st : R2Stager) : Wire × Nat := (st.wire, st.maxTrainItems)

variable {st st' : R2Stager}

@[simp] lemma trains_addSteadyHead (s : UInt32) : (st.addSteadyHead s).trains = st.trains := by
  unfold addSteadyHead
  split <;> rfl

@[simp] lemma trains_rotateSteadyPast (s : UInt32) :
    (st.rotateSteadyPast s).trains = st.trains := by
  unfold rotateSteadyPast
  split
  · rfl
  · split <;> rfl

lemma trains_skipEmpty (st : R2Stager) (order : List UInt32) :
    (st.skipEmpty order).2.trains = st.trains := by
  induction order with
  | nil => rfl
  | cons s order ih =>
    unfold skipEmpty
    split
    · rfl
    · exact ih

lemma trains_skipUnsteady (st : R2Stager) (order : List UInt32) :
    (st.skipUnsteady order).2.trains = st.trains := by
  induction order generalizing st with
  | nil => rfl
  | cons s order ih =>
    unfold skipUnsteady
    split
    · rfl
    · exact ih _

lemma trains_popOne {s : UInt32} {item : R2StageItem} (h : st.popOne s = some (item, st')) :
    st'.trains = st.trains := by
  unfold popOne at h
  split at h
  · cases h
  rename_i head rest hq
  obtain ⟨-, rfl⟩ := Prod.mk.inj (some.inj h)
  by_cases hrest : rest.isEmpty = true
  · simp only [hrest, if_true]
    rfl
  · simp only [hrest, if_false, Bool.false_eq_true]
    exact trains_addSteadyHead s

lemma takeSteadyHead_joins {s : UInt32} {limit : Nat} {run run' : List R2StageItem}
    {flows flows' : List UInt32}
    (h : st.takeSteadyHead s limit run flows = some (st', run', flows')) :
    ∃ item id, item.kind = .steady id ∧ run' = run ++ [item] ∧ flows' = withFlow flows id ∧
      st.joinsRun limit run flows item id = true ∧ st'.trains = st.trains := by
  obtain ⟨item, id, mid, hpop, hkind, hjoins, rfl, hrun, hflows⟩ := takeSteadyHead_cases h
  exact ⟨item, id, hkind, hrun, hflows, hjoins,
    (trains_rotateSteadyPast s).trans (trains_popOne hpop)⟩

lemma PackedRun.joins {limit : Nat} {run : List R2StageItem} {flows : List UInt32}
    {item : R2StageItem} {id : UInt32} (h : PackedRun st.wire limit run flows)
    (hmax : st.maxTrainItems ≤ Rev2.maxTrainItems) (hkind : item.kind = .steady id)
    (hjoins : st.joinsRun limit run flows item id = true) :
    PackedRun st.wire limit (run ++ [item]) (withFlow flows id) := by
  simp only [joinsRun, Bool.and_eq_true, decide_eq_true_eq] at hjoins
  obtain ⟨⟨hroom, -⟩, hcost⟩ := hjoins
  obtain ⟨views, hviews⟩ := h.views
  obtain ⟨view, hnext⟩ := hviews.append hkind (hroom.trans_le hmax)
  refine ⟨⟨_, hnext⟩, ?_, fun _ => ⟨run, item, id, flows, rfl, hkind, rfl, ?_, hcost⟩⟩
  · rw [length_append, length_singleton]
    exact hroom.trans_le hmax
  · rintro rfl
    exact length_eq_zero_iff.mp (Nat.le_zero.mp hviews.few)

lemma Serves.trains (h : Serves st st') : st'.trains = st.trains := by
  induction h with
  | refl => rfl
  | walk _ ih => exact (trains_skipUnsteady _ _).trans ih
  | pop _ hpop ih => exact (trains_popOne hpop).trans ih
  | turn _ s ih => exact (trains_rotateSteadyPast s).trans ih

variable (limit rounds : Nat) (st : R2Stager)

lemma steadyRun_packs {w : Wire} {n : Nat} (htrains : st.trains = (w, n))
    (hmax : n ≤ Rev2.maxTrainItems) (run : List R2StageItem) (flows : List UInt32) (hne : run ≠ [])
    (h : PackedRun w limit run flows) :
    (steadyRun limit rounds st run flows).2 ≠ [] ∧
      ∃ flows', PackedRun w limit (steadyRun limit rounds st run flows).2 flows' := by
  induction rounds generalizing st run flows with
  | zero => exact ⟨hne, flows, h⟩
  | succ rounds ih =>
    have hnext := (trains_skipUnsteady st st.steadyOrder).trans htrains
    unfold steadyRun nextSteadySession
    split
    · exact ⟨hne, flows, h⟩
    rename_i s st' hskip
    rw [hskip] at hnext
    split
    · exact ⟨hne, flows, h⟩
    rename_i st'' run' flows' htake
    obtain ⟨item, id, hkind, rfl, rfl, hjoins, hkept⟩ := takeSteadyHead_joins htake
    obtain ⟨rfl, rfl⟩ := Prod.mk.inj hnext
    exact ih st'' hkept _ _ (append_ne_nil_of_left_ne_nil hne _)
      (PackedRun.joins h hmax hkind hjoins)

end R2Stager

namespace PackedFrames

variable {q : PackedFrames}

lemma Packed.run_addFrame (h : q.Packed) (shape : FrameShape) (items : List R2StageItem)
    {f : PackedFrame} (hf : f ∈ q.frames) : (q.addFrame shape items).run f = q.run f := by
  obtain ⟨k, hk⟩ := mem_iff_getElem?.mp hf
  have hle := (h.around hk).2.le
  unfold run addFrame
  rw [drop_append_of_le_length (by omega), take_append_of_le_length]
  rw [length_drop]
  omega

lemma run_new (shape : FrameShape) (items : List R2StageItem) :
    (q.addFrame shape items).run ⟨none, shape, q.items.length, items.length⟩ = items := by
  unfold run addFrame
  rw [drop_left, take_length]

end PackedFrames

namespace Claim

/-- The items of a claimed frame: one that is sent alone, or a packed run. -/
def Framed (w : Wire) (limit : Nat) (shape : FrameShape) (run : List R2StageItem) : Prop :=
  (shape = .standalone ∧ ∃ item, run = [item]) ∨
    (shape = .steady ∧ run ≠ [] ∧ ∃ flows, PackedRun w limit run flows)

/-- What a claim has gathered, and that it gave up no item but a steady one without room. -/
structure Gathered (w : Wire) (n limit : Nat) (c : Claim) : Prop where
  trains : c.stager.trains = (w, n)
  wire : c.q.wire = w
  packed : c.q.Packed
  framed : ∀ f ∈ c.q.frames, Framed w limit f.shape (c.q.run f)
  lost : ∀ item ∈ c.booked, ∃ id, item.kind = .steady id ∧
    limit < packedSteadyLen w [] item id [] true

variable {w : Wire} {n limit : Nat} {c : Claim}

variable {s : UInt32}

lemma trains_claimOneFrame (limit : Nat) (c : Claim) :
    (c.claimOneFrame limit).2.stager.trains = c.stager.trains :=
  (serves_claimOneFrame limit).trains.trans (trains_skipEmpty c.stager c.stager.order)

lemma Gathered.addFrame (h : c.Gathered w n limit) {st : R2Stager} (htrains : st.trains = (w, n))
    {shape : FrameShape} {run : List R2StageItem} (hrun : Framed w limit shape run) :
    Gathered w n limit { c with stager := st, q := c.q.addFrame shape run } where
  trains := htrains
  wire := h.wire
  packed := PackedFrames.addFrame_packed h.packed shape run
  framed f hf := by
    rcases mem_append.mp hf with hf | hf
    · dsimp only
      rw [h.packed.run_addFrame shape run hf]
      exact h.framed f hf
    rw [mem_singleton.mp hf]
    dsimp only
    rw [PackedFrames.run_new]
    exact hrun
  lost := h.lost

lemma Gathered.standalone (h : c.Gathered w n limit) (s : UInt32) :
    (c.standalone s).Gathered w n limit := by
  unfold Claim.standalone
  split
  · exact h
  · rename_i item st hpop
    exact h.addFrame ((trains_popOne hpop).trans h.trains) (.inl ⟨rfl, item, rfl⟩)

/-- A head that no run takes has no room in a frame of its own. -/
lemma Gathered.dropHead (h : c.Gathered w n limit) (hpos : 0 < n) {s : UInt32}
    (hnone : c.stager.takeSteadyHead s limit [] [] = none) : (c.dropHead s).Gathered w n limit := by
  unfold Claim.dropHead
  split
  · rename_i hsteady
    split
    · exact h
    rename_i item st hpop
    have hhead := popOne_head? hpop
    have htrains := trains_popOne hpop
    obtain ⟨hwire, hmax⟩ := Prod.mk.inj h.trains
    refine ⟨htrains.trans h.trains, h.wire, h.packed, h.framed, fun x hx => ?_⟩
    rcases mem_append.mp hx with hx | hx
    · exact h.lost x hx
    obtain rfl := mem_singleton.mp hx
    rw [steadyHead, hhead] at hsteady
    obtain ⟨id, hkind⟩ : ∃ id, x.kind = .steady id := by
      cases hk : x.kind with
      | steady id => exact ⟨id, rfl⟩
      | opening id sess addr src | inline sess addr src =>
        rw [any_some, hk] at hsteady
        cases hsteady
    refine ⟨id, hkind, Nat.not_le.mp fun hfits => ?_⟩
    have hjoins : c.stager.joinsRun limit [] [] x id = true := by
      simp only [joinsRun, hwire, hmax, Bool.and_eq_true, decide_eq_true_eq]
      exact ⟨⟨hpos, rfl⟩, hfits⟩
    unfold takeSteadyHead at hnone
    rw [hhead, bind_eq_bind, bind_some, hkind] at hnone
    simp only [hjoins, hpop] at hnone
    cases hnone
  · exact h

variable (h : c.Gathered w n limit) (hpos : 0 < n) (hmax : n ≤ Rev2.maxTrainItems)
include h hpos hmax

lemma Gathered.steadyFrame (s : UInt32) : (c.steadyFrame limit s).Gathered w n limit := by
  unfold Claim.steadyFrame
  split
  · next hnone => exact h.dropHead hpos hnone
  rename_i st run flows htake
  obtain ⟨item, id, hkind, rfl, rfl, hjoins, hkept⟩ := takeSteadyHead_joins htake
  obtain ⟨hwire, hn⟩ := Prod.mk.inj h.trains
  have hfirst : PackedRun w limit ([] ++ [item]) (withFlow [] id) := by
    rw [← hwire]
    refine R2Stager.PackedRun.joins (packedRun_nil _ _) ?_ hkind hjoins
    rw [hn]
    exact hmax
  have htrains := hkept.trans h.trains
  obtain ⟨hne, flows', hpacked⟩ := steadyRun_packs limit st.maxTrainItems st htrains
    hmax _ _ (cons_ne_nil _ _) hfirst
  exact h.addFrame ((Serves.refl.steadyRun ..).trains.trans htrains) (.inr ⟨rfl, hne, flows', hpacked⟩)

lemma Gathered.claimOneFrame : (c.claimOneFrame limit).2.Gathered w n limit := by
  have hskip := (trains_skipEmpty c.stager c.stager.order).trans h.trains
  unfold Claim.claimOneFrame nextSession
  split
  · rename_i st hnext
    rw [hnext] at hskip
    exact ⟨hskip, (Prod.mk.inj hskip).1, h.packed, h.framed, h.lost⟩
  rename_i s st hnext
  rw [hnext] at hskip
  have hwalk : Gathered w n limit { c with stager := st, q := { c.q with wire := st.wire } } :=
    ⟨hskip, (Prod.mk.inj hskip).1, h.packed, h.framed, h.lost⟩
  split
  · exact hwalk.steadyFrame hpos hmax s
  · exact hwalk.standalone s

lemma Gathered.claimLoop (maxFrames maxItems rounds : Nat) :
    (claimLoop limit maxFrames maxItems rounds c).Gathered w n limit := by
  induction rounds generalizing c with
  | zero => exact h
  | succ rounds ih =>
    have hone := h.claimOneFrame hpos hmax
    unfold Claim.claimLoop
    split
    · split
      · rename_i hstop
        rw [hstop] at hone
        exact hone
      rename_i hmore
      rw [hmore] at hone
      exact ih hone
    · exact h

end Claim

namespace R2Stager

variable {st st' : R2Stager}

@[simp] lemma trains_forgetSteady (s : UInt32) : (st.forgetSteady s).trains = st.trains := by
  unfold forgetSteady
  split <;> rfl

@[simp] lemma trains_reseatSteady (s : UInt32) : (st.reseatSteady s).trains = st.trains := by
  unfold reseatSteady
  split
  · exact trains_addSteadyHead s
  · exact trains_forgetSteady s

lemma trains_push {item : R2StageItem} (h : st.push item = some st') : st'.trains = st.trains := by
  unfold push at h
  split at h
  · cases h
  obtain rfl := some.inj h
  split
  · rw [trains_addSteadyHead]
    rfl
  · rfl

lemma trains_pushFront {item : R2StageItem} (h : st.pushFront item = some st') :
    st'.trains = st.trains := by
  unfold pushFront at h
  split at h
  · cases h
  · obtain rfl := some.inj h
    exact trains_reseatSteady _

lemma trains_putBack (items : List R2StageItem) : (st.putBack items).1.trains = st.trains :=
  putBack_kept (P := fun st' => st'.trains = st.trains)
    (fun hpush h => (trains_pushFront hpush).trans h) rfl items

lemma trains_foldl_push (items : List R2StageItem) :
    (items.foldl (fun st item => (st.push item).getD st) st).trains = st.trains := by
  induction items generalizing st with
  | nil => rfl
  | cons item items ih =>
    rw [foldl_cons, ih]
    exact getD_kept (P := fun st' => st'.trains = st.trains) rfl fun _ => trains_push

lemma trains_foldl_addSteadyHead (sessions : List UInt32) :
    (sessions.foldl addSteadyHead st).trains = st.trains := by
  induction sessions generalizing st with
  | nil => rfl
  | cons s sessions ih => rw [foldl_cons, ih, trains_addSteadyHead]

/-- A stager whose trains take some items, and no more than the frame format has. -/
structure Trained (w : Wire) (st : R2Stager) : Prop where
  wire : st.wire = w
  pos : 0 < st.maxTrainItems
  le : st.maxTrainItems ≤ Rev2.maxTrainItems

lemma Trained.congr {w : Wire} (h : st.Trained w) (heq : st'.trains = st.trains) :
    st'.Trained w := by
  obtain ⟨hwire, hmax⟩ := Prod.mk.inj heq
  exact ⟨hwire.trans h.wire, hmax ▸ h.pos, hmax ▸ h.le⟩

lemma Trained.next {w : Wire} (h : st.Trained w) (op : StagerOp) : (st.next op).Trained w := by
  cases op with
  | push item => exact getD_kept h fun _ hpush => h.congr (trains_push hpush)
  | pushFront item => exact getD_kept h fun _ hpush => h.congr (trains_pushFront hpush)
  | pushBatch items => exact h.congr (trains_foldl_push _)
  | setMaxTrainItems m =>
    unfold R2Stager.next setMaxTrainItems
    dsimp only
    split
    · rename_i hm
      have hpos : 0 < m.toNat := UInt8.lt_iff_toNat_lt.mp hm
      exact ⟨h.wire, Nat.lt_min.mpr ⟨hpos, by decide⟩, Nat.min_le_right _ _⟩
    · exact h
  | claimOneFrame limit q => exact h.congr (Claim.trains_claimOneFrame limit ⟨st, q, []⟩)
  | claimBatch limit maxFrames maxItems q =>
    exact h.congr (Claim.claimLoop_kept (P := fun st' => st'.trains = st.trains) _ _ _ _ _
      (fun c hc => (Claim.trains_claimOneFrame limit c).trans hc) rfl)
  | requeueUnsent q failedFrame => exact h.congr (trains_putBack _)
  | putBack items => exact h.congr (trains_putBack items)
  | dropSession s =>
    refine h.congr ?_
    unfold R2Stager.next dropSession
    dsimp only
    split
    · rfl
    · rw [trains_forgetSteady]
      rfl
  | dropFlow id =>
    refine h.congr ?_
    unfold R2Stager.next dropFlow
    dsimp only
    split
    · rfl
    · rw [trains_foldl_addSteadyHead]
      rfl
  | dropFlowScoped s id =>
    refine h.congr ?_
    unfold R2Stager.next dropFlowScoped
    dsimp only
    split
    · rfl
    split
    · rfl
    · rw [trains_reseatSteady]
      rfl
  | clear => exact h.congr rfl

lemma trained_after (maxItems maxBytes : Nat) (wire : Wire) (ops : List StagerOp) :
    (after next (withCapacityWire maxItems maxBytes wire) ops).Trained wire := by
  have hkept : ∀ st op, Trained wire st → Trained wire (st.next op) := fun _ op h => h.next op
  exact after_of_kept hkept ⟨rfl, Nat.zero_lt_succ 63, le_rfl⟩ ops

lemma Trained.claimBatch {w : Wire} (h : st.Trained w) (limit maxFrames maxItems : Nat) :
    (st.claimBatch limit maxFrames maxItems (.empty w)).Gathered w st.maxTrainItems limit := by
  have hstart : Claim.Gathered w st.maxTrainItems limit
      ⟨st, { PackedFrames.empty w with wire := st.wire }, []⟩ := by
    refine ⟨?_, h.wire, rfl, fun f hf => ?_, fun item hitem => ?_⟩
    · rw [trains, h.wire]
    · cases hf
    · cases hitem
  exact hstart.claimLoop h.pos h.le _ _ _

end R2Stager

end MyQuic2
