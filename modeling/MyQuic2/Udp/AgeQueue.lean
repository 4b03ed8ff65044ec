import Mathlib.Data.Prod.Lex
import MyQuic2.Udp.Accounting

/-!
# The age queue

The queue of slots is ordered by age as long as the clock does not go back, whatever
is evicted, completed or opened again under its key. A sweep that stops at the first
young partial has therefore seen every old one.
-/

namespace MyQuic2

open List

namespace Reassembler

/-- What slots are ordered by. -/
def slotKey (s : FragKey × Nat) : Nat ×ₗ Bool ×ₗ Nat ×ₗ Nat :=
  toLex (s.2, toLex (s.1.inline, toLex (s.1.id.toNat, s.1.fragId.toNat)))

lemma slotLe_iff (a b : FragKey × Nat) : slotLe a b = true ↔ slotKey a ≤ slotKey b := by
  obtain ⟨⟨ai, aid, af⟩, at'⟩ := a
  obtain ⟨⟨bi, bid, bf⟩, bt⟩ := b
  simp only [slotLe, slotKey, Prod.Lex.toLex_le_toLex]
  by_cases ht : at' = bt
  · by_cases hi : ai = bi
    · by_cases hid : aid = bid
      · simp [ht, hi, hid, UInt32.le_iff_toNat_le]
      · have hne : aid.toNat ≠ bid.toNat := fun h => hid (UInt32.toNat_inj.mp h)
        simp [ht, hi, hid, hne, UInt32.lt_iff_toNat_lt]
    · cases ai <;> cases bi <;> simp_all
  · simp [ht]

instance : IsTrans (FragKey × Nat) fun a b => slotLe a b = true where
  trans a b c hab hbc := by
    rw [slotLe_iff] at hab hbc ⊢
    exact le_trans hab hbc

instance : Std.Total fun a b : FragKey × Nat => slotLe a b = true where
  total a b := by
    rw [slotLe_iff, slotLe_iff]
    exact le_total _ _

lemma time_le_of_slotLe {a b : FragKey × Nat} (h : slotLe a b = true) : a.2 ≤ b.2 := by
  rw [slotLe_iff, slotKey, slotKey, Prod.Lex.toLex_le_toLex] at h
  rcases h with hlt | ⟨heq, -⟩
  · exact le_of_lt hlt
  · exact le_of_eq heq

/-- Oldest first. -/
def ByAge (slots : List (FragKey × Nat)) : Prop := slots.Pairwise fun a b => a.2 ≤ b.2

lemma byAge_sortedSlots (r : Reassembler) : ByAge r.sortedSlots :=
  (pairwise_insertionSort _ r.liveSlots).imp time_le_of_slotLe

/-- The queue is ordered by age and nothing in it is ahead of the clock. -/
structure Aged (r : Reassembler) (clock : Nat) : Prop where
  byAge : ByAge r.order
  past : ∀ slot ∈ r.order, slot.2 ≤ clock
  live : ∀ key p, r.parts.lookup key = some p → p.firstMs ≤ clock

lemma aged_new (clock : Nat) : Aged new clock := by
  constructor <;> simp [new, ByAge]

section

variable {z : Sizes} {r r' : Reassembler} {key : FragKey} {p : Partial} {clock : Nat}

lemma Aged.mono (h : Aged r clock) {later : Nat} (hle : clock ≤ later) : Aged r later :=
  ⟨h.byAge, fun slot hs => le_trans (h.past slot hs) hle,
    fun key p hp => le_trans (h.live key p hp) hle⟩

/-- Slots and partials that are left keep their order. -/
lemma Aged.sub (h : Aged r clock) (horder : r'.order.Sublist r.order) (hsub : SubTable r' r) :
    Aged r' clock :=
  ⟨h.byAge.sublist horder, fun slot hs => h.past slot (horder.subset hs),
    fun key p hp => h.live key p (hsub key p hp)⟩

lemma Aged.pruneOrders (h : Aged r clock) : Aged (r.pruneOrders z) clock := by
  rcases r.pruneOrders_cases z with ⟨-, hsame⟩ | ⟨-, hnew⟩
  · rwa [hsame]
  rw [hnew]
  refine ⟨r.byAge_sortedSlots, fun slot hs => ?_, h.live⟩
  obtain ⟨e, he, rfl⟩ := mem_map.mp (r.sortedSlots_perm.subset hs)
  exact h.live e.1 e.2 (AList.mem_lookup_iff.mpr he)

section

variable (z : Sizes) (nowMs : Nat) (slots : List (FragKey × Nat)) (r : Reassembler)

lemma firstMs_drainLoop (left i : Nat) (p : Partial) :
    (Partial.drainLoop left i p).firstMs = p.firstMs := by
  induction left generalizing i p with
  | zero => rfl
  | succ left ih =>
    unfold Partial.drainLoop
    split
    · rfl
    split
    · exact ih _ _
    split
    · rw [ih]
      unfold Partial.bufWrite
      split <;> rfl
    · exact ih _ _

/-- A partial keeps the time it was opened at. -/
lemma firstMs_absorb (p : Partial) (f : Wire.FragView) : (p.absorb z f).firstMs = p.firstMs := by
  have hstore : ((p.note f).store f (p.place f)).firstMs = p.firstMs := by
    unfold Partial.store
    split
    · unfold Partial.bufWrite
      split <;> rfl
    · rfl
  unfold Partial.absorb
  simp only
  split
  · exact (firstMs_drainLoop _ _ _).trans hstore
  · exact hstore

end

variable (h : Aged r clock) (d : Bytes) (f : Wire.FragView)
include h

lemma Aged.insert (hp : p.firstMs ≤ clock) (held : Nat) :
    Aged { r with parts := r.parts.insert key p, held := held } clock := by
  refine ⟨h.byAge, h.past, fun key' p' hp' => ?_⟩
  rcases Map.lookup_insert_cases hp' with ⟨-, rfl⟩ | ⟨-, hold⟩
  · exact hp
  · exact h.live key' p' hold

lemma Aged.queueSlot : Aged (r.queueSlot z key clock) clock := by
  refine ⟨?_, fun slot hs => ?_, h.live⟩
  · refine pairwise_append.mpr ⟨h.byAge, pairwise_singleton _ _, ?_⟩
    intro slot hs last hlast
    rw [mem_singleton] at hlast
    rw [hlast]
    exact h.past slot hs
  · rcases mem_append.mp hs with hold | hown
    · exact h.past slot hold
    · rw [mem_singleton] at hown
      rw [hown]

lemma Aged.land (hp : p.firstMs ≤ clock) (isNew : Bool) (f : Wire.FragView)
    (incoming : Option FragCtx) : Aged (r.land z key p isNew f incoming clock).2 clock := by
  unfold Reassembler.land
  simp only
  split
  · split
    · exact h.sub (List.Sublist.refl _) (subTable_erase r key _ _ _)
    · have hnamed : (named p incoming).firstMs ≤ clock := hp
      exact h.insert hnamed r.held
  have hq : ((named p incoming).absorb z f).firstMs ≤ clock := by
    rw [firstMs_absorb]
    exact hp
  have hupdated : Aged (r.update key (named p incoming) ((named p incoming).absorb z f)) clock :=
    h.insert hq _
  have hqueued : Aged (if isNew = true then
      (r.update key (named p incoming) ((named p incoming).absorb z f)).queueSlot z key clock
      else r.update key (named p incoming) ((named p incoming).absorb z f)) clock := by
    split
    · exact hupdated.queueSlot
    · exact hupdated
  split
  · exact hqueued.pruneOrders.sub (List.Sublist.refl _) (subTable_discard _ _ _)
  · exact hqueued.pruneOrders

lemma Aged.push : Aged (r.pushFrame z d f clock).2 clock := by
  have hpushed := r.pushed_pushFrame z d f clock
  generalize r.pushFrame z d f clock = out at hpushed ⊢
  have horder := (swept_makeRoom z r (estimate z f)).order
  have hsub := (swept_makeRoom z r (estimate z f)).subTable
  cases hpushed with
  | malformed _ | whole _ _ _ | refused _ _ _ _ => exact h
  | @joined key _ p _ _ hget _ _ => exact h.land (h.live key p hget) _ _ _
  | crowded _ _ _ hroom =>
    rw [hroom] at horder hsub
    exact h.sub horder hsub
  | opened _ _ _ hroom =>
    rw [hroom] at horder hsub
    exact (h.sub horder hsub).land (le_refl _) _ _ _

lemma Aged.expire (nowMs : Nat) : Aged (r.expire z nowMs) clock :=
  have hswept := swept_expireFrom z nowMs r
  (h.sub hswept.order hswept.subTable).pruneOrders

end

section

variable {z : Sizes} {r : Reassembler} {clock : Nat}

/-- A partial young enough to stay. -/
def Young (nowMs : Nat) (p : Partial) : Prop := nowMs - p.firstMs < fragTimeoutMs

/-- The sweep over an ordered queue drops exactly the partials that are too old. -/
lemma lookup_expireFrom {slots : List (FragKey × Nat)} (h : Ledger z r) (hage : ByAge r.order)
    (horder : r.order = slots) (nowMs : Nat) (key : FragKey) (p : Partial) :
    (expireFrom z nowMs slots r).parts.lookup key = some p ↔
      r.parts.lookup key = some p ∧ Young nowMs p := by
  induction slots generalizing r with
  | nil =>
    refine ⟨fun hp => ?_, fun hp => hp.1⟩
    have hmem := h.slotted key p hp
    rw [horder] at hmem
    cases hmem
  | cons slot rest ih =>
    obtain ⟨key₀, firstMs⟩ := slot
    have hrest : (r.popSlot z).order = rest := order_popSlot horder
    have hage' : ByAge (r.popSlot z).order := hage.sublist (tail_sublist _)
    cases hget : r.parts.lookup key₀ with
    | none =>
      simp only [expireFrom, hget]
      exact ih (h.popStale horder (by simp [hget])) hage' hrest
    | some p₀ =>
      by_cases hms : p₀.firstMs = firstMs
      · subst hms
        simp only [expireFrom, hget, if_true]
        split
        · -- Every other slot is at least as young as the one the sweep stops at.
          rename_i hyoung
          refine ⟨fun hp => ⟨hp, ?_⟩, fun hp => hp.1⟩
          have hmem := h.slotted key p hp
          have hle : p₀.firstMs ≤ p.firstMs := by
            rw [horder] at hmem
            rw [horder, ByAge, pairwise_cons] at hage
            rcases mem_cons.mp hmem with heq | hlater
            · exact le_of_eq (congrArg Prod.snd heq).symm
            · exact hage.1 _ hlater
          exact lt_of_le_of_lt (Nat.sub_le_sub_left hle nowMs) hyoung
        · rename_i hold
          rw [ih (h.popLive horder hget) hage' hrest]
          change (r.parts.erase key₀).lookup key = some p ∧ _ ↔ _
          by_cases hkey : key = key₀
          · subst hkey
            rw [AList.lookup_erase, hget]
            refine ⟨fun hp => absurd hp.1 (by simp), ?_⟩
            rintro ⟨⟨⟩, hyoung⟩
            exact absurd hyoung hold
          · rw [AList.lookup_erase_ne hkey]
      · simp only [expireFrom, hget, if_neg hms]
        exact ih (h.popStale horder (by simpa [hget] using hms)) hage' hrest

end

end Reassembler

/-- The time an event reads from the clock. -/
def ReasmEvent.time : ReasmEvent → Option Nat
  | .push _ _ nowMs => some nowMs
  | .expire nowMs => some nowMs
  | .dropSession _ => none
  | .dropFlow _ => none

namespace Reassembler

/-- The queue stays ordered through a run whose clock does not go back. -/
lemma Aged.after {z : Sizes} {es : List ReasmEvent} {r : Reassembler} {clock nowMs : Nat}
    (h : Aged r clock)
    (hclock : (clock :: (es.filterMap ReasmEvent.time ++ [nowMs])).Pairwise (· ≤ ·)) :
    Aged (MyQuic2.after (next z) r es) nowMs := by
  induction es generalizing r clock with
  | nil =>
    rw [filterMap_nil, nil_append, pairwise_pair] at hclock
    exact h.mono hclock
  | cons ev es ih =>
    cases ev with
    | push _ _ t | expire t =>
      simp only [filterMap_cons, ReasmEvent.time, cons_append] at hclock
      rw [pairwise_cons] at hclock
      have hlater := h.mono (hclock.1 t (mem_cons_self ..))
      first | exact ih (hlater.push _ _) hclock.2 | exact ih (hlater.expire t) hclock.2
    | dropSession session =>
      simp only [filterMap_cons, ReasmEvent.time] at hclock
      exact ih (h.sub (List.Sublist.refl _) (subTable_dropSession r session)) hclock
    | dropFlow wireId =>
      simp only [filterMap_cons, ReasmEvent.time] at hclock
      refine ih (h.sub ?_ (subTable_dropFlow r wireId)) hclock
      change (r.dropFlow wireId).order.Sublist r.order
      unfold dropFlow
      split <;> exact List.Sublist.refl _

/-- After every run with a clock that does not go back, an expiry leaves exactly the live partials
whose first fragment is younger than the timeout. -/
theorem expire_exact (z : Sizes) (es : List ReasmEvent) (nowMs : Nat)
    (hclock : (es.filterMap ReasmEvent.time ++ [nowMs]).Pairwise (· ≤ ·)) (key : FragKey)
    (p : Partial) :
    ((MyQuic2.after (next z) new es).expire z nowMs).parts.lookup key = some p ↔
      (MyQuic2.after (next z) new es).parts.lookup key = some p ∧
        nowMs - p.firstMs < fragTimeoutMs := by
  have hledger := ledger_after z es
  have haged : Aged (MyQuic2.after (next z) new es) nowMs := by
    refine (aged_new 0).after (pairwise_cons.mpr ⟨fun _ _ => Nat.zero_le _, hclock⟩)
  rw [Reassembler.expire, pruneOrders_parts]
  exact lookup_expireFrom hledger haged.byAge rfl nowMs key p

/-- A fragment of a payload of two. -/
private def partOf (fragId : UInt32) (idx : UInt8) : Wire.FragView :=
  ⟨some 2, none, none, false, fragId, idx, 2, 0, [7]⟩

/-- One payload is completed and opened again, another is opened later. -/
private def reopening : List ReasmEvent :=
  [.push [7] (partOf 1 0) 0, .push [7] (partOf 1 1) 10, .push [7] (partOf 1 0) 20,
    .push [7] (partOf 5 1) 500]

theorem expire_exact_after_reopening :
    let z : Sizes := ⟨168, 40, 24⟩
    let r := MyQuic2.after (next z) new reopening
    r.order = [(⟨false, 2, 1⟩, 0), (⟨false, 2, 1⟩, 20), (⟨false, 2, 5⟩, 500)] ∧
      (r.expire z 2100).parts.lookup ⟨false, 2, 1⟩ ≠
        some ((Partial.new 2 none 20).absorb z (partOf 1 0)) ∧
      (r.expire z 2100).parts.lookup ⟨false, 2, 5⟩ =
        some ((Partial.new 2 none 500).absorb z (partOf 5 1)) := by
  intro z r
  have hclock : (reopening.filterMap ReasmEvent.time ++ [2100]).Pairwise (· ≤ ·) := by decide
  refine ⟨by decide, ?_, ?_⟩
  · intro hlive
    exact absurd ((expire_exact z reopening 2100 hclock _ _).mp hlive).2 (by decide)
  · exact (expire_exact z reopening 2100 hclock _ _).mpr ⟨by decide, by decide⟩

lemma Ledger.eq_new {z : Sizes} {r : Reassembler} (h : Ledger z r) (horder : r.order = []) :
    r = new := by
  obtain ⟨parts, order, held, orderBytes⟩ := r
  obtain rfl : order = [] := horder
  obtain rfl : parts = ∅ := by
    refine AList.ext (eq_nil_iff_forall_not_mem.mpr fun e he => ?_)
    exact absurd (h.slotted e.1 e.2 (AList.mem_lookup_iff.mpr he)) not_mem_nil
  obtain rfl : held = 0 := h.held
  obtain rfl : orderBytes = 0 := h.orderBytes.trans (Nat.zero_mul _)
  rfl

/-- The sweep stops at no slot that is too old. -/
lemma order_expireFrom_of_old {z : Sizes} {r : Reassembler} {slots : List (FragKey × Nat)}
    {nowMs : Nat} (horder : r.order = slots)
    (hold : ∀ slot ∈ slots, slot.2 + fragTimeoutMs ≤ nowMs) :
    (expireFrom z nowMs slots r).order = [] := by
  induction slots generalizing r with
  | nil => exact horder
  | cons slot rest ih =>
    have hrest : (r.popSlot z).order = rest := order_popSlot horder
    have hlater := fun slot hs => hold slot (mem_cons_of_mem _ hs)
    have hpast := hold slot mem_cons_self
    unfold expireFrom
    split
    · split
      · rw [if_neg (by omega)]
        exact ih hrest hlater
      · exact ih hrest hlater
    · exact ih hrest hlater

/-- After every run, an expiry a timeout after its end leaves no partial, no slot and no octet. -/
theorem silence_releases_all (z : Sizes) (es : List ReasmEvent) (lastMs nowMs : Nat)
    (hclock : (es.filterMap ReasmEvent.time ++ [lastMs]).Pairwise (· ≤ ·))
    (hquiet : lastMs + fragTimeoutMs ≤ nowMs) :
    (MyQuic2.after (next z) new es).expire z nowMs = new := by
  have haged : Aged (MyQuic2.after (next z) new es) lastMs :=
    (aged_new 0).after (pairwise_cons.mpr ⟨fun _ _ => Nat.zero_le _, hclock⟩)
  have hswept := order_expireFrom_of_old (z := z) rfl fun slot hs =>
    (Nat.add_le_add_right (haged.past slot hs) _).trans hquiet
  refine ((ledger_after z es).next (.expire nowMs)).eq_new ?_
  simp [next, Reassembler.expire, pruneOrders, hswept]

theorem silence_releases_all_reopened :
    let r := MyQuic2.after (next ⟨168, 40, 24⟩) new reopening
    r.order.length = 3 ∧ r.expire ⟨168, 40, 24⟩ 2500 = new :=
  ⟨by decide, silence_releases_all _ reopening 500 2500 (by decide) (by decide)⟩

end Reassembler

end MyQuic2
