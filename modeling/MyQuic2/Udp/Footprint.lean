import Mathlib.Algebra.Order.BigOperators.Group.List
import MyQuic2.Udp.Genuine

/-!
# The footprint of a partial

A partial is charged for its buffer's capacity, for the chunks that wait and for the
records around them. A fragment is admitted against an estimate made beforehand; the
charge afterwards stays within that estimate unless a chunk is placed far behind the
buffer's capacity.
-/

namespace MyQuic2

open List Reassembler

namespace Partial

def waiting (l : List PendingChunk) : Nat := (l.map fun c => c.bytes.length).sum

section

variable (l l' : List PendingChunk)

/-- Charge of the waiting chunks, their slots apart. -/
def waitingCharge : Nat :=
  (l.map fun c => c.bytes.length + pendingChunkCost).sum

/-- What a partial takes up. -/
def footprint (z : Sizes) (p : Partial) : Nat :=
  p.cap + (waitingCharge p.pending + p.pendingCap * z.chunk) + z.node

lemma retained_absorb (z : Sizes) (p : Partial) (f : Wire.FragView) :
    (p.absorb z f).retained = (p.absorb z f).footprint z := rfl

lemma waiting_append : waiting (l ++ l') = waiting l + waiting l' := by
  simp [waiting]

lemma waitingCharge_append : waitingCharge (l ++ l') = waitingCharge l + waitingCharge l' := by
  simp [waitingCharge]

end

variable {l : List PendingChunk} {bound : Nat} {p q : Partial}

lemma waiting_le_of_subperm {l' : List PendingChunk} (h : l.Subperm l') :
    waiting l ≤ waiting l' := by
  obtain ⟨k, hperm, hsub⟩ := h
  rw [waiting, ← (hperm.map _).sum_nat]
  exact (hsub.map _).sum_le_sum (by simp)

lemma waitingCharge_le_of_subperm {l' : List PendingChunk} (h : l.Subperm l') :
    waitingCharge l ≤ waitingCharge l' := by
  obtain ⟨k, hperm, hsub⟩ := h
  rw [waitingCharge, ← (hperm.map _).sum_nat]
  exact (hsub.map _).sum_le_sum (by simp)

/-- Chunks that are not empty are charged at most 49 times their octets. -/
lemma waitingCharge_le (h : ∀ c ∈ l, c.bytes ≠ []) : waitingCharge l ≤ 49 * waiting l := by
  induction l with
  | nil => simp [waitingCharge]
  | cons c l ih =>
    have hpos := length_pos_iff.mpr (h c (mem_cons_self ..))
    have hrest := ih fun c hc => h c (mem_cons_of_mem _ hc)
    simp only [waitingCharge, waiting, map_cons, sum_cons, pendingChunkCost] at hrest ⊢
    omega

lemma swapRemove_perm {i : Nat} {c : PendingChunk} (h : l[i]? = some c) :
    (c :: swapRemove l i).Perm l := by
  obtain rfl | ⟨init, last, rfl⟩ := l.eq_nil_or_concat'
  · simp at h
  obtain ⟨hi, hget⟩ := List.getElem?_eq_some_iff.mp h
  rw [List.length_append, List.length_singleton] at hi
  rw [swapRemove_append init last (by omega)]
  by_cases hlt : i < init.length
  · rw [getElem_append_left hlt] at hget
    have hset := (set_perm_cons_eraseIdx hlt last).cons c
    have hall := (getElem_cons_eraseIdx_perm hlt).cons last
    rw [hget] at hall
    exact hset.trans ((List.Perm.swap last c _).trans
      (hall.trans (perm_append_singleton last init).symm))
  · have heq : i = init.length := by omega
    subst heq
    rw [getElem_concat_length rfl] at hget
    rw [set_eq_of_length_le (le_refl _), ← hget]
    exact (perm_append_singleton last init).symm

/-- What placing waiting chunks does to a partial whose places end within a bound. -/
structure Drained (bound : Nat) (p q : Partial) : Prop where
  same : SameCounts q p
  buf : q.buf.length ≤ q.cap
  cap_le : q.cap ≤ bound
  le_cap : p.cap ≤ q.cap
  slots : q.pendingCap = p.pendingCap
  pending : q.pending.Subperm p.pending

/-- Every waiting chunk that has a place in the payload ends within a bound. -/
def EndsWithin (bound : Nat) (p : Partial) : Prop :=
  ∀ c ∈ p.pending, ∀ pos, posOf p.firstLen p.unit c.idx = some pos →
    pos + c.bytes.length ≤ fragMaxPayload → pos + c.bytes.length ≤ bound

lemma drained_refl (hbuf : p.buf.length ≤ p.cap) (hcap : p.cap ≤ bound) : Drained bound p p :=
  ⟨.refl p, hbuf, hcap, le_refl _, rfl, List.Subperm.refl _⟩

lemma drainLoop_drained {left i : Nat} (hbuf : p.buf.length ≤ p.cap) (hcap : p.cap ≤ bound)
    (hends : EndsWithin bound p) : Drained bound p (drainLoop left i p) := by
  induction left generalizing i p with
  | zero => exact drained_refl hbuf hcap
  | succ left ih =>
    cases hget : p.pending[i]? with
    | none =>
      simp only [drainLoop, hget]
      exact drained_refl hbuf hcap
    | some c =>
      cases hpos : posOf p.firstLen p.unit c.idx with
      | none =>
        simp only [drainLoop, hget, hpos]
        exact ih hbuf hcap hends
      | some pos =>
        by_cases hfit : pos + c.bytes.length ≤ fragMaxPayload
        · have hend := hends c (mem_of_getElem? hget) pos hpos hfit
          have hperm := swapRemove_perm hget
          have hsub : (swapRemove p.pending i).Subperm p.pending :=
            (sublist_cons_self c _).subperm.trans hperm.subperm
          simp only [drainLoop, hget, hpos, if_pos hfit, bufWrite]
          obtain ⟨hsame, hqbuf, hqcap, hle, hslots, hpending⟩ :=
            ih (i := i) (p := { p with
              pending := swapRemove p.pending i
              buf := writeAt p.buf pos c.bytes
              cap := max p.cap (writeAt p.buf pos c.bytes).length })
              (le_max_right _ _)
              (by rw [length_writeAt]; simp only; omega)
              (fun c' hc' => hends c' (hsub.subset hc'))
          exact ⟨hsame.trans ⟨rfl, rfl, rfl, rfl, rfl, rfl, rfl⟩, hqbuf, hqcap,
            le_trans (le_max_left _ _) hle, hslots, hpending.trans hsub⟩
        · simp only [drainLoop, hget, hpos, if_neg hfit]
          exact ih hbuf hcap hends

/-- The capacity with which the first chunk is placed. -/
def reserved (p : Partial) (f : Wire.FragView) : Nat := if p.cap = 0 then reserveFor f else p.cap

/-- Every chunk that a fragment lets be placed, its own and the waiting ones, ends within a
bound. -/
def PlacesWithin (bound : Nat) (p : Partial) (f : Wire.FragView) : Prop :=
  (∀ pos ∈ p.place f, pos + f.chunk.length ≤ bound) ∧
    ∀ c ∈ p.pending, ∀ pos ∈ posOf (p.firstAfter f) (p.unitAfter f) c.idx,
      pos + c.bytes.length ≤ fragMaxPayload → pos + c.bytes.length ≤ bound

instance (bound : Nat) (p : Partial) (f : Wire.FragView) : Decidable (p.PlacesWithin bound f) := by
  unfold PlacesWithin
  infer_instance

lemma bufWrite_drained {pos : Nat} {b : Bytes} (hfit : pos + b.length ≤ fragMaxPayload)
    (hbuf : p.buf.length ≤ p.cap) (hcap : p.cap ≤ bound) (hend : pos + b.length ≤ bound) :
    Drained bound p (p.bufWrite pos b) := by
  rw [bufWrite, if_pos hfit]
  refine ⟨⟨rfl, rfl, rfl, rfl, rfl, rfl, rfl⟩, le_max_right _ _, ?_, le_max_left _ _, rfl,
    List.Subperm.refl _⟩
  simp only [length_writeAt]
  omega

lemma Drained.trans {r : Partial} (h : Drained bound p q) (h' : Drained bound q r) :
    Drained bound p r :=
  ⟨h'.same.trans h.same, h'.buf, h'.cap_le, le_trans h.le_cap h'.le_cap, h'.slots.trans h.slots,
    h'.pending.trans h.pending⟩

lemma Drained.recomputeRetained (h : Drained bound p q) (z : Sizes) :
    Drained bound p (q.recomputeRetained z) :=
  ⟨(sameCounts_recomputeRetained z q).trans h.same, h.buf, h.cap_le, h.le_cap, h.slots, h.pending⟩

/-- The rest of taking a fragment in, once its chunk is stored. -/
lemma absorb_of_store {f : Wire.FragView} (z : Sizes) (hq : (p.note f).store f (p.place f) = q)
    (hbuf : q.buf.length ≤ q.cap) (hcap : q.cap ≤ bound)
    (hends : q.firstLen ≠ p.firstLen ∨ q.unit ≠ p.unit → EndsWithin bound q) :
    Drained bound q (p.absorb z f) := by
  simp only [absorb, hq]
  by_cases hnew : q.firstLen ≠ p.firstLen ∨ q.unit ≠ p.unit
  · rw [if_pos hnew]
    exact (drainLoop_drained hbuf hcap (hends hnew)).recomputeRetained z
  · rw [if_neg hnew]
    exact (drained_refl hbuf hcap).recomputeRetained z

/-- A fragment with a place leaves no more waiting and a buffer within the bound. -/
lemma absorb_placed {pos : Nat} {f : Wire.FragView} (z : Sizes) (hplace : p.place f = some pos)
    (hfit : pos + f.chunk.length ≤ fragMaxPayload) (hbuf : p.buf.length ≤ p.cap)
    (hres : p.reserved f ≤ bound) (hin : p.PlacesWithin bound f) :
    Drained bound { p.note f with cap := p.reserved f } (p.absorb z f) := by
  have hcap : p.cap ≤ p.reserved f := by
    unfold reserved
    split
    · omega
    · exact le_refl _
  have hwrite : Drained bound { p.note f with cap := p.reserved f }
      ({ p.note f with cap := p.reserved f }.bufWrite pos f.chunk) :=
    bufWrite_drained hfit (le_trans hbuf hcap) hres (hin.1 pos hplace)
  have hq : (p.note f).store f (p.place f) =
      { p.note f with cap := p.reserved f }.bufWrite pos f.chunk := by
    rw [hplace]
    rfl
  refine hwrite.trans (absorb_of_store z hq hwrite.buf hwrite.cap_le ?_)
  intro _ c hc pos' hpos'
  rw [hwrite.same.firstLen, hwrite.same.unit] at hpos'
  exact hin.2 c (hwrite.pending.subset hc) pos' hpos'

/-- The bounds that the parts of a partial keep. -/
structure Stocked (z : Sizes) (p : Partial) : Prop where
  buf : p.buf.length ≤ p.cap
  cap : p.cap ≤ fragMaxPayload
  first_cap : p.firstLen.isSome → 0 < p.cap
  first_le : ∀ a, p.firstLen = some a → a ≤ fragMaxPayload
  unit_le : ∀ a, p.unit = some a → a ≤ fragMaxPayload
  waits : ∀ c ∈ p.pending, c.idx ≠ 0 ∧ c.bytes ≠ []
  waiting : waiting p.pending ≤ p.bytes
  bytes : p.bytes ≤ fragMaxPayload
  slots : p.pendingCap * z.chunk ≤ fragMaxHeldBytes
  node : z.node ≤ fragMaxHeldBytes

lemma Stocked.footprint_le {z : Sizes} (h : p.Stocked z) : p.footprint z ≤ 2 ^ 20 := by
  have hcharge := waitingCharge_le fun c hc => (h.waits c hc).2
  have hmax : fragMaxPayload = 8192 := rfl
  have hheld : fragMaxHeldBytes = 262144 := rfl
  have hcap := h.cap
  have hwaiting := h.waiting
  have hbytes := h.bytes
  have hslots := h.slots
  have hnode := h.node
  unfold footprint
  omega

lemma stocked_new {z : Sizes} (hnode : z.node ≤ fragMaxHeldBytes) (total : UInt8)
    (ctx : Option FragCtx) (nowMs : Nat) : (new total ctx nowMs).Stocked z := by
  constructor <;> simp [new, Partial.waiting, hnode]

section

variable {z : Sizes} {p : Partial} {f : Wire.FragView}

lemma firstAfter_of_ne (h : f.idx ≠ 0) : p.firstAfter f = p.firstLen := if_neg h

/-- A place that is known already is kept. -/
lemma place_of_posOf {pos : Nat} (h : posOf p.firstLen p.unit f.idx = some pos) :
    p.place f = some pos := by
  unfold place
  by_cases h0 : f.idx = 0
  · rw [h0] at h ⊢
    exact h
  rw [firstAfter_of_ne h0]
  cases hunit : p.unit with
  | some w => rw [unitAfter_of_some hunit, ← hunit, h]
  | none =>
    -- Without the common length only the second chunk has a place.
    rw [hunit] at h
    unfold posOf at h ⊢
    rw [if_neg h0] at h ⊢
    cases hlen : p.firstLen with
    | none => simp [hlen] at h
    | some a =>
      by_cases hsteps : f.idx.toNat - 1 = 0
      · simpa [hlen, hsteps] using h
      · simp [hlen, hsteps] at h

lemma idx_ne_zero_of_place (hplace : p.place f = none) : f.idx ≠ 0 := by
  intro h0
  rw [place, h0, posOf, if_pos rfl] at hplace
  cases hplace

/-- With no first chunk only the first chunk has a place. -/
lemma posOf_none_first {unit : Option Nat} {idx : UInt8} (h : idx ≠ 0) :
    posOf none unit idx = none := by
  rw [posOf, if_neg h]
  rfl

/-- A fragment without a place lets no other be placed. -/
lemma endsWithin_of_place_none (h : p.Stocked z) (hchunk : f.chunk.length ≤ fragMaxPayload)
    (hplace : p.place f = none) {q : Partial} (hsame : SameCounts q (p.note f))
    (hpending : ∀ c ∈ q.pending, c.idx ≠ 0) (hnew : q.firstLen ≠ p.firstLen ∨ q.unit ≠ p.unit) :
    EndsWithin bound q := by
  have h0 := idx_ne_zero_of_place hplace
  have hfirst : q.firstLen = p.firstLen := hsame.firstLen.trans (firstAfter_of_ne h0)
  have hunit : q.unit = p.unitAfter f := hsame.unit
  -- The common length is new, so it is the first chunk that is missing.
  have hnone : q.firstLen = none := by
    rcases hnew with hne | hne
    · exact absurd hfirst hne
    cases hlen : p.firstLen with
    | none => rw [hfirst, hlen]
    | some a =>
      have hmid : (isMiddle f && p.unit.isNone) = true := by
        by_contra hno
        rw [hunit, unitAfter, if_neg hno] at hne
        exact hne rfl
      have hsome : p.unitAfter f = some f.chunk.length := by rw [unitAfter, if_pos hmid]
      have hpos : (p.place f).isSome := by
        rw [place, firstAfter_of_ne h0, hlen, hsome, Option.isSome_iff_exists]
        refine ⟨_, (posOf_eq_some_iff ?_ ?_).mpr ⟨⟨fun _ => rfl, fun _ => rfl⟩, rfl⟩⟩
        · rintro _ ⟨⟩
          exact h.first_le a hlen
        · rintro _ ⟨⟩
          exact hchunk
      rw [hplace] at hpos
      cases hpos
  intro c hc pos hpos
  rw [hnone, posOf_none_first (hpending c hc)] at hpos
  cases hpos

lemma pendingCap_pushPending (c : PendingChunk) :
    (p.pushPending c).pendingCap = if p.pending.length < p.pendingCap then p.pendingCap
      else if p.pendingCap = 0 then 4 else p.pendingCap * 2 := rfl

/-- A fragment without a place waits, and nothing else changes but the counts. -/
lemma absorb_waiting (h : p.Stocked z) (hchunk : f.chunk.length ≤ fragMaxPayload)
    (hplace : p.place f = none) :
    Drained p.cap ((p.note f).pushPending ⟨f.idx, f.chunk⟩) (p.absorb z f) := by
  have hq : (p.note f).store f (p.place f) = (p.note f).pushPending ⟨f.idx, f.chunk⟩ := by
    rw [hplace]
    rfl
  have h0 := idx_ne_zero_of_place hplace
  have hsame : SameCounts ((p.note f).pushPending ⟨f.idx, f.chunk⟩) (p.note f) :=
    ⟨rfl, rfl, rfl, rfl, rfl, rfl, rfl⟩
  refine absorb_of_store z hq h.buf (le_refl _) fun hnew => ?_
  refine endsWithin_of_place_none h hchunk hplace hsame ?_ hnew
  intro c hc
  rcases mem_append.mp hc with hold | hown
  · exact (h.waits c hold).1
  rw [mem_singleton] at hown
  rw [hown]
  exact h0

lemma fragMaxHeldBytes_lt : fragMaxHeldBytes < usizeSize - 1 := by decide

/-- A charge within the budget is the sum of its parts. -/
lemma pendingCharge_eq {pendingLen pendingCap n : Nat}
    (h : pendingCharge z pendingLen pendingCap n ≤ fragMaxHeldBytes) :
    pendingCharge z pendingLen pendingCap n = n + pendingChunkCost +
      if pendingLen < pendingCap then 0
      else (if pendingCap = 0 then 4 else pendingCap * 2) * z.chunk := by
  have hlt := fragMaxHeldBytes_lt
  unfold pendingCharge at h ⊢
  simp only at h ⊢
  rw [saturatingAdd_le_iff hlt] at h
  have hown : n + pendingChunkCost ≤ fragMaxHeldBytes :=
    (saturatingAdd_le_iff hlt).mp (le_trans (Nat.le_add_right _ _) h)
  rw [saturatingAdd_of_lt (a := n) (by omega)] at h ⊢
  rw [saturatingAdd_of_lt (by omega)]
  split
  · rfl
  rename_i hfull
  rw [if_neg hfull] at h
  have hslots := le_trans (Nat.le_add_left _ _) h
  rw [saturatingMul_le_iff hlt] at hslots
  rw [saturatingMul_of_lt (by omega)]
  split
  · rfl
  rename_i hcap
  rw [if_neg hcap] at hslots
  rcases Nat.eq_zero_or_pos z.chunk with hzero | hpos
  · rw [hzero, Nat.mul_zero, Nat.mul_zero]
  have hdouble := le_trans (Nat.le_mul_of_pos_right _ hpos) hslots
  rw [saturatingMul_le_iff hlt] at hdouble
  rw [saturatingMul_of_lt (by omega)]

/-- The slot array that a waiting chunk needs was charged. -/
lemma slots_le_of_charge {held : Nat}
    (hcharge : saturatingAdd held (p.charge z f) ≤ fragMaxHeldBytes) (hplace : p.place f = none)
    (h : p.pendingCap * z.chunk ≤ fragMaxHeldBytes) (c : PendingChunk) :
    (p.pushPending c).pendingCap * z.chunk ≤ fragMaxHeldBytes ∧
      f.chunk.length + pendingChunkCost + (p.pushPending c).pendingCap * z.chunk ≤
        p.pendingCap * z.chunk + p.charge z f := by
  have hnone : posOf p.firstLen p.unit f.idx = none := by
    cases hpos : posOf p.firstLen p.unit f.idx with
    | none => rfl
    | some pos =>
      rw [place_of_posOf hpos] at hplace
      cases hplace
  rw [saturatingAdd_le_iff fragMaxHeldBytes_lt] at hcharge
  rw [charge, hnone, Option.isSome_none, if_neg Bool.false_ne_true] at hcharge ⊢
  have heq := pendingCharge_eq (le_trans (Nat.le_add_left _ _) hcharge)
  rw [heq] at hcharge ⊢
  rw [pendingCap_pushPending]
  by_cases hroom : p.pending.length < p.pendingCap
  · simp only [if_pos hroom] at hcharge ⊢
    omega
  · simp only [if_neg hroom] at hcharge ⊢
    omega

lemma pos_le_of_pastEnd {pos : Nat} (hend : pastEnd p f = false)
    (hplace : p.place f = some pos) : pos + f.chunk.length ≤ fragMaxPayload := by
  rw [pastEnd, hplace, Option.any_some, decide_eq_false_iff_not, Nat.not_lt] at hend
  exact (saturatingAdd_le_iff (by decide)).mp hend

lemma placesWithin_payload (hend : pastEnd p f = false) : p.PlacesWithin fragMaxPayload f :=
  ⟨fun _ hpos => pos_le_of_pastEnd hend hpos, fun _ _ _ _ hle => hle⟩

lemma reserveFor_le : reserveFor f ≤ fragMaxPayload := Nat.min_le_right _ _

lemma reserved_le (h : p.Stocked z) : p.reserved f ≤ fragMaxPayload := by
  unfold reserved
  split
  · exact reserveFor_le
  · exact h.cap

lemma reserved_pos (htotal : 0 < f.total.toNat) (hchunk : f.chunk ≠ []) : 0 < p.reserved f := by
  unfold reserved
  split
  · exact Nat.lt_min.mpr ⟨Nat.mul_pos htotal (length_pos_iff.mpr hchunk), by decide⟩
  · omega

lemma firstAfter_le (h : p.Stocked z) (hlen : f.chunk.length ≤ fragMaxPayload) {a : Nat}
    (ha : p.firstAfter f = some a) : a ≤ fragMaxPayload := by
  unfold firstAfter at ha
  split at ha
  · cases ha
    exact hlen
  · exact h.first_le a ha

lemma unitAfter_le (h : p.Stocked z) (hlen : f.chunk.length ≤ fragMaxPayload) {a : Nat}
    (ha : p.unitAfter f = some a) : a ≤ fragMaxPayload := by
  unfold unitAfter at ha
  split at ha
  · cases ha
    exact hlen
  · exact h.unit_le a ha

/-- An admitted fragment keeps the bounds of its partial. -/
lemma Stocked.absorb (h : p.Stocked z) (htotal : 0 < f.total.toNat) (hchunk : f.chunk ≠ [])
    (hbytes : p.bytes + f.chunk.length ≤ fragMaxPayload) (hend : pastEnd p f = false)
    (hslots : p.place f = none →
      (p.pushPending ⟨f.idx, f.chunk⟩).pendingCap * z.chunk ≤ fragMaxHeldBytes) :
    (p.absorb z f).Stocked z := by
  have hlen : f.chunk.length ≤ fragMaxPayload := by omega
  have hwaiting := h.waiting
  cases hplace : p.place f with
  | some pos =>
    have hfit := pos_le_of_pastEnd hend hplace
    have hq := absorb_placed z hplace hfit h.buf (reserved_le h) (placesWithin_payload hend)
    have hwait := waiting_le_of_subperm hq.pending
    refine ⟨hq.buf, hq.cap_le, fun _ => ?_, fun a ha => ?_, fun a ha => ?_,
      fun c hc => h.waits c (hq.pending.subset hc), ?_, ?_, ?_, h.node⟩
    · exact lt_of_lt_of_le (reserved_pos htotal hchunk) hq.le_cap
    · exact firstAfter_le h hlen (hq.same.firstLen.symm.trans ha)
    · exact unitAfter_le h hlen (hq.same.unit.symm.trans ha)
    · rw [hq.same.bytes]
      exact le_trans hwait (le_trans hwaiting (Nat.le_add_right _ _))
    · rw [hq.same.bytes]
      exact hbytes
    · rw [hq.slots]
      exact h.slots
  | none =>
    have h0 := idx_ne_zero_of_place hplace
    have hq := absorb_waiting h hlen hplace
    have hwait : Partial.waiting (p.absorb z f).pending ≤
        Partial.waiting p.pending + f.chunk.length := by
      refine le_trans (waiting_le_of_subperm hq.pending) (le_of_eq ?_)
      exact (waiting_append _ _).trans rfl
    refine ⟨hq.buf, le_trans hq.cap_le h.cap, fun hsome => ?_, fun a ha => ?_, fun a ha => ?_,
      fun c hc => ?_, ?_, ?_, ?_, h.node⟩
    · rw [hq.same.firstLen] at hsome
      exact lt_of_lt_of_le (h.first_cap (firstAfter_of_ne h0 ▸ hsome)) hq.le_cap
    · exact firstAfter_le h hlen (hq.same.firstLen.symm.trans ha)
    · exact unitAfter_le h hlen (hq.same.unit.symm.trans ha)
    · rcases mem_append.mp (hq.pending.subset hc) with hold | hown
      · exact h.waits c hold
      rw [mem_singleton] at hown
      rw [hown]
      exact ⟨h0, hchunk⟩
    · rw [hq.same.bytes]
      exact le_trans hwait (Nat.add_le_add_right hwaiting _)
    · rw [hq.same.bytes]
      exact hbytes
    · rw [hq.slots]
      exact hslots hplace

variable (h : p.Stocked z) (ctx : Option FragCtx)
include h

/-- Taking a fragment in counts it. -/
lemma Stocked.same_absorb (hlen : f.chunk.length ≤ fragMaxPayload)
    (hend : pastEnd p f = false) : SameCounts (p.absorb z f) (p.note f) := by
  have hsame : SameCounts { p.note f with cap := p.reserved f } (p.note f) :=
    ⟨rfl, rfl, rfl, rfl, rfl, rfl, rfl⟩
  cases hplace : p.place f with
  | some pos =>
    have hfit := pos_le_of_pastEnd hend hplace
    exact (absorb_placed z hplace hfit h.buf (reserved_le h)
      (placesWithin_payload hend)).same.trans hsame
  | none => exact (absorb_waiting h hlen hplace).same.trans ⟨rfl, rfl, rfl, rfl, rfl, rfl, rfl⟩

/-- The first chunk to be placed is the first one, and its reservation is charged. -/
lemma reserved_le_charge {pos : Nat} (hplace : p.place f = some pos) :
    p.reserved f ≤ p.cap + p.charge z f := by
  unfold reserved
  split
  · rename_i hcap
    have hfirst : p.firstLen = none := by
      cases hlen : p.firstLen with
      | none => rfl
      | some a =>
        have hpos := h.first_cap (by rw [hlen]; rfl)
        omega
    have h0 : f.idx = 0 := by
      by_contra h0
      rw [place, firstAfter_of_ne h0, hfirst, posOf_none_first h0] at hplace
      cases hplace
    have hsome : (posOf p.firstLen p.unit f.idx).isSome := by
      rw [h0]
      rfl
    rw [charge, if_pos hsome, if_pos hcap]
    omega
  · exact Nat.le_add_right _ _

/-- The charge of an admitted fragment covers what it adds, if every chunk it lets be placed ends
within the charged capacity. -/
lemma footprint_absorb_le (hbytes : p.bytes + f.chunk.length ≤ fragMaxPayload) {held : Nat}
    (hcharge : saturatingAdd held (p.charge z f) ≤ fragMaxHeldBytes)
    (hend : pastEnd p f = false) (hin : p.PlacesWithin (p.cap + p.charge z f) f) :
    (p.absorb z f).footprint z ≤ p.footprint z + p.charge z f := by
  unfold footprint
  cases hplace : p.place f with
  | some pos =>
    have hfit := pos_le_of_pastEnd hend hplace
    have hq := absorb_placed z hplace hfit h.buf (reserved_le_charge h hplace) hin
    have hwait := waitingCharge_le_of_subperm hq.pending
    have hcap := hq.cap_le
    rw [hq.slots]
    simp only [note] at hwait ⊢
    omega
  | none =>
    have hq := absorb_waiting h (by omega) hplace
    have hwait : waitingCharge (p.absorb z f).pending ≤
        waitingCharge p.pending + (f.chunk.length + pendingChunkCost) := by
      refine le_trans (waitingCharge_le_of_subperm hq.pending) (le_of_eq ?_)
      exact (waitingCharge_append _ _).trans rfl
    have hcap := hq.cap_le
    have hslots := (slots_le_of_charge hcharge hplace h.slots ⟨f.idx, f.chunk⟩).2
    have hsame : (p.absorb z f).pendingCap = (p.pushPending ⟨f.idx, f.chunk⟩).pendingCap := hq.slots
    rw [hsame]
    omega

/-- The context takes no room. -/
lemma Stocked.withCtx : Stocked z { p with ctx := ctx } :=
  ⟨h.buf, h.cap, h.first_cap, h.first_le, h.unit_le, h.waits, h.waiting, h.bytes, h.slots, h.node⟩

end

end Partial

end MyQuic2
