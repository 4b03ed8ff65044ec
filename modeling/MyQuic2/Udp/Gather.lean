import MyQuic2.Udp.Reassembler

/-!
# What a partial gathers

A partial stands for a table of accepted chunks: its counters say which indexes
are there and how long the first and the middle chunks are, its buffer holds the
chunks whose place is known, and the others wait. Taking a fragment in adds one
chunk to the table. A full table makes the buffer the concatenation of the chunks.
-/

namespace MyQuic2

open List Function Option

/-- The first `n` chunks of a table side by side. -/
def joined (c : Nat → Option Bytes) (n : Nat) : Bytes :=
  (List.range n).flatMap fun i => (c i).getD []

lemma joined_succ (c : Nat → Option Bytes) (n : Nat) :
    joined c (n + 1) = joined c n ++ (c n).getD [] := by
  rw [joined, range_succ, flatMap_append, flatMap_singleton, joined]

variable {c : Nat → Option Bytes}

lemma joined_congr {d : Nat → Option Bytes} {n : Nat} (h : ∀ i < n, c i = d i) :
    joined c n = joined d n := by
  induction n with
  | zero => rfl
  | succ n ih => rw [joined_succ, joined_succ, ih fun i hi => h i (by omega), h n (by omega)]

/-- One more chunk makes the whole longer by its length. -/
lemma length_joined_update {n i : Nat} (hi : i < n) (hnone : c i = none) (b : Bytes) :
    (joined (Function.update c i (some b)) n).length = (joined c n).length + b.length := by
  induction n with
  | zero => exact absurd hi (Nat.not_lt_zero i)
  | succ n ih =>
    rw [joined_succ, joined_succ, length_append, length_append]
    by_cases hin : i = n
    · subst hin
      rw [update_self, hnone, getD_some, getD_none, length_nil,
        joined_congr fun j hj => update_of_ne (Nat.ne_of_lt hj) _ _]
      omega
    · rw [ih (by omega), update_of_ne (Ne.symm hin)]
      omega

lemma length_joined_le {d : Nat → Option Bytes} (h : ∀ i b, c i = some b → d i = some b)
    (n : Nat) : (joined c n).length ≤ (joined d n).length := by
  induction n with
  | zero => exact le_refl _
  | succ n ih =>
    rw [joined_succ, joined_succ, length_append, length_append]
    cases hc : c n with
    | none =>
      rw [getD_none, length_nil]
      omega
    | some b =>
      rw [h n b hc]
      omega

/-- No chunk is longer than the whole. -/
lemma length_le_joined {n i : Nat} {b : Bytes} (hi : i < n) (hb : c i = some b) :
    b.length ≤ (joined c n).length := by
  induction n with
  | zero => exact absurd hi (Nat.not_lt_zero i)
  | succ n ih =>
    rw [joined_succ, length_append]
    by_cases hin : i = n
    · subst hin
      rw [hb, getD_some]
      omega
    · have := ih (by omega)
      omega

namespace Partial

/-- Where chunk `i` starts, by the lengths known so far. -/
def start (p : Partial) (i : Nat) : Nat := pieceStart (p.firstLen.getD 0) (p.unit.getD 0) i

/-- The lengths that the place of chunk `i` depends on are known. -/
def Placeable (p : Partial) (i : Nat) : Prop :=
  (i ≠ 0 → p.firstLen.isSome) ∧ (2 ≤ i → p.unit.isSome)

lemma checkedAdd_of_le {a b : Nat} (ha : a ≤ 8192) (hb : b ≤ 255 * 8192) :
    checkedAdd a b = some (a + b) := by
  unfold checkedAdd
  rw [if_pos]
  simp only [usizeSize]
  omega

/-- A known place is the start of the piece. -/
lemma posOf_eq_some_iff {firstLen unit : Option Nat} {idx : UInt8} {pos : Nat}
    (hfirst : ∀ a, firstLen = some a → a ≤ fragMaxPayload)
    (hunit : ∀ a, unit = some a → a ≤ fragMaxPayload) :
    posOf firstLen unit idx = some pos ↔
      ((idx.toNat ≠ 0 → firstLen.isSome) ∧ (2 ≤ idx.toNat → unit.isSome)) ∧
        pieceStart (firstLen.getD 0) (unit.getD 0) idx.toNat = pos := by
  have hmax : fragMaxPayload = 8192 := rfl
  unfold posOf
  by_cases h0 : idx = 0
  · subst h0
    simp [pieceStart]
  have hne : idx.toNat ≠ 0 := fun h => h0 (UInt8.toNat_inj.mp h)
  have hlt : idx.toNat < 256 := idx.toNat_lt
  obtain ⟨k, hk⟩ : ∃ k, idx.toNat = k + 1 := ⟨idx.toNat - 1, by omega⟩
  rw [if_neg h0, hk]
  cases firstLen with
  | none => simp
  | some a =>
    have ha := hfirst a rfl
    by_cases hk0 : k = 0
    · subst hk0
      have hadd : checkedAdd a 0 = some a := checkedAdd_of_le (by omega) (by omega)
      have hmul : checkedMul 0 0 = some 0 := by simp [checkedMul, usizeSize]
      simp [hmul, hadd, pieceStart]
    cases unit with
    | none => simp [hk0]
    | some w =>
      have hw := hunit w rfl
      have hprod : k * w ≤ 255 * 8192 := Nat.mul_le_mul (by omega) (by omega)
      have hmul : checkedMul k w = some (k * w) := by
        unfold checkedMul
        rw [if_pos]
        simp only [usizeSize]
        omega
      simp [hk0, hmul, checkedAdd_of_le (by omega : a ≤ 8192) hprod, pieceStart]

/-- The counters of a partial agree with the chunks it has accepted. -/
structure Counts (p : Partial) (c : Nat → Option Bytes) : Prop where
  two_le : 2 ≤ p.total.toNat
  le_max : p.total.toNat ≤ fragMaxTotal
  lt_total : ∀ {i b}, c i = some b → i < p.total.toNat
  got : ∀ i < 64, p.got.getLsbD i = (c i).isSome
  first : p.firstLen = (c 0).map List.length
  middle : ∀ {i b}, 1 ≤ i → i + 1 < p.total.toNat → c i = some b → p.unit = some b.length
  /-- The common length was brought by a middle chunk. -/
  unit_of : ∀ {w}, p.unit = some w → ∃ i b, 1 ≤ i ∧ i + 1 < p.total.toNat ∧ c i = some b
  bytes : p.bytes = (joined c p.total.toNat).length
  le_payload : p.bytes ≤ fragMaxPayload

structure SameCounts (q p : Partial) : Prop where
  total : q.total = p.total
  got : q.got = p.got
  firstLen : q.firstLen = p.firstLen
  unit : q.unit = p.unit
  bytes : q.bytes = p.bytes
  ctx : q.ctx = p.ctx
  firstMs : q.firstMs = p.firstMs

lemma SameCounts.refl (p : Partial) : SameCounts p p := ⟨rfl, rfl, rfl, rfl, rfl, rfl, rfl⟩

variable {p q : Partial} {c : Nat → Option Bytes} {i : Nat}

lemma SameCounts.trans {r : Partial} (h : SameCounts r q) (h' : SameCounts q p) : SameCounts r p :=
  ⟨h.total.trans h'.total, h.got.trans h'.got, h.firstLen.trans h'.firstLen, h.unit.trans h'.unit,
    h.bytes.trans h'.bytes, h.ctx.trans h'.ctx, h.firstMs.trans h'.firstMs⟩

lemma SameCounts.counts (h : SameCounts q p) (hc : Counts p c) : Counts q c := by
  constructor
  · rw [h.total]; exact hc.two_le
  · rw [h.total]; exact hc.le_max
  · rw [h.total]; exact hc.lt_total
  · rw [h.got]; exact hc.got
  · rw [h.firstLen]; exact hc.first
  · rw [h.total, h.unit]; exact hc.middle
  · rw [h.total, h.unit]; exact hc.unit_of
  · rw [h.total, h.bytes]; exact hc.bytes
  · rw [h.bytes]; exact hc.le_payload

lemma SameCounts.start (h : SameCounts q p) (i : Nat) : q.start i = p.start i := by
  rw [Partial.start, Partial.start, h.firstLen, h.unit]

lemma SameCounts.placeable (h : SameCounts q p) (i : Nat) : q.Placeable i ↔ p.Placeable i := by
  rw [Placeable, Placeable, h.firstLen, h.unit]

section

variable {p : Partial} {c : Nat → Option Bytes} (hc : Counts p c)
include hc

variable {i : Nat}

lemma Counts.chunk_le {b : Bytes} (hb : c i = some b) : b.length ≤ p.bytes :=
  hc.bytes ▸ length_le_joined (hc.lt_total hb) hb

lemma Counts.first_le {a : Nat} (ha : p.firstLen = some a) : a ≤ fragMaxPayload := by
  rw [hc.first, map_eq_some_iff] at ha
  obtain ⟨b, hb, rfl⟩ := ha
  exact (hc.chunk_le hb).trans hc.le_payload

lemma Counts.unit_le {w : Nat} (hw : p.unit = some w) : w ≤ fragMaxPayload := by
  obtain ⟨i, b, hi, hi', hb⟩ := hc.unit_of hw
  have hwb := hc.middle hi hi' hb
  rw [hw, some.injEq] at hwb
  exact hwb ▸ (hc.chunk_le hb).trans hc.le_payload

/-- The place of a chunk, once known, is its start. -/
lemma Counts.posOf_iff {idx : UInt8} {pos : Nat} :
    posOf p.firstLen p.unit idx = some pos ↔ p.Placeable idx.toNat ∧ p.start idx.toNat = pos :=
  posOf_eq_some_iff (fun _ => hc.first_le) fun _ => hc.unit_le

lemma Counts.posOf_eq_none {idx : UInt8} :
    posOf p.firstLen p.unit idx = none ↔ ¬p.Placeable idx.toNat := by
  constructor
  · intro hnone hpl
    rw [hc.posOf_iff.mpr ⟨hpl, rfl⟩] at hnone
    exact absurd hnone (by simp)
  · intro hpl
    rw [eq_none_iff_forall_ne_some]
    intro pos hpos
    exact hpl (hc.posOf_iff.mp hpos).1

/-- A chunk ends where a later one starts or before. -/
lemma Counts.stop_le {j : Nat} {b : Bytes} (hij : i < j) (hj : j < p.total.toNat)
    (hb : c i = some b) : p.start i + b.length ≤ p.start j := by
  have hmono : p.start (i + 1) ≤ p.start j := pieceStart_mono hij
  have hstep : p.start (i + 1) = p.start i + if i = 0 then p.firstLen.getD 0 else p.unit.getD 0 :=
    pieceStart_succ_eq _ _ i
  by_cases hi : i = 0
  · subst hi
    rw [if_pos rfl, hc.first, hb] at hstep
    simp only [map_some, getD_some] at hstep
    omega
  · rw [if_neg hi, hc.middle (by omega) (by omega) hb, getD_some] at hstep
    omega

/-- Different chunks lie apart. -/
lemma Counts.apart {j : Nat} {b d : Bytes} (hij : i ≠ j) (hb : c i = some b) (hd : c j = some d) :
    p.start i + b.length ≤ p.start j ∨ p.start j + d.length ≤ p.start i := by
  rcases Nat.lt_or_gt_of_ne hij with h | h
  · exact .inl (hc.stop_le h (hc.lt_total hd) hb)
  · exact .inr (hc.stop_le h (hc.lt_total hb) hd)

variable (hi : i < p.total.toNat) (hall : ∀ j < p.total.toNat, (c j).isSome)
include hi hall

/-- With every chunk there, chunk `i` starts behind the ones before it. -/
lemma Counts.start_eq_length : p.start i = (joined c i).length := by
  induction i with
  | zero => rfl
  | succ i ih =>
    obtain ⟨b, hb⟩ := isSome_iff_exists.mp (hall i (by omega))
    have hstep : p.start (i + 1) = p.start i + if i = 0 then p.firstLen.getD 0 else p.unit.getD 0 :=
      pieceStart_succ_eq _ _ i
    rw [joined_succ, length_append, ← ih (by omega), hstep, hb, getD_some]
    by_cases h0 : i = 0
    · subst h0
      rw [if_pos rfl, hc.first, hb]
      rfl
    · rw [if_neg h0, hc.middle (by omega) hi hb, getD_some]

/-- With every chunk there, every place is known. -/
lemma Counts.placeable : p.Placeable i := by
  constructor
  · intro _
    obtain ⟨b, hb⟩ := isSome_iff_exists.mp (hall 0 (by omega))
    rw [hc.first, hb]
    rfl
  · intro h2
    obtain ⟨b, hb⟩ := isSome_iff_exists.mp (hall 1 (by omega))
    rw [hc.middle (le_refl 1) (by omega) hb]
    rfl

end

/-- Every chunk of the table is in its place or waits. -/
structure Stores (p : Partial) (c : Nat → Option Bytes) : Prop where
  pending : ∀ {e}, e ∈ p.pending → c e.idx.toNat = some e.bytes
  placed : ∀ {i b}, c i = some b → (∀ e ∈ p.pending, e.idx.toNat ≠ i) →
    p.Placeable i ∧ HoldsAt p.buf (p.start i) b
  /-- The buffer does not reach behind the chunks. -/
  short : ∀ k < p.buf.length, ∃ i b, c i = some b ∧ p.Placeable i ∧ k < p.start i + b.length

/-- A waiting chunk has no place, or one behind the largest payload. -/
def Waits (p : Partial) (e : PendingChunk) : Prop :=
  p.Placeable e.idx.toNat → fragMaxPayload < p.start e.idx.toNat + e.bytes.length

lemma SameCounts.waits (h : SameCounts q p) (e : PendingChunk) : q.Waits e ↔ p.Waits e := by
  rw [Waits, Waits, h.placeable, h.start]

/-- A partial that has gathered exactly the chunks of a table. -/
structure Gathers (p : Partial) (c : Nat → Option Bytes) : Prop where
  counts : Counts p c
  stores : Stores p c
  waits : ∀ e ∈ p.pending, p.Waits e

/-- A partial with a full table holds the concatenation of the chunks. -/
lemma Gathers.buf_eq (h : Gathers p c) (hall : ∀ i < p.total.toNat, (c i).isSome) :
    p.buf = joined c p.total.toNat := by
  have hstart : ∀ i < p.total.toNat, p.start i = (joined c i).length :=
    fun i hi => h.counts.start_eq_length hi hall
  have hstop : ∀ i b, c i = some b → p.start i + b.length ≤ (joined c p.total.toNat).length := by
    intro i b hb
    by_cases hlast : i + 1 = p.total.toNat
    · rw [← hlast, joined_succ, length_append, hb, getD_some, ← hstart i (h.counts.lt_total hb)]
    have hi := h.counts.lt_total hb
    have hle := h.counts.stop_le (Nat.lt_of_lt_of_le (Nat.lt_succ_self i) (by omega))
      (show p.total.toNat - 1 < p.total.toNat by omega) hb
    have hend := joined_succ c (p.total.toNat - 1)
    rw [Nat.sub_add_cancel (by omega)] at hend
    rw [hend, length_append, ← hstart _ (by omega)]
    omega
  -- Nothing waits any more: every place is known and ends inside the payload.
  have hnone : ∀ e ∈ p.pending, False := by
    intro e he
    have hb := h.stores.pending he
    have hwait := h.waits e he (h.counts.placeable (h.counts.lt_total hb) hall)
    have hle := hstop _ _ hb
    rw [← h.counts.bytes] at hle
    have hmax := h.counts.le_payload
    omega
  apply eq_flatMap_of_holdsAt
  · by_contra hlong
    obtain ⟨i, b, hb, -, hk⟩ := h.stores.short ((joined c p.total.toNat).length) (by
      rw [joined]
      omega)
    have := hstop i b hb
    omega
  · intro i hi
    obtain ⟨b, hb⟩ := isSome_iff_exists.mp (hall i hi)
    have hat := (h.stores.placed hb fun e he => (hnone e he).elim).2
    rw [hstart i hi] at hat
    rw [hb]
    exact hat

lemma swapRemove_append (l : List PendingChunk) (last : PendingChunk) (hi : i ≤ l.length) :
    swapRemove (l ++ [last]) i = l.set i last := by
  simp only [swapRemove, getLast?_concat]
  by_cases hlt : i < l.length
  · rw [set_append_left _ _ hlt, dropLast_concat]
  have heq : i = l.length := by omega
  rw [heq, set_append_right _ _ (le_refl _), Nat.sub_self, set_cons_zero,
    dropLast_concat, set_eq_of_length_le (le_refl _)]

lemma swapRemove_spec {l : List PendingChunk} {c : PendingChunk} (h : l[i]? = some c) :
    (swapRemove l i).length + 1 = l.length ∧
      (∀ j < i, (swapRemove l i)[j]? = l[j]?) ∧
      (∀ e ∈ swapRemove l i, e ∈ l) ∧ ∀ e ∈ l, e = c ∨ e ∈ swapRemove l i := by
  obtain rfl | ⟨init, last, rfl⟩ := l.eq_nil_or_concat'
  · simp at h
  have hi : i < (init ++ [last]).length := (List.getElem?_eq_some_iff.mp h).1
  rw [List.length_append, List.length_singleton] at hi
  rw [swapRemove_append init last (by omega)]
  refine ⟨by simp, ?_, ?_, ?_⟩
  · intro j hj
    rw [getElem?_set_ne (by omega), getElem?_append_left (by omega)]
  · intro e he
    rcases mem_or_eq_of_mem_set he with hin | rfl
    · exact mem_append_left _ hin
    · simp
  intro e he
  obtain ⟨j, hj⟩ := mem_iff_getElem?.mp he
  by_cases hij : j = i
  · subst hij
    rw [h, some.injEq] at hj
    exact .inl hj.symm
  right
  by_cases hjlt : j < init.length
  · rw [getElem?_append_left hjlt] at hj
    exact List.mem_iff_getElem?.mpr ⟨j, by rw [List.getElem?_set_ne (by omega), hj]⟩
  have hjlen : j < (init ++ [last]).length := (List.getElem?_eq_some_iff.mp hj).1
  rw [List.length_append, List.length_singleton] at hjlen
  rw [List.getElem?_append_right (by omega), show j - init.length = 0 by omega] at hj
  rw [getElem?_singleton, if_pos rfl, some.injEq] at hj
  exact hj ▸ mem_set (by omega) _

/-- Writing a chunk in its place stores it and keeps the others. -/
lemma stores_of_write {b : Bytes} (hc : Counts p c) (hb : c i = some b) (hpl : p.Placeable i)
    (hq : SameCounts q p) (hbuf : q.buf = writeAt p.buf (p.start i) b)
    (hpending : ∀ e ∈ q.pending, c e.idx.toNat = some e.bytes)
    (hplaced : ∀ {j d}, j ≠ i → c j = some d → (∀ e ∈ q.pending, e.idx.toNat ≠ j) →
      p.Placeable j ∧ HoldsAt p.buf (p.start j) d)
    (hshort : ∀ k < p.buf.length, ∃ j d, c j = some d ∧ p.Placeable j ∧ k < p.start j + d.length) :
    Stores q c := by
  refine ⟨fun he => hpending _ he, ?_, ?_⟩
  · intro j d hd hout
    rw [hq.placeable, hq.start, hbuf]
    by_cases hji : j = i
    · subst hji
      rw [hb, some.injEq] at hd
      exact ⟨hpl, hd ▸ holdsAt_writeAt _ _ _⟩
    · obtain ⟨hpl', hat⟩ := hplaced hji hd hout
      exact ⟨hpl', hat.writeAt (hc.apart hji hd hb)⟩
  · intro k hk
    simp only [hq.placeable, hq.start]
    rw [hbuf, length_writeAt] at hk
    by_cases hold : k < p.buf.length
    · exact hshort k hold
    · exact ⟨i, b, hb, hpl, by omega⟩

lemma bufWrite_of_le {pos : Nat} {b : Bytes} (h : pos + b.length ≤ fragMaxPayload) :
    SameCounts (p.bufWrite pos b) p ∧ (p.bufWrite pos b).buf = writeAt p.buf pos b ∧
      (p.bufWrite pos b).pending = p.pending := by
  rw [bufWrite, if_pos h]
  exact ⟨⟨rfl, rfl, rfl, rfl, rfl, rfl, rfl⟩, rfl, rfl⟩

lemma waits_of_past (hpast : ∀ j < i, ∀ e, p.pending[j]? = some e → p.Waits e)
    (hi : p.pending.length ≤ i) : ∀ e ∈ p.pending, p.Waits e := by
  intro e he
  obtain ⟨j, hj⟩ := List.mem_iff_getElem?.mp he
  have hlen := (List.getElem?_eq_some_iff.mp hj).1
  exact hpast j (by omega) e hj

/-- The drain keeps the chunks stored and ends when only chunks without a place wait. -/
lemma drainLoop_spec {left : Nat} (hc : Counts p c) (hs : Stores p c)
    (hleft : p.pending.length ≤ left + i)
    (hpast : ∀ j < i, ∀ e, p.pending[j]? = some e → p.Waits e) :
    ∃ q, drainLoop left i p = q ∧ SameCounts q p ∧ Stores q c ∧ ∀ e ∈ q.pending, q.Waits e := by
  induction left generalizing i p with
  | zero => exact ⟨p, rfl, .refl p, hs, waits_of_past hpast (by omega)⟩
  | succ left ih =>
    cases hget : p.pending[i]? with
    | none =>
      refine ⟨p, ?_, .refl p, hs, waits_of_past hpast (getElem?_eq_none_iff.mp hget)⟩
      simp [drainLoop, hget]
    | some e =>
      -- An entry that stays joins the ones that were passed.
      have hpass : p.Waits e → ∃ q, drainLoop left (i + 1) p = q ∧ SameCounts q p ∧
          Stores q c ∧ ∀ e ∈ q.pending, q.Waits e := by
        intro hw
        have hpast' : ∀ j < i + 1, ∀ e', p.pending[j]? = some e' → p.Waits e' := by
          intro j hj e' he'
          by_cases hji : j = i
          · rw [hji, hget, some.injEq] at he'
            exact he' ▸ hw
          · exact hpast j (by omega) e' he'
        exact ih hc hs (by omega) hpast'
      cases hpos : posOf p.firstLen p.unit e.idx with
      | none =>
        simp only [drainLoop, hget, hpos]
        exact hpass fun hpl => absurd hpl (hc.posOf_eq_none.mp hpos)
      | some pos =>
        obtain ⟨hpl, rfl⟩ := hc.posOf_iff.mp hpos
        by_cases hfit : p.start e.idx.toNat + e.bytes.length ≤ fragMaxPayload
        · simp only [drainLoop, hget, hpos, if_pos hfit]
          obtain ⟨hlen, hbefore, hsub, hcases⟩ := swapRemove_spec hget
          obtain ⟨hcnt, hbuf, hpend⟩ := bufWrite_of_le
            (p := { p with pending := swapRemove p.pending i }) hfit
          generalize { p with pending := swapRemove p.pending i }.bufWrite
            (p.start e.idx.toNat) e.bytes = q at hcnt hbuf hpend ⊢
          simp only at hbuf hpend
          have hsame : SameCounts q p := hcnt.trans ⟨rfl, rfl, rfl, rfl, rfl, rfl, rfl⟩
          have hstored : Stores q c := by
            refine stores_of_write hc (hs.pending (mem_of_getElem? hget)) hpl hsame hbuf
              (fun e' he' => hs.pending (hsub e' (hpend ▸ he'))) ?_ hs.short
            intro j d hji hd hout
            refine hs.placed hd fun e' he' => ?_
            rcases hcases e' he' with rfl | hin
            · exact Ne.symm hji
            · exact hout e' (by rw [hpend]; exact hin)
          have hpast' : ∀ j < i, ∀ e', q.pending[j]? = some e' → q.Waits e' := by
            intro j hj e' he'
            rw [hpend, hbefore j hj] at he'
            exact (hsame.waits e').mpr (hpast j hj e' he')
          obtain ⟨r, hr, hrsame, hrest⟩ := ih (hsame.counts hc) hstored
            (by rw [hpend]; omega) hpast'
          exact ⟨r, hr, hrsame.trans hsame, hrest⟩
        · simp only [drainLoop, hget, hpos, if_neg hfit]
          exact hpass fun _ => by omega

/-- The fragment belongs to the partial, is not there yet, keeps the common length and leaves
the payload short enough. -/
structure Fits (p : Partial) (c : Nat → Option Bytes) (f : Wire.FragView) : Prop where
  total : f.total = p.total
  idx_lt : f.idx.toNat < p.total.toNat
  fresh : c f.idx.toNat = none
  width : ∀ w, isMiddle f = true → p.unit = some w → w = f.chunk.length
  bytes : p.bytes + f.chunk.length ≤ fragMaxPayload

lemma isMiddle_iff {f : Wire.FragView} (h : f.idx.toNat < f.total.toNat) :
    isMiddle f = true ↔ 1 ≤ f.idx.toNat ∧ f.idx.toNat + 1 < f.total.toNat := by
  have h1 : (1 : UInt8) ≤ f.total := UInt8.le_iff_toNat_le.mpr (by
    rw [UInt8.toNat_one]
    omega)
  have hsub : (f.total - 1).toNat = f.total.toNat - 1 := UInt8.toNat_sub_of_le _ _ h1
  rw [isMiddle, Bool.and_eq_true, decide_eq_true_eq, bne_iff_ne, UInt8.le_iff_toNat_le,
    UInt8.toNat_one, Ne, ← UInt8.toNat_inj, hsub]
  omega

section

variable {p : Partial} {c : Nat → Option Bytes} {f : Wire.FragView}

/-- The table with one more chunk. -/
abbrev withChunk (c : Nat → Option Bytes) (f : Wire.FragView) : Nat → Option Bytes :=
  Function.update c f.idx.toNat (some f.chunk)

lemma withChunk_of_some (hfresh : c f.idx.toNat = none) {i : Nat} {b : Bytes}
    (hb : c i = some b) : withChunk c f i = some b := by
  have hne : i ≠ f.idx.toNat := by
    rintro rfl
    rw [hfresh] at hb
    exact absurd hb (by simp)
  rw [withChunk, update_of_ne hne, hb]

/-- A known length of the first chunk stays. -/
lemma firstAfter_of_some (hc : Counts p c) (hf : Fits p c f) {a : Nat}
    (ha : p.firstLen = some a) : p.firstAfter f = some a := by
  have hne : f.idx ≠ 0 := by
    intro h0
    have hnone := hf.fresh
    rw [h0, UInt8.toNat_zero] at hnone
    rw [hc.first, hnone] at ha
    exact absurd ha (by simp)
  rw [firstAfter, if_neg hne, ha]

/-- A known length of the middle chunks stays. -/
lemma unitAfter_of_some {w : Nat} (hw : p.unit = some w) : p.unitAfter f = some w := by
  rw [unitAfter, hw]
  simp

/-- Counting a fitting fragment adds its chunk to the table. -/
lemma Counts.note (hc : Counts p c) (hf : Fits p c f) : Counts (p.note f) (withChunk c f) := by
  have hlt : f.idx.toNat < f.total.toNat := hf.total ▸ hf.idx_lt
  have hmid := isMiddle_iff hlt
  refine ⟨hc.two_le, hc.le_max, ?_, ?_, ?_, ?_, ?_, ?_, ?_⟩
  · intro i b hb
    by_cases hi : i = f.idx.toNat
    · exact hi ▸ hf.idx_lt
    · rw [withChunk, update_of_ne hi] at hb
      exact hc.lt_total hb
  · intro i hi
    simp only [Partial.note, BitVec.getLsbD_or, hc.got i hi, BitVec.getLsbD_twoPow]
    by_cases heq : i = f.idx.toNat
    · rw [heq, withChunk, update_self]
      simp
      omega
    · rw [withChunk, update_of_ne heq]
      simp [Ne.symm heq]
  · simp only [Partial.note, firstAfter]
    by_cases h0 : f.idx = 0
    · rw [if_pos h0, withChunk, h0, UInt8.toNat_zero, update_self]
      rfl
    · have hne : (0 : Nat) ≠ f.idx.toNat := fun h => h0 (UInt8.toNat_inj.mp h.symm)
      rw [if_neg h0, withChunk, update_of_ne hne, hc.first]
  · intro i b hi hi' hb
    by_cases heq : i = f.idx.toNat
    · subst heq
      rw [withChunk, update_self, some.injEq] at hb
      have hismid : isMiddle f = true := hmid.mpr ⟨hi, by rw [hf.total]; exact hi'⟩
      simp only [Partial.note, unitAfter, hismid, Bool.true_and]
      cases hu : p.unit with
      | none => simp [hb]
      | some w => simp [hf.width w hismid hu, hb]
    · rw [withChunk, update_of_ne heq] at hb
      exact unitAfter_of_some (hc.middle hi hi' hb)
  · intro w hw
    simp only [Partial.note] at hw ⊢
    cases hu : p.unit with
    | some w' =>
      obtain ⟨i, b, hi, hi', hb⟩ := hc.unit_of hu
      exact ⟨i, b, hi, hi', withChunk_of_some hf.fresh hb⟩
    | none =>
      rw [unitAfter, hu] at hw
      by_cases hismid : isMiddle f = true
      · obtain ⟨h1, h2⟩ := hmid.mp hismid
        exact ⟨_, _, h1, by rw [← hf.total]; exact h2, update_self _ _ _⟩
      · simp [hismid] at hw
  · have hlen := length_joined_update hf.idx_lt hf.fresh f.chunk
    simp only [Partial.note, hc.bytes]
    exact hlen.symm
  · exact hf.bytes

/-- A known place stays when a fragment is counted. -/
lemma Placeable.note (hc : Counts p c) (hf : Fits p c f) {i : Nat} (h : p.Placeable i) :
    (p.note f).Placeable i ∧ (p.note f).start i = p.start i := by
  cases i with
  | zero => exact ⟨⟨fun h0 => absurd rfl h0, fun h2 => absurd h2 (by omega)⟩, rfl⟩
  | succ k =>
    obtain ⟨a, ha⟩ := isSome_iff_exists.mp (h.1 (Nat.succ_ne_zero k))
    have hfirst : (p.note f).firstLen = some a := firstAfter_of_some hc hf ha
    cases k with
    | zero =>
      refine ⟨⟨fun _ => by rw [hfirst]; rfl, fun h2 => absurd h2 (by omega)⟩, ?_⟩
      simp [start, pieceStart, hfirst, ha]
    | succ k =>
      obtain ⟨w, hw⟩ := isSome_iff_exists.mp (h.2 (by omega))
      have hunit : (p.note f).unit = some w := unitAfter_of_some hw
      refine ⟨⟨fun _ => by rw [hfirst]; rfl, fun _ => by rw [hunit]; rfl⟩, ?_⟩
      simp [start, hfirst, hunit, ha, hw]

lemma Stores.note (hc : Counts p c) (hf : Fits p c f) (hs : Stores p c) : Stores (p.note f) c := by
  refine ⟨hs.pending, ?_, ?_⟩
  · intro i b hb hout
    obtain ⟨hpl, hat⟩ := hs.placed hb hout
    obtain ⟨hpl', hstart⟩ := hpl.note hc hf
    exact ⟨hpl', hstart ▸ hat⟩
  · intro k hk
    obtain ⟨i, b, hb, hpl, hlt⟩ := hs.short k hk
    obtain ⟨hpl', hstart⟩ := hpl.note hc hf
    exact ⟨i, b, hb, hpl', hstart ▸ hlt⟩

lemma withChunk_of_ne {i : Nat} (h : i ≠ f.idx.toNat) : withChunk c f i = c i :=
  update_of_ne h _ _

lemma stores_store (hc : Counts p c) (hf : Fits p c f) (hs : Stores p c)
    (hfit : ∀ pos, p.place f = some pos → pos + f.chunk.length ≤ fragMaxPayload) :
    SameCounts ((p.note f).store f (p.place f)) (p.note f) ∧
      Stores ((p.note f).store f (p.place f)) (withChunk c f) ∧
      ∀ e ∈ ((p.note f).store f (p.place f)).pending,
        e ∈ p.pending ∨ ¬(p.note f).Placeable e.idx.toNat := by
  have hcn := hc.note hf
  have hsn := hs.note hc hf
  have hself : withChunk c f f.idx.toNat = some f.chunk := update_self _ _ _
  cases hpos : p.place f with
  | some pos =>
    obtain ⟨hpl, hstart⟩ := hcn.posOf_iff.mp hpos
    obtain ⟨hcnt, hbuf, hpend⟩ := bufWrite_of_le (p := { p.note f with
      cap := if (p.note f).cap = 0 then reserveFor f else (p.note f).cap }) (hfit pos hpos)
    simp only [store]
    generalize { p.note f with
      cap := if (p.note f).cap = 0 then reserveFor f else (p.note f).cap }.bufWrite pos f.chunk =
        q at hcnt hbuf hpend ⊢
    simp only at hbuf hpend
    have hsame : SameCounts q (p.note f) := hcnt.trans ⟨rfl, rfl, rfl, rfl, rfl, rfl, rfl⟩
    refine ⟨hsame, ?_, fun e he => .inl (by rw [hpend] at he; exact he)⟩
    refine stores_of_write hcn hself hpl hsame (hstart ▸ hbuf) ?_ ?_ ?_
    · intro e he
      rw [hpend] at he
      exact withChunk_of_some hf.fresh (hsn.pending he)
    · intro j d hj hd hout
      rw [withChunk_of_ne hj] at hd
      exact hsn.placed hd fun e he => hout e (by rw [hpend]; exact he)
    · intro k hk
      obtain ⟨i, b, hb, hrest⟩ := hsn.short k hk
      exact ⟨i, b, withChunk_of_some hf.fresh hb, hrest⟩
  | none =>
    have hnpl : ¬(p.note f).Placeable f.idx.toNat := hcn.posOf_eq_none.mp hpos
    have hmem : ∀ e, e ∈ ((p.note f).pushPending ⟨f.idx, f.chunk⟩).pending ↔
        e ∈ p.pending ∨ e = ⟨f.idx, f.chunk⟩ := by
      intro e
      simp only [pushPending, mem_append, mem_singleton]
      rfl
    refine ⟨⟨rfl, rfl, rfl, rfl, rfl, rfl, rfl⟩, ⟨?_, ?_, ?_⟩, ?_⟩
    · intro e he
      rcases (hmem e).mp he with hin | rfl
      · exact withChunk_of_some hf.fresh (hsn.pending hin)
      · exact hself
    · intro i b hb hout
      have hne : i ≠ f.idx.toNat := Ne.symm (hout ⟨f.idx, f.chunk⟩ ((hmem _).mpr (.inr rfl)))
      rw [withChunk_of_ne hne] at hb
      exact hsn.placed hb fun e he => hout e ((hmem e).mpr (.inl he))
    · intro k hk
      obtain ⟨i, b, hb, hrest⟩ := hsn.short k hk
      exact ⟨i, b, withChunk_of_some hf.fresh hb, hrest⟩
    · intro e he
      rcases (hmem e).mp he with hin | rfl
      · exact .inl hin
      · exact .inr hnpl

lemma sameCounts_recomputeRetained (z : Sizes) (q : Partial) :
    SameCounts (q.recomputeRetained z) q := ⟨rfl, rfl, rfl, rfl, rfl, rfl, rfl⟩

lemma Gathers.recomputeRetained (z : Sizes) (h : Gathers p c) : Gathers (p.recomputeRetained z) c :=
  ⟨(sameCounts_recomputeRetained z p).counts h.counts,
    ⟨h.stores.pending, h.stores.placed, h.stores.short⟩, h.waits⟩

/-- Taking a fitting fragment in adds its chunk to the table. -/
lemma Gathers.absorb (z : Sizes) (h : Gathers p c) (hf : Fits p c f)
    (hfit : ∀ pos, p.place f = some pos → pos + f.chunk.length ≤ fragMaxPayload) :
    Gathers (p.absorb z f) (withChunk c f) ∧ SameCounts (p.absorb z f) (p.note f) := by
  obtain ⟨hsame, hstores, hpend⟩ := stores_store h.counts hf h.stores hfit
  have hcounts := hsame.counts (h.counts.note hf)
  simp only [Partial.absorb]
  generalize (p.note f).store f (p.place f) = q at hsame hstores hpend hcounts ⊢
  by_cases hnew : q.firstLen ≠ p.firstLen ∨ q.unit ≠ p.unit
  · rw [if_pos hnew]
    obtain ⟨r, hr, hrsame, hrstores, hrwaits⟩ := drainLoop_spec hcounts hstores
      (Nat.le_add_right _ 0) (by simp)
    rw [drainPending, hr]
    have hgathers : Gathers r (withChunk c f) := ⟨hrsame.counts hcounts, hrstores, hrwaits⟩
    exact ⟨hgathers.recomputeRetained z,
      (sameCounts_recomputeRetained z r).trans (hrsame.trans hsame)⟩
  -- No length is new, so a chunk that had no place has none now.
  rw [if_neg hnew]
  obtain ⟨hfirst, hunit⟩ := not_or.mp hnew
  rw [not_not] at hfirst hunit
  have hgathers : Gathers q (withChunk c f) := by
    refine ⟨hcounts, hstores, ?_⟩
    intro e he
    rcases hpend e he with hold | hnpl
    · have hw := h.waits e hold
      rw [Waits, Placeable, start, ← hfirst, ← hunit] at hw
      exact hw
    · intro hpl
      exact absurd ((hsame.placeable _).mp hpl) hnpl
  exact ⟨hgathers.recomputeRetained z, (sameCounts_recomputeRetained z q).trans hsame⟩

end

/-- The context is not part of what is gathered. -/
lemma Gathers.withCtx (h : Gathers p c) (ctx : Option FragCtx) : Gathers { p with ctx := ctx } c :=
  ⟨⟨h.counts.two_le, h.counts.le_max, h.counts.lt_total, h.counts.got, h.counts.first,
    h.counts.middle, h.counts.unit_of, h.counts.bytes, h.counts.le_payload⟩,
    ⟨h.stores.pending, h.stores.placed, h.stores.short⟩, h.waits⟩

lemma gathers_new {total : UInt8} (ctx : Option FragCtx) (nowMs : Nat) (h2 : 2 ≤ total.toNat)
    (hmax : total.toNat ≤ fragMaxTotal) : Gathers (new total ctx nowMs) fun _ => none := by
  have hjoined : ∀ n, joined (fun _ => none) n = [] := by
    intro n
    induction n with
    | zero => rfl
    | succ n ih => rw [joined_succ, ih, getD_none, append_nil]
  refine ⟨⟨h2, hmax, by simp, ?_, rfl, by simp, ?_, ?_, ?_⟩, ⟨?_, by simp, ?_⟩, ?_⟩
  · intro i _
    simp [new]
  · intro w hw
    exact absurd hw (by simp [new])
  · rw [hjoined]
    rfl
  · exact Nat.zero_le _
  · intro e he
    exact absurd he (by simp [new])
  · intro k hk
    exact absurd hk (by simp [new])
  · intro e he
    exact absurd he (by simp [new])

lemma getLsbD_want {total : UInt8} (hmax : total.toNat ≤ fragMaxTotal) (hi : i < 64) :
    (want total).getLsbD i = decide (i < total.toNat) := by
  have h64 : fragMaxTotal = 64 := rfl
  unfold want
  by_cases hlt : total.toNat < 64
  · have hpow : 2 ^ total.toNat < 2 ^ 64 := Nat.pow_lt_pow_right (by omega) hlt
    have hpos : 0 < 2 ^ total.toNat := Nat.two_pow_pos _
    have hval : (BitVec.twoPow 64 total.toNat - 1).toNat = 2 ^ total.toNat - 1 := by
      rw [BitVec.toNat_sub, BitVec.toNat_twoPow, Nat.mod_eq_of_lt hpow]
      simp only [BitVec.ofNat_eq_ofNat, BitVec.toNat_ofNat]
      omega
    rw [if_pos hlt, BitVec.getLsbD, hval, Nat.testBit_two_pow_sub_one]
  · rw [if_neg hlt, BitVec.getLsbD_allOnes, decide_eq_decide]
    omega

/-- All bits are there exactly when all chunks are. -/
lemma Counts.got_eq_want (hc : Counts p c) :
    p.got = want p.total ↔ ∀ i < p.total.toNat, (c i).isSome := by
  have h64 : fragMaxTotal = 64 := rfl
  have hmax := hc.le_max
  constructor
  · intro h i hi
    rw [← hc.got i (by omega), h, getLsbD_want hmax (by omega), decide_eq_true hi]
  intro h
  apply BitVec.eq_of_getLsbD_eq
  intro i hi
  rw [hc.got i hi, getLsbD_want hmax hi]
  by_cases hlt : i < p.total.toNat
  · rw [h i hlt, decide_eq_true hlt]
  rw [decide_eq_false hlt, isSome_eq_false_iff, isNone_iff_eq_none, eq_none_iff_forall_ne_some]
  intro b hb
  exact hlt (hc.lt_total hb)

/-- A live partial accepts exactly the fragments that fit it. -/
lemma Counts.accepts_iff (hc : Counts p c) {f : Wire.FragView} (incoming : Option FragCtx)
    (hidx : f.idx.toNat < f.total.toNat) :
    p.accepts f incoming = true ↔ Fits p c f ∧ ctxAgrees p.ctx incoming = true := by
  have h64 : fragMaxTotal = 64 := rfl
  have hmax : fragMaxPayload = 8192 := rfl
  have hle := hc.le_max
  have hbytes : saturatingAdd p.bytes f.chunk.length ≤ fragMaxPayload ↔
      p.bytes + f.chunk.length ≤ fragMaxPayload := by
    rw [saturatingAdd, hmax]
    simp only [usizeSize]
    omega
  have hwidth : (!(isMiddle f && p.unit.any fun w => decide (w ≠ f.chunk.length))) = true ↔
      ∀ w, isMiddle f = true → p.unit = some w → w = f.chunk.length := by
    cases hm : isMiddle f <;> cases hu : p.unit <;> simp
  have hbit : p.total = f.total → (p.got &&& BitVec.twoPow 64 f.idx.toNat = 0 ↔
      c f.idx.toNat = none) := by
    intro ht
    have hlt : f.idx.toNat < 64 := by
      rw [ht] at hle
      omega
    have hg := hc.got _ hlt
    rw [BitVec.and_twoPow, hg]
    cases c f.idx.toNat with
    | none => simp
    | some b =>
      simp only [isSome_some, if_true, reduceCtorEq, iff_false]
      intro h0
      have hbit := congrArg (fun x => BitVec.getLsbD x f.idx.toNat) h0
      simp [hlt] at hbit
  rw [accepts, Bool.and_eq_true, Bool.and_eq_true, Bool.and_eq_true, Bool.and_eq_true,
    decide_eq_true_eq, decide_eq_true_eq, hwidth, decide_eq_true_eq, hbytes]
  constructor
  · rintro ⟨⟨⟨⟨ht, hagree⟩, hgot⟩, hw⟩, hb⟩
    exact ⟨⟨ht.symm, ht ▸ hidx, (hbit ht).mp hgot, hw, hb⟩, hagree⟩
  · rintro ⟨hf, hagree⟩
    exact ⟨⟨⟨⟨hf.total.symm, hagree⟩, (hbit hf.total.symm).mpr hf.fresh⟩, hf.width⟩, hf.bytes⟩

end Partial

end MyQuic2
